import OpenStarry.Lib.Decimal
import OpenStarry.Lib.Substring
import OpenStarry.Lib.TransitionSystem
import OpenStarry.Steering.GoalUpdates

/-!
# The steering inputs of a running turn

Inputs that arrive while a turn runs wait in its provider. The agent drains them at a safe boundary
and confirms them once the provider call that contains them has started; what was confirmed is
recorded and then forgotten, what was not is reclaimed at the end of the turn. An edit of the goal
objective takes the same way, but is claimed in the ledger under a lock of its own.
-/

namespace OpenStarry.Steering

open Lib Text

/-- An accepted input; `token` says which one it is. -/
structure SteeredInput where
  token : Nat
  text : Str
  appliedIteration : Option Nat
  modelCallId : Option Str
  deriving DecidableEq

namespace SteeredInput

def original (item : SteeredInput) : SteeredInput :=
  { item with appliedIteration := none, modelCallId := none }

def withCall (iteration : Nat) (modelCallId : Str) (item : SteeredInput) : SteeredInput :=
  { item with appliedIteration := some iteration, modelCallId := some modelCallId }

@[simp] theorem original_withCall (iteration : Nat) (modelCallId : Str) (item : SteeredInput) :
    (item.withCall iteration modelCallId).original = item.original := rfl

@[simp] theorem token_original (item : SteeredInput) : item.original.token = item.token := rfl

end SteeredInput

/-- `xml_escape`. -/
def xmlEscape (text : Str) : Str :=
  [("&", "&amp;"), ("<", "&lt;"), (">", "&gt;"), ("\"", "&quot;"), ("'", "&apos;")].foldl
    (fun escaped (plain, entity) => replace plain.toList entity.toList escaped) text

/-- `_render_goal_objective_update`. -/
def renderGoalObjectiveUpdate (update : GoalObjectiveUpdate) : Str :=
  ("[Persisted Goal objective update]\n" ++
    "This is internal Goal control, not a new user message. Re-evaluate the " ++
    "whole objective and adjust the current turn at this safe boundary. Do not " ++
    "treat prior progress as completion evidence for requirements that changed.\n" ++
    "<goal_objective revision=\"").toList ++ decimal update.revision ++ "\">\n".toList ++
    xmlEscape update.context.objectiveSnapshot ++ "\n</goal_objective>".toList

structure PendingInputClaim where
  texts : List Str
  goalContext : Option GoalTurnContext

/-- What a call of `claim_pending` returns. -/
def pendingInputClaim (userTexts : List Str) (goalUpdate : Option GoalObjectiveUpdate) :
    PendingInputClaim where
  texts := (goalUpdate.map renderGoalObjectiveUpdate).toList ++ userTexts
  goalContext := goalUpdate.map (·.context)

/-- The work that `mark_applied` returns: what is to be recorded and for which call. -/
structure Recording where
  items : List SteeredInput
  goalUpdate : Option GoalObjectiveUpdate
  iteration : Nat
  modelCallId : Str

/-- The fields of `_SteerPendingInputProvider` but its lock. -/
structure Provider where
  pending : List SteeredInput
  claimed : List SteeredInput
  applied : List SteeredInput
  goalPending : Option GoalObjectiveUpdate
  goalClaimed : Option GoalObjectiveUpdate
  lastAppliedGoalContext : Option GoalTurnContext
  hasAppliedRecorder : Bool
  hasGoalClaimBinder : Bool
  hasGoalAppliedRecorder : Bool

namespace Provider

variable (p : Provider)

def setAppliedRecorder : Provider := { p with hasAppliedRecorder := true }

def setGoalObjectiveRecorders : Provider :=
  { p with hasGoalClaimBinder := true, hasGoalAppliedRecorder := true }

def append (item : SteeredInput) : Provider :=
  if strip item.text = [] then p else { p with pending := p.pending ++ [item] }

/-- `append_goal_objective_update`, inside the lock. -/
def appendGoalObjectiveUpdate (update : GoalObjectiveUpdate) : Provider :=
  if ∀ current ∈ p.goalPending, current.revision ≤ update.revision then
    { p with goalPending := some update }
  else p

def drainPending : List SteeredInput × Provider :=
  if p.claimed ≠ [] then ([], p)
  else (p.pending, { p with pending := [], claimed := p.claimed ++ p.pending })

/-- The candidate of `claim_pending`, inside the lock. -/
def candidate : Option GoalObjectiveUpdate :=
  if p.goalClaimed = none then p.goalPending else none

/-- `claim_pending` after the binder has answered. -/
def bind (candidate : GoalObjectiveUpdate) (bound : Option GoalObjectiveUpdate) : Provider :=
  { p with
    goalClaimed := bound <|> p.goalClaimed
    goalPending := if p.goalPending = some candidate then none else p.goalPending }

def markApplied (iteration : Nat) (modelCallId : Str) : Option Recording × Provider :=
  let cleared := { p with goalClaimed := none, lastAppliedGoalContext := none }
  if p.claimed = [] ∧ p.goalClaimed = none then (none, cleared)
  else
    let items := p.claimed.map (·.withCall iteration modelCallId)
    let after := { cleared with claimed := [], applied := p.applied ++ items }
    let recordsGoal := p.goalClaimed.isSome && p.hasGoalAppliedRecorder
    if p.hasAppliedRecorder = false ∧ recordsGoal = false then (none, after)
    else
      (some
        { items := if p.hasAppliedRecorder then items else []
          goalUpdate := if recordsGoal then p.goalClaimed else none
          iteration := iteration
          modelCallId := modelCallId }, after)

def takeAppliedGoalContext : Option GoalTurnContext × Provider :=
  (p.lastAppliedGoalContext, { p with lastAppliedGoalContext := none })

def pendingApplied : List SteeredInput := p.applied

def acknowledgeApplied (tokens : List Nat) : Provider :=
  { p with applied := p.applied.filter fun item => item.token ∉ tokens }

def forgetGoal : Provider :=
  { p with goalClaimed := none, goalPending := none, lastAppliedGoalContext := none }

def reclaimPending : List SteeredInput × Provider :=
  (p.claimed ++ p.pending, { p.forgetGoal with claimed := [], pending := [] })

def reclaimDrained : List SteeredInput × Provider := (p.applied, { p with applied := [] })

def reclaimAll : List SteeredInput × Provider :=
  (p.applied ++ p.claimed ++ p.pending,
    { p.forgetGoal with applied := [], claimed := [], pending := [] })

/-- `revoke_goal_objective_updates`, inside the lock. -/
def revokeGoalObjectiveUpdates : Provider := p.forgetGoal

def rejectClaimedGoalContext : Provider :=
  { p with goalClaimed := none, lastAppliedGoalContext := none }

end Provider

/-! ### Interleavings -/

/-- A call of `claim_pending` that holds the lock and waits for the binder's answer. -/
structure Binding where
  userTexts : List Str
  candidate : GoalObjectiveUpdate
  answer : Option (Option GoalObjectiveUpdate)

/-- Where the work of a call of `mark_applied` stands. -/
inductive Progress where
  | inputs | goal | answered (result : Option GoalObjectiveUpdate)

/-- An update as it was claimed, with the updates that had been appended by then. -/
structure Bound where
  update : GoalObjectiveUpdate
  seen : List GoalObjectiveUpdate

/-- The calls that are under way on one provider, the ledger, and what has happened so far: the
inputs accepted, handed out, confirmed, acknowledged and reclaimed, and the updates appended, bound
and reported. -/
structure Delivery where
  provider : Provider
  ledger : Ledger
  claims : List (List Str)
  binding : Option Binding
  recordings : List (Recording × Progress)
  read : List GoalObjectiveUpdate
  accepted : List SteeredInput
  batches : List (List SteeredInput)
  prepared : List PendingInputClaim
  confirmed : List SteeredInput
  acknowledged : List SteeredInput
  reclaimedPending : List SteeredInput
  reclaimedOtherwise : List SteeredInput
  appended : List GoalObjectiveUpdate
  bound : List Bound
  reported : List GoalObjectiveUpdate

inductive Action where
  | setAppliedRecorder
  | setGoalObjectiveRecorders
  | append (text : Str)
  | readUpdate
  | appendGoalObjectiveUpdate (update : GoalObjectiveUpdate)
  | drainPending
  | claimPending
  | enterClaim (i : Nat)
  | answerClaim
  | finishClaim
  | failClaim
  | markApplied (iteration : Nat) (modelCallId : Str)
  | recordInputs (k : Nat) (tokens : List Nat)
  | recordGoal (k : Nat)
  | finishRecording (k : Nat)
  | failRecording (k : Nat)
  | takeAppliedGoalContext
  | acknowledgeApplied (tokens : List Nat)
  | reclaimPending
  | reclaimDrained
  | reclaimAll
  | revokeGoalObjectiveUpdates
  | rejectClaimedGoalContext
  | editGoal (goalId : Str) (expectedStateRevision : Nat) (objective : Str)
      (adoptionTaskId : Option Str) (now : Int)
  | clearGoal (goalId : Str) (expectedStateRevision : Nat)
  | changeGoal (goalId : Str) (row : Option GoalRecord)
  | changeTask (taskId : Str) (row : Option AgentTask)

namespace Delivery

variable (s : Delivery)

def append (text : Str) : Delivery :=
  let item : SteeredInput := ⟨s.accepted.length, text, none, none⟩
  { s with
    provider := s.provider.append item
    accepted := if strip text = [] then s.accepted else s.accepted ++ [item] }

def appendGoalObjectiveUpdate (update : GoalObjectiveUpdate) : Delivery :=
  { s with
    provider := s.provider.appendGoalObjectiveUpdate update
    appended := s.appended ++ [update] }

def drainPending : Delivery :=
  { s with
    provider := s.provider.drainPending.2
    batches := s.batches ++ [s.provider.drainPending.1] }

/-- `claim_pending` up to the lock. -/
def claimPending : Delivery :=
  { s.drainPending with
    claims := s.claims ++ [s.provider.drainPending.1.map (·.text)] }

def enterClaim (i : Nat) (userTexts : List Str) : Delivery :=
  let entered := { s with claims := s.claims.eraseIdx i }
  let finished := { entered with prepared := s.prepared ++ [pendingInputClaim userTexts none] }
  match s.provider.candidate with
  | none => finished
  | some candidate =>
      if s.provider.hasGoalClaimBinder then
        { entered with binding := some ⟨userTexts, candidate, none⟩ }
      else { finished with provider := s.provider.bind candidate none }

def answerClaim (binding : Binding) : Delivery :=
  let (answer, ledger) := s.ledger.claimGoalObjectiveUpdate binding.candidate
  { s with
    ledger := ledger
    binding := some { binding with answer := some answer }
    bound := s.bound ++ (answer.map fun update => ⟨update, s.appended⟩).toList }

def finishClaim (binding : Binding) (answer : Option GoalObjectiveUpdate) : Delivery :=
  { s with
    provider := s.provider.bind binding.candidate answer
    binding := none
    prepared := s.prepared ++ [pendingInputClaim binding.userTexts answer] }

/-- The confirmed inputs are those that the call moves to `applied`. -/
def markApplied (iteration : Nat) (modelCallId : Str) : Delivery :=
  let (recording, provider) := s.provider.markApplied iteration modelCallId
  { s with
    provider := provider
    recordings := s.recordings ++ (recording.map fun work =>
      (work, if work.items = [] then .goal else .inputs)).toList
    confirmed := s.confirmed ++ provider.applied.drop s.provider.applied.length }

def acknowledgeApplied (tokens : List Nat) : Delivery :=
  { s with
    provider := s.provider.acknowledgeApplied tokens
    acknowledged := s.acknowledged ++ s.provider.applied.filter fun item => item.token ∈ tokens }

def recordInputs (k : Nat) (work : Recording) (tokens : List Nat) : Delivery :=
  { s.acknowledgeApplied tokens with recordings := s.recordings.set k (work, .goal) }

def recordGoal (k : Nat) (work : Recording) (update : GoalObjectiveUpdate) : Delivery :=
  let (result, ledger) := s.ledger.applyGoalObjectiveUpdate update
  { s with ledger := ledger, recordings := s.recordings.set k (work, .answered result) }

def finishRecording (k : Nat) (result : Option GoalObjectiveUpdate) : Delivery :=
  { s with
    provider := { s.provider with
      lastAppliedGoalContext := result.map (·.context) <|> s.provider.lastAppliedGoalContext }
    recordings := s.recordings.eraseIdx k
    reported := s.reported ++ result.toList }

def reclaimPending : Delivery :=
  { s with
    provider := s.provider.reclaimPending.2
    reclaimedPending := s.reclaimedPending ++ s.provider.reclaimPending.1 }

def reclaimDrained : Delivery :=
  { s with
    provider := s.provider.reclaimDrained.2
    reclaimedOtherwise := s.reclaimedOtherwise ++ s.provider.reclaimDrained.1 }

def reclaimAll : Delivery :=
  { s with
    provider := s.provider.reclaimAll.2
    reclaimedOtherwise := s.reclaimedOtherwise ++ s.provider.reclaimAll.1 }

end Delivery

def GoalRow (old new : Option GoalRecord) : Prop :=
  ∀ row ∈ new, ∃ before ∈ old, row.objectiveRevision = before.objectiveRevision

instance (old new : Option GoalRecord) : Decidable (GoalRow old new) := by
  unfold GoalRow
  infer_instance

def TaskRow (old new : Option AgentTask) : Prop :=
  ∀ row ∈ new, ∃ before ∈ old, row.goalContext = before.goalContext ∧
    row.goalEffectiveContext = before.goalEffectiveContext ∧
    row.goalObjectiveUpdate = before.goalObjectiveUpdate

instance (old new : Option AgentTask) : Decidable (TaskRow old new) := by
  unfold TaskRow
  infer_instance

/-- The step of the provider of task `owner`, which was accepted for goal `goalId`, and of its
surroundings. The lock is free while no call is binding. -/
def step (owner goalId : Str) (s : Delivery) : Action → Option Delivery
  | .setAppliedRecorder => some { s with provider := s.provider.setAppliedRecorder }
  | .setGoalObjectiveRecorders => some { s with provider := s.provider.setGoalObjectiveRecorders }
  | .append text => some (s.append text)
  | .readUpdate =>
      (s.ledger.pendingUpdate owner).map fun update => { s with read := update :: s.read }
  | .appendGoalObjectiveUpdate update =>
      if s.binding.isNone ∧ update ∈ s.read then some (s.appendGoalObjectiveUpdate update)
      else none
  | .drainPending => some s.drainPending
  | .claimPending => some s.claimPending
  | .enterClaim i =>
      match s.binding with
      | some _ => none
      | none => s.claims[i]?.map (s.enterClaim i)
  | .answerClaim =>
      match s.binding with
      | some ⟨userTexts, candidate, none⟩ => some (s.answerClaim ⟨userTexts, candidate, none⟩)
      | _ => none
  | .finishClaim =>
      match s.binding with
      | some ⟨userTexts, candidate, some answer⟩ =>
          some (s.finishClaim ⟨userTexts, candidate, some answer⟩ answer)
      | _ => none
  | .failClaim => s.binding.map fun _ => { s with binding := none }
  | .markApplied iteration modelCallId => some (s.markApplied iteration modelCallId)
  | .recordInputs k tokens =>
      match s.recordings[k]? with
      | some (work, .inputs) => some (s.recordInputs k work tokens)
      | _ => none
  | .recordGoal k =>
      match s.recordings[k]? with
      | some (work, .goal) => work.goalUpdate.map (s.recordGoal k work)
      | _ => none
  | .finishRecording k =>
      match s.recordings[k]? with
      | some (_, .answered result) => some (s.finishRecording k result)
      | _ => none
  | .failRecording k => some { s with recordings := s.recordings.eraseIdx k }
  | .takeAppliedGoalContext => some { s with provider := s.provider.takeAppliedGoalContext.2 }
  | .acknowledgeApplied tokens => some (s.acknowledgeApplied tokens)
  | .reclaimPending => some s.reclaimPending
  | .reclaimDrained => some s.reclaimDrained
  | .reclaimAll => some s.reclaimAll
  | .revokeGoalObjectiveUpdates =>
      if s.binding.isNone then
        some { s with provider := s.provider.revokeGoalObjectiveUpdates }
      else none
  | .rejectClaimedGoalContext => some { s with provider := s.provider.rejectClaimedGoalContext }
  | .editGoal id expectedStateRevision objective adoptionTaskId now =>
      (s.ledger.editGoal id expectedStateRevision objective adoptionTaskId now).map fun ledger =>
        { s with ledger := ledger }
  | .clearGoal id expectedStateRevision =>
      (s.ledger.clearGoal id expectedStateRevision).map fun ledger => { s with ledger := ledger }
  | .changeGoal id row =>
      if id = goalId → GoalRow (s.ledger.goals id) row then
        some { s with ledger := { s.ledger with goals := Function.update s.ledger.goals id row } }
      else none
  | .changeTask id row =>
      if id = owner → TaskRow (s.ledger.tasks id) row then
        some { s with ledger := { s.ledger with tasks := Function.update s.ledger.tasks id row } }
      else none

def Provider.fresh : Provider := ⟨[], [], [], none, none, none, false, false, false⟩

/-- What the rows of the owner and of its goal say of each other. -/
structure Consistent (owner goalId : Str) (l : Ledger) : Prop where
  goal : ∀ task ∈ l.tasks owner, ∀ context,
    (context ∈ task.goalContext ∨ context ∈ task.goalEffectiveContext ∨
      ∃ update ∈ task.goalObjectiveUpdate, context = update.context) → context.goalId = goalId
  revision : ∀ task ∈ l.tasks owner, ∀ update ∈ task.goalObjectiveUpdate,
    ∀ goal ∈ l.goals goalId, update.revision ≤ goal.objectiveRevision

def initial (owner goalId : Str) (s : Delivery) : Prop :=
  Consistent owner goalId s.ledger ∧
    s = ⟨.fresh, s.ledger, [], none, [], [], [], [], [], [], [], [], [], [], [], []⟩

end OpenStarry.Steering
