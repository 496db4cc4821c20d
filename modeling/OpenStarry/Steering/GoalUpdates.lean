import OpenStarry.Session.Keys

/-!
# Goal objective updates

A goal has one row; the task that works on it keeps the latest update of its objective that it is
to adopt. An edit makes the update pending, the task claims it at a safe boundary and applies it
once a provider call has started with it. Each function is one write transaction on the two tables.
-/

namespace OpenStarry.Steering

open Lib Text Session

structure GoalTurnContext where
  sessionId : Str
  epoch : Int
  goalId : Str
  objectiveRevision : Nat
  objectiveSnapshot : Str
  taskId : Str
  continuationSeq : Int
  automatic : Bool
  deriving DecidableEq

inductive UpdateStatus where
  | pending | claimed | applied | revoked
  deriving DecidableEq

structure GoalObjectiveUpdate where
  context : GoalTurnContext
  stateRevision : Nat
  acceptedAtMs : Int
  status : UpdateStatus
  deriving DecidableEq

def GoalObjectiveUpdate.revision (update : GoalObjectiveUpdate) : Nat :=
  update.context.objectiveRevision

inductive GoalStatus where
  | active | paused | blocked | usageLimited | complete
  deriving DecidableEq

/-- The columns of `session_goals` that objective updates depend on. -/
structure GoalRecord where
  sessionKey : Str
  sessionId : Str
  sessionEpoch : Int
  objective : Str
  objectiveRevision : Nat
  stateRevision : Nat
  status : GoalStatus
  activeTaskId : Option Str

/-- The columns and details of `agent_tasks` that objective updates depend on. -/
structure AgentTask where
  sessionKey : Str
  status : AgentTaskStatus
  goalContext : Option GoalTurnContext
  goalEffectiveContext : Option GoalTurnContext
  goalObjectiveUpdate : Option GoalObjectiveUpdate

/-- `effective_goal_turn_context`. -/
def AgentTask.effectiveContext (task : AgentTask) : Option GoalTurnContext :=
  task.goalEffectiveContext <|> task.goalContext

structure Ledger where
  goals : Str → Option GoalRecord
  tasks : Str → Option AgentTask

def GoalRecord.Grants (goal : GoalRecord) (context : GoalTurnContext) : Prop :=
  goal.sessionId = context.sessionId ∧ goal.sessionEpoch = context.epoch ∧
    goal.objectiveRevision = context.objectiveRevision ∧
    goal.objective = context.objectiveSnapshot ∧ goal.activeTaskId = some context.taskId ∧
    (goal.status = .active ∨ goal.status = .paused)

instance (goal : GoalRecord) (context : GoalTurnContext) : Decidable (goal.Grants context) := by
  unfold GoalRecord.Grants
  infer_instance

def AgentTask.Holds (task : AgentTask) (sessionKey : Str) (update : GoalObjectiveUpdate)
    (statuses : List UpdateStatus) : Prop :=
  task.status = .running ∧ task.sessionKey = sessionKey ∧
    ∃ record ∈ task.goalObjectiveUpdate, record.context = update.context ∧
      record.stateRevision = update.stateRevision ∧ record.status ∈ statuses

instance (task : AgentTask) (sessionKey : Str) (update : GoalObjectiveUpdate)
    (statuses : List UpdateStatus) : Decidable (task.Holds sessionKey update statuses) := by
  unfold AgentTask.Holds
  infer_instance

namespace Ledger

variable (l : Ledger)

def putTask (taskId : Str) (task : AgentTask) : Ledger :=
  { l with tasks := Function.update l.tasks taskId (some task) }

def putGoal (goalId : Str) (goal : GoalRecord) : Ledger :=
  { l with goals := Function.update l.goals goalId (some goal) }

def standing (update : GoalObjectiveUpdate) (statuses : List UpdateStatus) :
    Option (GoalRecord × AgentTask) :=
  match l.goals update.context.goalId, l.tasks update.context.taskId with
  | some goal, some task =>
      if goal.Grants update.context ∧ task.Holds goal.sessionKey update statuses then
        some (goal, task)
      else none
  | _, _ => none

def recorded (task : AgentTask) (update : GoalObjectiveUpdate) (status : UpdateStatus) :
    GoalObjectiveUpdate :=
  { context := update.context
    stateRevision := update.stateRevision
    acceptedAtMs := (task.goalObjectiveUpdate.map (·.acceptedAtMs)).getD update.acceptedAtMs
    status := status }

/-- `claim_goal_objective_update`. -/
def claimGoalObjectiveUpdate (update : GoalObjectiveUpdate) :
    Option GoalObjectiveUpdate × Ledger :=
  match l.standing update [.pending, .claimed] with
  | none => (none, l)
  | some (_, task) =>
      let claimed := recorded task update .claimed
      (some claimed, l.putTask update.context.taskId
        { task with goalObjectiveUpdate := some claimed })

/-- `apply_goal_objective_update`. -/
def applyGoalObjectiveUpdate (update : GoalObjectiveUpdate) :
    Option GoalObjectiveUpdate × Ledger :=
  match l.standing update [.claimed] with
  | none => (none, l)
  | some (_, task) =>
      let applied := recorded task update .applied
      (some applied, l.putTask update.context.taskId
        { task with
          goalEffectiveContext := some update.context
          goalObjectiveUpdate := some applied })

def edited (goal : GoalRecord) (objective : Str) : GoalRecord :=
  { goal with
    objective := objective
    objectiveRevision := goal.objectiveRevision + 1
    stateRevision := goal.stateRevision + 1
    status := if goal.status = .complete then .active else goal.status }

def adopter (goalId taskId : Str) (goal : GoalRecord) (task : AgentTask) : Option GoalTurnContext :=
  task.effectiveContext.filter fun accepted =>
    decide (task.sessionKey = goal.sessionKey) && task.status.isLive &&
      decide (accepted.sessionId = goal.sessionId ∧ accepted.epoch = goal.sessionEpoch ∧
        accepted.goalId = goalId ∧ accepted.taskId = taskId)

/-- The update that the edit leaves with the adopting task. -/
def offer (goalId taskId : Str) (goal : GoalRecord) (accepted : GoalTurnContext) (now : Int) :
    GoalObjectiveUpdate :=
  { context :=
      { sessionId := goal.sessionId
        epoch := goal.sessionEpoch
        goalId := goalId
        objectiveRevision := goal.objectiveRevision
        objectiveSnapshot := goal.objective
        taskId := taskId
        continuationSeq := accepted.continuationSeq
        automatic := accepted.automatic }
    stateRevision := goal.stateRevision
    acceptedAtMs := now
    status := .pending }

def adopt (goalId : Str) (goal : GoalRecord) (now : Int) (taskId : Str) : Ledger :=
  match l.tasks taskId with
  | none => l
  | some task =>
      match adopter goalId taskId goal task with
      | none => l
      | some accepted =>
          l.putTask taskId
            { task with goalObjectiveUpdate := some (offer goalId taskId goal accepted now) }

/-- `edit_goal`: the objective of a goal is replaced, and its task is offered the new one. -/
def editGoal (goalId : Str) (expectedStateRevision : Nat) (objective : Str)
    (adoptionTaskId : Option Str) (now : Int) : Option Ledger :=
  match l.goals goalId with
  | none => none
  | some goal =>
      if goal.stateRevision ≠ expectedStateRevision ∨
          (goal.status = .complete ∧ goal.activeTaskId ≠ none) then none
      else
        let updated := edited goal objective
        let after := l.putGoal goalId updated
        match adoptionTaskId with
        | none => some after
        | some taskId =>
            if updated.activeTaskId = some taskId then some (after.adopt goalId updated now taskId)
            else some after

def pendingUpdate (taskId : Str) : Option GoalObjectiveUpdate :=
  ((l.tasks taskId).bind (·.goalObjectiveUpdate)).filter fun update =>
    decide (update.status = .pending ∧ update.context.taskId = taskId)

/-- The update of a task as `clear_goal` leaves it. -/
def revoked (task : AgentTask) : AgentTask :=
  { task with
    goalObjectiveUpdate := task.goalObjectiveUpdate.map fun update =>
      if update.status = .applied then update else { update with status := .revoked } }

/-- `clear_goal`. -/
def clearGoal (goalId : Str) (expectedStateRevision : Nat) : Option Ledger :=
  match l.goals goalId with
  | none => none
  | some goal =>
      if goal.stateRevision ≠ expectedStateRevision then none
      else
        let deleted := { l with goals := Function.update l.goals goalId none }
        match goal.activeTaskId with
        | none => some deleted
        | some taskId =>
            match l.tasks taskId with
            | none => some deleted
            | some task => some (deleted.putTask taskId (revoked task))

/-! ### What a transaction does -/

variable {l : Ledger} {update : GoalObjectiveUpdate}

theorem standing_eq_some {statuses : List UpdateStatus} {goal : GoalRecord} {task : AgentTask}
    (h : l.standing update statuses = some (goal, task)) :
    l.goals update.context.goalId = some goal ∧ l.tasks update.context.taskId = some task ∧
      goal.Grants update.context ∧ task.Holds goal.sessionKey update statuses := by
  unfold standing at h
  cases hgoal : l.goals update.context.goalId with
  | none => simp [hgoal] at h
  | some row =>
      cases htask : l.tasks update.context.taskId with
      | none => simp [hgoal, htask] at h
      | some owner =>
          simp only [hgoal, htask] at h
          split at h
          · obtain ⟨rfl, rfl⟩ := Prod.mk.inj (Option.some.inj h)
            exact ⟨rfl, rfl, ‹_ ∧ _›⟩
          · cases h

/-- A claim or an application that succeeds changes the held update only, which is the one asked
for. -/
structure Records (l l' : Ledger) (update : GoalObjectiveUpdate) (statuses : List UpdateStatus)
    (result : GoalObjectiveUpdate) : Prop where
  goals : l'.goals = l.goals
  context : result.context = update.context
  stateRevision : result.stateRevision = update.stateRevision
  granted : ∃ goal, l.goals update.context.goalId = some goal ∧ goal.Grants update.context
  held : ∃ task task' record, l.tasks update.context.taskId = some task ∧
    task.goalObjectiveUpdate = some record ∧ record.context = update.context ∧
    record.status ∈ statuses ∧
    l'.tasks = Function.update l.tasks update.context.taskId (some task') ∧
    task'.goalContext = task.goalContext ∧
    task'.goalEffectiveContext ∈ [task.goalEffectiveContext, some update.context] ∧
    task'.goalObjectiveUpdate = some result

theorem claimGoalObjectiveUpdate_spec {result : GoalObjectiveUpdate} {l' : Ledger}
    (h : l.claimGoalObjectiveUpdate update = (some result, l')) :
    Records l l' update [.pending, .claimed] result ∧ result.status = .claimed := by
  unfold claimGoalObjectiveUpdate at h
  split at h
  · cases h
  · rename_i goal task hstanding
    obtain ⟨hresult, rfl⟩ := Prod.mk.inj h
    obtain rfl := Option.some.inj hresult
    obtain ⟨hgoal, htask, hgrants, -, -, record, hrecord, hcontext, -, hstatus⟩ :=
      standing_eq_some hstanding
    exact ⟨⟨rfl, rfl, rfl, ⟨goal, hgoal, hgrants⟩, task, _, record, htask, hrecord, hcontext,
      hstatus, rfl, rfl, List.mem_cons_self, rfl⟩, rfl⟩

theorem applyGoalObjectiveUpdate_spec {result : GoalObjectiveUpdate} {l' : Ledger}
    (h : l.applyGoalObjectiveUpdate update = (some result, l')) :
    Records l l' update [.claimed] result ∧ result.status = .applied := by
  unfold applyGoalObjectiveUpdate at h
  split at h
  · cases h
  · rename_i goal task hstanding
    obtain ⟨hresult, rfl⟩ := Prod.mk.inj h
    obtain rfl := Option.some.inj hresult
    obtain ⟨hgoal, htask, hgrants, -, -, record, hrecord, hcontext, -, hstatus⟩ :=
      standing_eq_some hstanding
    exact ⟨⟨rfl, rfl, rfl, ⟨goal, hgoal, hgrants⟩, task, _, record, htask, hrecord, hcontext,
      hstatus, rfl, rfl, List.mem_cons_of_mem _ List.mem_cons_self, rfl⟩, rfl⟩

theorem claimGoalObjectiveUpdate_none {l' : Ledger}
    (h : l.claimGoalObjectiveUpdate update = (none, l')) : l' = l := by
  unfold claimGoalObjectiveUpdate at h
  split at h
  · exact (Prod.mk.inj h).2.symm
  · cases h

theorem applyGoalObjectiveUpdate_none {l' : Ledger}
    (h : l.applyGoalObjectiveUpdate update = (none, l')) : l' = l := by
  unfold applyGoalObjectiveUpdate at h
  split at h
  · exact (Prod.mk.inj h).2.symm
  · cases h

end Ledger

end OpenStarry.Steering
