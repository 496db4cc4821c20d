import Mathlib.Data.List.Nodup
import OpenStarry.Lib.Json
import OpenStarry.Lib.Outcome

/-!
# Plan steps and their execution overlay

The steps of a plan revision never change. A run carries an overlay with one state a step, and a
checkpoint closes or blocks one of them and picks the step to go on with.
-/

namespace OpenStarry.Plans

open Lib Text

def maxPlanSteps : Nat := 64
def maxPlanTitleChars : Nat := 512
def maxPlanMarkdownChars : Nat := 100000
def maxPlanStepIdChars : Nat := 128
def maxPlanStepTitleChars : Nat := 240
def maxPlanStepDetailsChars : Nat := 4000
def maxPlanStepReasonChars : Nat := 2000

inductive PlanRunStatus where
  | queued | running | paused | blocked | completed | cancelled | superseded
  deriving DecidableEq, Repr

namespace PlanRunStatus

def value : PlanRunStatus → Str
  | queued => "queued".toList
  | running => "running".toList
  | paused => "paused".toList
  | blocked => "blocked".toList
  | completed => "completed".toList
  | cancelled => "cancelled".toList
  | superseded => "superseded".toList

/-- `PLAN_RUN_ACTIVE_STATUSES`. -/
def isActive : PlanRunStatus → Bool
  | queued | running | paused | blocked => true
  | completed | cancelled | superseded => false

end PlanRunStatus

inductive StepStatus where
  | pending | inProgress | completed | blocked | skipped
  deriving DecidableEq, Repr

namespace StepStatus

def value : StepStatus → Str
  | pending => "pending".toList
  | inProgress => "in_progress".toList
  | completed => "completed".toList
  | blocked => "blocked".toList
  | skipped => "skipped".toList

/-- The member of `PLAN_STEP_STATUSES` with a value. -/
def ofValue? (s : Str) : Option StepStatus :=
  [pending, inProgress, completed, blocked, skipped].find? fun status => status.value = s

/-- `PLAN_STEP_TERMINAL_STATUSES`. -/
def isTerminal : StepStatus → Bool
  | completed | skipped => true
  | pending | inProgress | blocked => false

def hasReason : StepStatus → Bool
  | blocked | skipped => true
  | pending | inProgress | completed => false

@[simp] theorem ofValue?_value (status : StepStatus) : ofValue? status.value = some status := by
  cases status <;> decide

end StepStatus

/-- An error that shows a value carries the value. -/
inductive PlanError where
  | validation (message : Str)
  | invalidStatus (status : Json)
  | unhashable (status : Json)
  | conflict (message : Str)
  | runConflict (message : Str)
  | staleEpoch (sessionKey : Str) (expected : Int) (actual : Option Int)
  | keyError (message : Str)
  | integrity
  | assertion
  deriving DecidableEq, Repr

/-- `_bounded_text`. -/
def boundedText (value : Json) (field : Str) (maximum : Nat) : Except PlanError Str :=
  match value with
  | .str s => do
      require (strip s ≠ []) (.validation (field ++ " must not be empty".toList))
      require ((strip s).length ≤ maximum)
        (.validation (field ++ " exceeds ".toList ++ decimal maximum ++ " characters".toList))
      pure (strip s)
  | _ => .error (.validation (field ++ " must be a string".toList))

/-! ### The steps of a revision -/

structure PlanStep where
  stepId : Str
  title : Str
  details : Option Str
  deriving DecidableEq, Repr

/-- Steps with distinct ids. -/
structure PlanSteps where
  steps : List PlanStep
  distinct : (steps.map PlanStep.stepId).Nodup

/-- `_STEP_ID_PATTERN`. -/
def stepIdPattern : Str → Bool
  | [] => false
  | c :: rest =>
      c.isAlphanum && decide (rest.length ≤ maxPlanStepIdChars - 1) &&
        rest.all fun c => c.isAlphanum || c ∈ ['.', '_', ':', '-']

/-- `raw.get(key, raw.get(alias, default))`. -/
def getAliased (raw : Dict) (key key' : String) (default : Json) : Json :=
  if raw.has key then raw.get key else if raw.has key' then raw.get key' else default

def itemPath (name : String) (index : Nat) : Str :=
  name.toList ++ "[".toList ++ decimal index ++ "]".toList

def normalizePlanStepsFrom (index : Nat) (done : PlanSteps) :
    List Json → Except PlanError PlanSteps
  | [] => .ok done
  | .obj raw :: rest =>
      match getAliased raw "step_id" "stepId" (.str ("step-".toList ++ decimal (index + 1))) with
      | .str rawStepId => do
          let stepId := strip rawStepId
          require (stepIdPattern stepId = true) (.validation (itemPath "steps" index ++
            ".step_id must be 1-".toList ++ decimal maxPlanStepIdChars ++
              " portable identifier characters".toList))
          let title ← boundedText (Dict.get raw "title") (itemPath "steps" index ++ ".title".toList)
            maxPlanStepTitleChars
          let details ← match Dict.get raw "details" with
            | .null => pure none
            | details => (boundedText details (itemPath "steps" index ++ ".details".toList)
                maxPlanStepDetailsChars).map some
          if hseen : stepId ∈ done.steps.map PlanStep.stepId then
            .error (.validation ("duplicate plan step id: ".toList ++ stepId))
          else
            normalizePlanStepsFrom (index + 1) ⟨done.steps ++ [⟨stepId, title, details⟩], by
              rw [List.map_append, List.map_singleton]
              exact List.nodup_append_comm.mp (List.nodup_cons.mpr ⟨hseen, done.distinct⟩)⟩ rest
      | _ => .error (.validation (itemPath "steps" index ++ ".step_id must be a string".toList))
  | _ :: _ => .error (.validation (itemPath "steps" index ++ " must be an object".toList))

def normalizePlanSteps (steps : List Json) : Except PlanError PlanSteps := do
  require (steps ≠ []) (.validation "a plan must contain at least one step".toList)
  require (steps.length ≤ maxPlanSteps) (.validation
    ("a plan may contain at most ".toList ++ decimal maxPlanSteps ++ " steps".toList))
  normalizePlanStepsFrom 0 ⟨[], List.nodup_nil⟩ steps

/-! ### The overlay of a run -/

structure StepState where
  stepId : Str
  title : Str
  status : StepStatus
  reason : Option Str
  deriving DecidableEq, Repr

namespace StepState

def toJson (state : StepState) : Json :=
  .obj ([("step_id".toList, .str state.stepId), ("title".toList, .str state.title),
    ("status".toList, .str state.status.value)] ++
    state.reason.toList.map fun reason => ("reason".toList, .str reason))

/-- `state["status"] = status` and `state.pop("reason", None)`. -/
def enter (status : StepStatus) (state : StepState) : StepState :=
  { state with status := status, reason := none }

end StepState

def initialPlanStepStates (steps : List PlanStep) : List StepState :=
  steps.map fun step => ⟨step.stepId, step.title, .pending, none⟩

def readStatus (raw : Dict) : Except PlanError StepStatus :=
  match Dict.get raw "status" with
  | .str s => demand (StepStatus.ofValue? s) (.invalidStatus (.str s))
  | .arr items => .error (.unhashable (.arr items))
  | .obj fields => .error (.unhashable (.obj fields))
  | value => .error (.invalidStatus value)

def readReason (index : Nat) (status : StepStatus) (raw : Dict) : Except PlanError (Option Str) :=
  match Dict.get raw "reason" with
  | .null => .ok none
  | rawReason => do
      require (status.hasReason = true) (.validation
        "a step reason is valid only for blocked or skipped state".toList)
      let reason ← boundedText rawReason (itemPath "step_states" index ++ ".reason".toList)
        maxPlanStepReasonChars
      pure (some reason)

/-- One round of the loop of `normalize_plan_step_states`. -/
def normalizeStepState (index : Nat) (raw : Json) (step : PlanStep) : Except PlanError StepState :=
  match raw with
  | .obj raw => do
      require (getAliased raw "step_id" "stepId" .null = .str step.stepId) (.validation
        "step_states must preserve revision step order and ids".toList)
      let status ← readStatus raw
      let reason ← readReason index status raw
      pure ⟨step.stepId, step.title, status, reason⟩
  | _ => .error (.validation (itemPath "step_states" index ++ " must be an object".toList))

def normalizeStepStatesFrom (index : Nat) : List Json → List PlanStep → Except PlanError (List StepState)
  | raw :: states, step :: steps => do
      let state ← normalizeStepState index raw step
      let rest ← normalizeStepStatesFrom (index + 1) states steps
      pure (state :: rest)
  | _, _ => .ok []

def normalizePlanStepStates (states : List Json) (revisionSteps : List PlanStep) :
    Except PlanError (List StepState) := do
  require (states.length = revisionSteps.length) (.validation
    "step_states must cover every revision step exactly once".toList)
  normalizeStepStatesFrom 0 states revisionSteps

def enterFirst (stepId : Str) : List StepState → List StepState
  | [] => []
  | state :: rest =>
      if state.stepId = stepId then state.enter .inProgress :: rest
      else state :: enterFirst stepId rest

/-! ### Checkpoints -/

/-- `by_id`: the place of a step, the last one where an id is repeated. -/
def byId (stepId : Str) : List StepState → Option Nat
  | [] => none
  | state :: rest =>
      match byId stepId rest with
      | some i => some (i + 1)
      | none => if state.stepId = stepId then some 0 else none

def checkpointStatus? (stepStatus : Str) : Option StepStatus :=
  (StepStatus.ofValue? stepStatus).filter fun status => status ≠ .pending

def firstOpen (states : List StepState) : Option Str :=
  (states.find? fun state => !state.status.isTerminal).map StepState.stepId

def record (status : StepStatus) (reason : Json) (state : StepState) : Except PlanError StepState :=
  if status.hasReason then do
    let reason ← boundedText reason "reason".toList maxPlanStepReasonChars
    pure { state with status := status, reason := some reason }
  else pure (state.enter status)

def checkpointPlanStepStates (states : List StepState) (stepId : Str) (stepStatus : Str)
    (reason : Json) : Except PlanError (List StepState × Option Str × PlanRunStatus) := do
  let status ← demand (checkpointStatus? stepStatus)
    (.validation ("invalid checkpoint step status: ".toList ++ stepStatus))
  let unknown := PlanError.validation ("unknown plan step id: ".toList ++ stepId)
  let index ← demand (byId stepId states) unknown
  let state ← demand states[index]? unknown
  require (state.status.isTerminal = false) (.validation
    ("terminal plan step cannot transition from ".toList ++ state.status.value))
  let recorded ← record status reason state
  let updated := states.set index recorded
  if status = .blocked then pure (updated, some stepId, .blocked)
  else if status = .inProgress then pure (updated, some stepId, .running)
  else if updated.all fun state => state.status.isTerminal then
    -- the owning task still has its reply to finish before the run is completed
    pure (updated, none, .running)
  else do
    let noCandidate := PlanError.validation
      "next_step_id must identify a non-terminal plan step".toList
    let candidate ← demand (firstOpen updated) noCandidate
    let next ← demand (byId candidate updated) noCandidate
    let candidateState ← demand updated[next]? noCandidate
    require (candidateState.status.isTerminal = false) (.validation
      "next_step_id cannot identify a terminal plan step".toList)
    -- the candidate keeps a reason it has
    pure (updated.set next { candidateState with status := .inProgress }, some candidate, .running)

end OpenStarry.Plans
