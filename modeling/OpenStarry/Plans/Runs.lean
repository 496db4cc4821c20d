import Mathlib.Data.Char
import Mathlib.Data.List.Lex
import OpenStarry.Lib.Table
import OpenStarry.Plans.Steps
import OpenStarry.Session.Keys

/-!
# Plan runs

The tables of plan revisions and plan runs, and the transactions on them. A transaction that raises
leaves the tables as they were. `now` is the clock reading a transaction makes.
-/

namespace OpenStarry.Plans

open Lib Text Session

/-- The columns of a session that plan runs depend on. -/
structure PlanSession where
  sessionId : Str
  epoch : Int
  activePlanRevisionId : Option Str

/-- A revision without its id; `Steps` is how its steps are given. -/
structure PlanRevisionRecord (Steps : Type) where
  planId : Str
  parentRevisionId : Option Str
  generation : Int
  sourceSessionKey : Str
  sourceSessionId : Str
  sourceEpoch : Int
  sourceMessageId : Option Str
  title : Str
  markdown : Str
  steps : Steps
  contentHash : Str
  createdAt : Int

/-- A run without its id; `Overlay` is how its step states are given. -/
structure PlanRunRecord (Overlay : Type) where
  sessionKey : Str
  sessionId : Str
  sessionEpoch : Int
  planRevisionId : Str
  supersedesRunId : Option Str
  driverKind : Str
  driverId : Option Str
  status : PlanRunStatus
  stepStates : Overlay
  currentStepId : Option Str
  stateRevision : Int
  activeTaskId : Option Str
  pauseReason : Option Str
  terminalReason : Option Str
  createdAt : Int
  updatedAt : Int
  startedAt : Option Int
  finishedAt : Option Int

abbrev PlanRevision := PlanRevisionRecord PlanSteps

abbrev PlanRun := PlanRunRecord (List StepState)

/-- `idx_plan_runs_active_session`. -/
def PlanRun.activeSession (run : PlanRun) : Option Str :=
  if run.status.isActive then some run.sessionKey else none

structure PlanStore where
  sessions : Str → Option PlanSession
  revisions : Table Str PlanRevision
  runs : IndexedTable Str PlanRun Str PlanRun.activeSession

/-! ### Rows -/

namespace PlanRun

def supersede (reason : Str) (now : Int) (run : PlanRun) : PlanRun :=
  { run with
    status := .superseded
    stateRevision := run.stateRevision + 1
    activeTaskId := none
    terminalReason := some reason
    updatedAt := now
    finishedAt := some now }

/-- `bool(states) and all(...)`: nothing is left to do but to deliver. -/
def deliveryReady (run : PlanRun) : Bool :=
  decide (run.stepStates ≠ []) && run.stepStates.all fun state => state.status.isTerminal

def complete (now : Int) (run : PlanRun) : PlanRun :=
  { run with
    status := .completed
    stateRevision := run.stateRevision + 1
    activeTaskId := none
    pauseReason := none
    terminalReason := none
    updatedAt := now
    finishedAt := some now }

end PlanRun

namespace PlanStore

variable (runId : Str) (expectedStateRevision now : Int) (db : PlanStore)

def changed : PlanError := .runConflict "plan run state changed before the update".toList

/-- `UPDATE plan_runs SET … WHERE …`. -/
def update (condition : Str → PlanRun → Bool) (f : PlanRun → PlanRun) : Except PlanError PlanStore :=
  (demand (db.runs.update? condition f) .integrity).map fun runs => { db with runs }

def returned (db : PlanStore) : Except PlanError (PlanRun × PlanStore) :=
  (demand (db.runs.get? runId) .assertion).map fun run => (run, db)

def write (condition : PlanRun → Bool) (f : PlanRun → PlanRun) : Except PlanError (PlanRun × PlanStore) := do
  let after ← db.update (Table.atKey runId condition) f
  require (db.runs.rowcount (Table.atKey runId condition) ≠ 0) changed
  returned runId after

/-- `_load_plan_run_for_cas`. -/
def loadPlanRunForCas : Except PlanError PlanRun := do
  let run ← demand (db.runs.get? runId) (.keyError ("Plan run not found: ".toList ++ runId))
  require (run.stateRevision = expectedStateRevision) changed
  require ((db.sessions run.sessionKey).any fun session =>
      decide (session.sessionId = run.sessionId) && decide (session.epoch = run.sessionEpoch))
    (.runConflict "plan run belongs to a stale session epoch".toList)
  pure run

def isCurrentPlan (run : PlanRun) : Bool :=
  (db.sessions run.sessionKey).any fun session =>
    decide (session.sessionId = run.sessionId) && decide (session.epoch = run.sessionEpoch) &&
      decide (session.activePlanRevisionId = some run.planRevisionId)

def atRevision (run : PlanRun) : Bool := run.stateRevision = expectedStateRevision

def cannot (action : String) (status : PlanRunStatus) (outcome : String) : PlanError :=
  .runConflict (action.toList ++ status.value ++ outcome.toList)

def otherTask : PlanError := .runConflict "plan run is owned by another task".toList

def otherDriver : PlanError :=
  .runConflict "plan run is owned by a different execution driver".toList

/-! ### Transactions on one run -/

def markPlanRunRunning (activeTaskId : Str) : Except PlanError (PlanRun × PlanStore) := do
  require (activeTaskId ≠ []) (.validation "active_task_id is required".toList)
  let run ← db.loadPlanRunForCas runId expectedStateRevision
  if !db.isCurrentPlan run then
    let after ← db.update (Table.atKey runId (atRevision expectedStateRevision))
      (PlanRun.supersede "stale_plan_revision".toList now)
    returned runId after
  else
    require (run.status = .queued ∨ run.status = .paused ∨ run.status = .blocked)
      (cannot "cannot mark a " run.status " plan run as running")
    require (run.activeTaskId = none ∨ run.activeTaskId = some activeTaskId) otherTask
    let currentStepId := run.currentStepId.or (firstOpen run.stepStates)
    require (currentStepId ≠ none ∨ run.deliveryReady = true)
      (.runConflict "plan run has no resumable execution step".toList)
    let states := match currentStepId with
      | some stepId => enterFirst stepId run.stepStates
      | none => run.stepStates
    db.write runId (atRevision expectedStateRevision) fun row =>
      { row with
        status := .running
        stepStates := states
        currentStepId := currentStepId
        stateRevision := row.stateRevision + 1
        activeTaskId := some activeTaskId
        pauseReason := none
        terminalReason := none
        startedAt := some (row.startedAt.getD now)
        updatedAt := now }

def checkpointPlanRun (stepId stepStatus : Str) (expectedActiveTaskId : Option Str) (reason : Json) :
    Except PlanError (PlanRun × PlanStore) := do
  let run ← db.loadPlanRunForCas runId expectedStateRevision
  require (run.status = .running) (cannot "cannot checkpoint a " run.status " plan run")
  require (expectedActiveTaskId = none ∨ run.activeTaskId = expectedActiveTaskId) otherTask
  require (run.currentStepId = some stepId)
    (.runConflict "only the current plan step may be checkpointed".toList)
  let (states, currentStepId, status) ←
    checkpointPlanStepStates run.stepStates stepId stepStatus reason
  db.write runId (atRevision expectedStateRevision) fun row =>
    { row with
      status := status
      stepStates := states
      currentStepId := currentStepId
      stateRevision := row.stateRevision + 1
      activeTaskId := if status = .blocked then none else run.activeTaskId
      pauseReason := if status = .blocked then reason.str? else none
      terminalReason := none
      updatedAt := now
      finishedAt := none }

def completePlanRun (expectedActiveTaskId : Str) : Except PlanError (PlanRun × PlanStore) := do
  require (expectedActiveTaskId ≠ []) (.validation "expected_active_task_id is required".toList)
  let run ← db.loadPlanRunForCas runId expectedStateRevision
  require (run.status = .running) (cannot "cannot complete a " run.status " plan run")
  require (run.activeTaskId = some expectedActiveTaskId) otherTask
  require (run.currentStepId = none)
    (.runConflict "plan run cannot complete before its final checkpoint".toList)
  require (run.deliveryReady = true)
    (.runConflict "plan run cannot complete with unfinished steps".toList)
  db.write runId
    (fun row => atRevision expectedStateRevision row && row.status = .running &&
      row.currentStepId = none && row.activeTaskId = some expectedActiveTaskId)
    (PlanRun.complete now)

def reopenCompletedPlanRun (reason : Str) : Except PlanError (PlanRun × PlanStore) := do
  require (strip reason ≠ []) (.validation "reopen reason is required".toList)
  let run ← db.loadPlanRunForCas runId expectedStateRevision
  require (run.status = .completed) (cannot "cannot reopen a " run.status " plan run")
  match run.stepStates with
  | [] => .error (.runConflict "plan run has no steps to reopen".toList)
  | first :: rest =>
      db.write runId (atRevision expectedStateRevision) fun row =>
        { row with
          status := .paused
          stepStates := first.enter .inProgress :: rest
          currentStepId := some first.stepId
          stateRevision := row.stateRevision + 1
          activeTaskId := none
          pauseReason := some (strip reason)
          terminalReason := none
          finishedAt := none
          updatedAt := now }

def pausePlanRun (reason : Str)
    (expectedActiveTaskId expectedDriverKind expectedDriverId : Option Str) : Except PlanError (PlanRun × PlanStore) := do
  require (strip reason ≠ []) (.validation "pause reason is required".toList)
  let run ← db.loadPlanRunForCas runId expectedStateRevision
  require (run.status = .queued ∨ run.status = .running ∨ run.status = .blocked)
    (cannot "cannot pause a " run.status " plan run")
  require (expectedActiveTaskId = none ∨ run.activeTaskId = expectedActiveTaskId) otherTask
  require (expectedDriverKind = none ∨ expectedDriverKind = some run.driverKind) otherDriver
  require (expectedDriverId = none ∨ run.driverId = expectedDriverId) otherDriver
  db.write runId (atRevision expectedStateRevision) fun row =>
    { row with
      status := .paused
      stateRevision := row.stateRevision + 1
      activeTaskId := none
      pauseReason := some (strip reason)
      updatedAt := now }

def cancelPlanRun (reason : Str) (expectedActiveTaskId : Option Str) : Except PlanError (PlanRun × PlanStore) := do
  require (strip reason ≠ []) (.validation "cancel reason is required".toList)
  let run ← db.loadPlanRunForCas runId expectedStateRevision
  require (run.status.isActive = true) (cannot "cannot cancel a " run.status " plan run")
  require (expectedActiveTaskId = none ∨ run.activeTaskId = expectedActiveTaskId) otherTask
  db.write runId (atRevision expectedStateRevision) fun row =>
    { row with
      status := .cancelled
      stateRevision := row.stateRevision + 1
      activeTaskId := none
      terminalReason := some (strip reason)
      updatedAt := now
      finishedAt := some now }

/-- `supersede_active_plan_runs`, and what a reset does to the runs of its session. -/
def supersedeActivePlanRuns (sessionKey reason : Str) : Except PlanError PlanStore :=
  db.update (fun _ row => row.sessionKey = sessionKey && row.status.isActive)
    (PlanRun.supersede reason now)

/-! ### Starting a run -/

def boundTask : Option Str → Except PlanError (Option Str)
  | none => .ok none
  | some task => (boundedText (.str task) "active_task_id".toList 256).map some

def firstStates (stepStates : List Json) (steps : List PlanStep) :
    Except PlanError (List StepState) :=
  if stepStates ≠ [] then normalizePlanStepStates stepStates steps
  else .ok (initialPlanStepStates steps)

/-- `prepare_plan_run`. -/
def preparePlanRun (run : PlanRunRecord (List Json)) (revisionId : Str) (revision : PlanRevision) :
    Except PlanError PlanRun := do
  let invalid (message : String) : PlanError := .validation message.toList
  require (run.status = .queued) (invalid "a new plan run must start in queued status")
  require (run.planRevisionId = revisionId)
    (invalid "plan run revision does not match the selected revision")
  require (runId ≠ [] ∧ run.sessionId ≠ []) (invalid "run_id and session_id are required")
  require (0 ≤ run.sessionEpoch) (invalid "session_epoch must be non-negative")
  require (run.driverKind = "manual".toList ∨ run.driverKind = "goal".toList)
    (invalid "driver_kind must be manual or goal")
  require (run.driverKind = "goal".toList → ∃ driver, run.driverId = some driver ∧ driver ≠ [])
    (invalid "goal-driven runs require driver_id")
  require (run.stateRevision = 0) (invalid "a new plan run must start at state_revision 0")
  let activeTaskId ← boundTask run.activeTaskId
  let states ← firstStates run.stepStates revision.steps.steps
  require (∀ state ∈ states, state.status = .pending)
    (invalid "a new plan run must start with pending steps")
  pure
    { sessionKey := run.sessionKey, sessionId := run.sessionId, sessionEpoch := run.sessionEpoch
      planRevisionId := run.planRevisionId, supersedesRunId := run.supersedesRunId
      driverKind := run.driverKind, driverId := run.driverId, status := run.status
      stepStates := states, currentStepId := none, stateRevision := run.stateRevision
      activeTaskId := activeTaskId, pauseReason := none, terminalReason := none
      createdAt := run.createdAt, updatedAt := run.updatedAt, startedAt := none, finishedAt := none }

/-- `_start_plan_run_on_conn` for a run that is there already: a task is attached to it. -/
def attachTask (existing : PlanRun) (run : PlanRunRecord (List Json)) : Except PlanError (PlanRun × PlanStore) := do
  require (existing.sessionKey = run.sessionKey ∧ existing.sessionId = run.sessionId ∧
      existing.sessionEpoch = run.sessionEpoch ∧ existing.planRevisionId = run.planRevisionId)
    (.runConflict "run_id was already used for a different plan run".toList)
  require (existing.driverKind = run.driverKind ∧ existing.driverId = run.driverId)
    (.runConflict "plan run is owned by a different execution driver".toList)
  let incomingTaskId := strip (run.activeTaskId.getD [])
  if incomingTaskId = [] then pure (existing, db)
  else if existing.status = .paused ∨ existing.status = .blocked then do
    require (run.stateRevision = existing.stateRevision)
      (.runConflict "the paused plan run changed before it was queued".toList)
    db.write runId (atRevision existing.stateRevision) fun row =>
      { row with
        status := .queued
        stateRevision := row.stateRevision + 1
        activeTaskId := some incomingTaskId
        pauseReason := none
        terminalReason := none
        updatedAt := now }
  else if existing.status = .queued ∧ existing.activeTaskId = some incomingTaskId then
    pure (existing, db)
  else .error (cannot "cannot attach a task to a " existing.status " plan run")

def activeRun (sessionKey : Str) : Option (Str × PlanRun) :=
  db.runs.entries.find? fun entry => entry.2.sessionKey = sessionKey && entry.2.status.isActive

/-- `MAX(created_at)` over the runs of a session. -/
def newestCreatedAt (sessionKey : Str) : Option Int :=
  ((db.runs.entries.filter fun entry => entry.2.sessionKey = sessionKey).map
    fun entry => entry.2.createdAt).max?

def sessionFor (sessionKey sessionId : Str) (epoch : Int) : Except PlanError PlanSession := do
  let session ← demand (db.sessions sessionKey) (.keyError ("Session not found: ".toList ++ sessionKey))
  require (session.sessionId = sessionId ∧ session.epoch = epoch)
    (.staleEpoch sessionKey epoch (some session.epoch))
  pure session

/-- A queued or running run is not displaced, nor is one of another driver or of a goal. -/
def requireReplaceable (active : PlanRun) (prepared : PlanRun) : Except PlanError Unit := do
  require (active.status ≠ .queued ∧ active.status ≠ .running)
    (.runConflict "an implementation task is already queued or running".toList)
  require (active.driverKind = prepared.driverKind ∧
      active.driverId.filter (fun driver => driver ≠ []) = prepared.driverId)
    (.runConflict "the active plan run is owned by a different execution driver".toList)
  require (active.driverKind ≠ "goal".toList)
    (.runConflict "an active Goal plan run must be resumed by its existing run_id".toList)

def displace (prepared : PlanRun) : Option (Str × PlanRun) → Except PlanError PlanStore
  | none => .ok db
  | some active => do
      requireReplaceable active.2 prepared
      db.update (Table.atKey active.1 fun _ => true)
        (PlanRun.supersede "superseded_by_new_run".toList now)

/-- `start_plan_run`. -/
def startPlanRun (run : PlanRunRecord (List Json)) : Except PlanError (PlanRun × PlanStore) := do
  match db.runs.get? runId with
  | some existing => db.attachTask runId now existing run
  | none => do
      let session ← db.sessionFor run.sessionKey run.sessionId run.sessionEpoch
      require (session.activePlanRevisionId = some run.planRevisionId)
        (.conflict "only the current plan revision can be implemented".toList)
      let revision ← demand (db.revisions.get? run.planRevisionId)
        (.conflict "plan revision no longer exists".toList)
      let prepared ← preparePlanRun runId run run.planRevisionId revision
      let active := db.activeRun run.sessionKey
      require (prepared.supersedesRunId = none ∨ prepared.supersedesRunId = active.map Prod.fst)
        (.runConflict "the active run changed before implementation".toList)
      let timestamp := max (max prepared.createdAt now)
        ((db.newestCreatedAt run.sessionKey).getD (-1) + 1)
      let displaced ← db.displace timestamp prepared active
      let started : PlanRun :=
        { prepared with
          supersedesRunId := active.map Prod.fst, createdAt := timestamp, updatedAt := timestamp }
      let runs ← demand (displaced.runs.insert? runId started) .integrity
      pure (started, { displaced with runs := runs })

/-! ### Revisions -/

section Revisions

variable (planContentHash : Str → Str → List PlanStep → Str)

/-- `prepare_plan_revision`. -/
def preparePlanRevision (revisionId : Str) (revision : PlanRevisionRecord (List Json)) :
    Except PlanError PlanRevision := do
  let title ← boundedText (.str revision.title) "title".toList maxPlanTitleChars
  let markdown ← boundedText (.str revision.markdown) "markdown".toList maxPlanMarkdownChars
  let steps ← normalizePlanSteps revision.steps
  let expectedHash := planContentHash title markdown steps.steps
  require (revision.contentHash = [] ∨ revision.contentHash = expectedHash)
    (.validation "content_hash does not match the canonical plan body".toList)
  require (1 ≤ revision.generation) (.validation "generation must be positive".toList)
  require (revisionId ≠ [] ∧ revision.planId ≠ [])
    (.validation "revision_id and plan_id are required".toList)
  require (revision.sourceSessionId ≠ []) (.validation "source_session_id is required".toList)
  require (0 ≤ revision.sourceEpoch) (.validation "source_epoch must be non-negative".toList)
  pure
    { planId := revision.planId, parentRevisionId := revision.parentRevisionId
      generation := revision.generation, sourceSessionKey := revision.sourceSessionKey
      sourceSessionId := revision.sourceSessionId, sourceEpoch := revision.sourceEpoch
      sourceMessageId := revision.sourceMessageId, title := title, markdown := markdown
      steps := steps, contentHash := expectedHash, createdAt := revision.createdAt }

/-- `_find_idempotent_plan_revision_on_conn`, before the comparison. -/
def sameRevision (revisionId : Str) (revision : PlanRevision) : Option PlanRevision :=
  (db.revisions.get? revisionId).or <|
    match revision.sourceMessageId with
    | none => none
    | some [] => none
    | some message => (db.revisions.entries.find? fun entry =>
        entry.2.sourceSessionId = revision.sourceSessionId &&
          entry.2.sourceMessageId = some message).map Prod.snd

def planGeneration (revision : PlanRevision) : Option (Str × Int) :=
  some (revision.planId, revision.generation)

def sourceMessage (revision : PlanRevision) : Option (Str × Str) :=
  revision.sourceMessageId.map fun message => (revision.sourceSessionId, message)

/-- A revision follows the one that is replaced. -/
def requireLineage (expectedParentRevisionId : Option Str) (revision : PlanRevision) :
    Except PlanError Unit :=
  match expectedParentRevisionId with
  | none => require (revision.generation = 1)
      (.validation "an initial plan revision must use generation 1".toList)
  | some parentId => do
      let parent ← demand (db.revisions.get? parentId)
        (.conflict "parent plan revision no longer exists".toList)
      require (revision.planId = parent.planId) (.validation "a replan must preserve plan_id".toList)
      require (revision.generation = parent.generation + 1)
        (.validation "a replan generation must immediately follow its parent".toList)

/-- `create_plan_revision`. -/
def createPlanRevision (revisionId : Str) (revision : PlanRevisionRecord (List Json))
    (expectedParentRevisionId : Option Str) : Except PlanError (PlanRevision × PlanStore) := do
  let revision ← preparePlanRevision planContentHash revisionId revision
  match db.sameRevision revisionId revision with
  | some existing => do
      require (existing.contentHash = revision.contentHash ∧
          existing.parentRevisionId = revision.parentRevisionId ∧
          existing.sourceSessionKey = revision.sourceSessionKey ∧
          existing.sourceSessionId = revision.sourceSessionId ∧
          existing.sourceEpoch = revision.sourceEpoch)
        (.conflict "revision identity was already used for different plan content".toList)
      pure (existing, db)
  | none => do
      let session ← db.sessionFor revision.sourceSessionKey revision.sourceSessionId
        revision.sourceEpoch
      require (session.activePlanRevisionId = expectedParentRevisionId)
        (.conflict "active plan revision changed before the revision was committed".toList)
      require (revision.parentRevisionId = expectedParentRevisionId)
        (.validation "revision parent must match expected_parent_revision_id".toList)
      let active := db.activeRun revision.sourceSessionKey
      require (∀ entry ∈ active, entry.2.status ≠ .queued ∧ entry.2.status ≠ .running)
        (.runConflict "cannot replace a plan while its implementation task is active".toList)
      db.requireLineage expectedParentRevisionId revision
      let revisions ← demand (db.revisions.insert? revisionId revision) .integrity
      require (revisions.Unique planGeneration ∧ revisions.Unique sourceMessage) .integrity
      let activated : PlanStore :=
        { db with
          revisions := revisions
          sessions := Function.update db.sessions revision.sourceSessionKey
            (some { session with activePlanRevisionId := some revisionId }) }
      match active with
      | none => pure (revision, activated)
      | some (activeId, _) => do
          let after ← activated.update (Table.atKey activeId fun _ => true)
            (PlanRun.supersede "superseded_by_new_revision".toList revision.createdAt)
          pure (revision, after)

end Revisions

/-! ### Restart recovery -/

structure TaskEnd where
  status : AgentTaskStatus
  terminalReason : Option Str

variable (tasks : Str → Option TaskEnd)

def abandonedByRestart (task : Str) : Bool :=
  (tasks task).any fun ended =>
    ended.status = .abandoned && ended.terminalReason = some "process_restart".toList

def releaseAbandonedRuns : Except PlanError PlanStore :=
  db.update
    (fun _ row => (row.status = .queued || row.status = .running) &&
      row.activeTaskId.any (abandonedByRestart tasks))
    fun row =>
      { row with
        status := .paused
        stateRevision := row.stateRevision + 1
        activeTaskId := none
        pauseReason := some "process_restart".toList
        terminalReason := some "process_restart".toList
        updatedAt := now
        finishedAt := none }

def turnFinished (driverKind : Str) (owner : AgentTaskStatus) : Str :=
  if owner = .succeeded then
    if driverKind = "manual".toList then "manual_turn_finished".toList
    else "goal_turn_finished".toList
  else driverKind ++ "_turn_".toList ++ owner.value

/-- One round of the loop over the runs that are left, on a run as it was selected. -/
def reconcile (db : PlanStore) (selected : Str × PlanRun) : Except PlanError PlanStore :=
  let row := selected.2
  let asSelected (condition : PlanRun → Bool) := Table.atKey selected.1 fun current =>
    current.stateRevision = row.stateRevision && current.activeTaskId = row.activeTaskId &&
      condition current
  match row.activeTaskId.bind tasks with
  | none => db.update (asSelected fun current => current.status = row.status) fun current =>
      { current with
        status := .paused
        stateRevision := current.stateRevision + 1
        activeTaskId := none
        pauseReason := some "orphaned_plan_run_owner".toList
        terminalReason := some "orphaned_plan_run_owner".toList
        updatedAt := now
        finishedAt := none }
  | some owner =>
      if owner.status.isLive then .ok db
      else if row.status = .queued then
        db.update (asSelected fun current => current.status = .queued) fun current =>
          { current with
            status := .cancelled
            stateRevision := current.stateRevision + 1
            activeTaskId := none
            pauseReason := none
            terminalReason := some "implementation_turn_ended_before_start".toList
            updatedAt := now
            finishedAt := some now }
      else if owner.status = .succeeded ∧ row.currentStepId = none ∧ row.deliveryReady = true then
        db.update (asSelected fun current => current.status = .running && current.currentStepId = none)
          (PlanRun.complete now)
      else
        db.update (asSelected fun current => current.status = .running) fun current =>
          { current with
            status := .paused
            stateRevision := current.stateRevision + 1
            activeTaskId := none
            pauseReason := some (turnFinished row.driverKind owner.status)
            updatedAt := now
            finishedAt := none }

def unsettled : List (Str × PlanRun) :=
  (db.runs.entries.filter fun entry => entry.2.status = .queued || entry.2.status = .running).mergeSort
    fun a b => decide (a.2.createdAt < b.2.createdAt) ||
      (decide (a.2.createdAt = b.2.createdAt) && decide (a.1 ≤ b.1))

/-- What `mark_abandoned_agent_tasks` does to the runs; `tasks` is the task table it leaves. -/
def recoverPlanRuns : Except PlanError PlanStore := do
  let released ← db.releaseAbandonedRuns now tasks
  released.unsettled.foldlM (reconcile now tasks) released

end PlanStore

/-! ### Operations -/

/-- `sessions` is any change that the rest of the program makes to the sessions. -/
inductive Operation where
  | sessions (after : Str → Option PlanSession)
  | createRevision (revisionId : Str) (revision : PlanRevisionRecord (List Json))
      (expectedParentRevisionId : Option Str)
  | start (runId : Str) (run : PlanRunRecord (List Json)) (now : Int)
  | supersedeActive (sessionKey reason : Str) (now : Int)
  | markRunning (runId : Str) (expectedStateRevision : Int) (activeTaskId : Str) (now : Int)
  | checkpoint (runId : Str) (expectedStateRevision : Int) (stepId stepStatus : Str)
      (expectedActiveTaskId : Option Str) (reason : Json) (now : Int)
  | complete (runId : Str) (expectedStateRevision : Int) (expectedActiveTaskId : Str) (now : Int)
  | reopen (runId : Str) (expectedStateRevision : Int) (reason : Str) (now : Int)
  | pause (runId : Str) (expectedStateRevision : Int) (reason : Str)
      (expectedActiveTaskId expectedDriverKind expectedDriverId : Option Str) (now : Int)
  | cancel (runId : Str) (expectedStateRevision : Int) (reason : Str)
      (expectedActiveTaskId : Option Str) (now : Int)
  | restart (tasks : Str → Option PlanStore.TaskEnd) (now : Int)

section Operations

variable (planContentHash : Str → Str → List PlanStep → Str)

/-- The tables an operation commits. -/
def perform (op : Operation) (db : PlanStore) : Except PlanError PlanStore :=
  match op with
  | .sessions after => .ok { db with sessions := after }
  | .createRevision revisionId revision parent =>
      (db.createPlanRevision planContentHash revisionId revision parent).map Prod.snd
  | .start runId run now => (db.startPlanRun runId now run).map Prod.snd
  | .supersedeActive sessionKey reason now => db.supersedeActivePlanRuns now sessionKey reason
  | .markRunning runId expected task now =>
      (db.markPlanRunRunning runId expected now task).map Prod.snd
  | .checkpoint runId expected stepId stepStatus task reason now =>
      (db.checkpointPlanRun runId expected now stepId stepStatus task reason).map Prod.snd
  | .complete runId expected task now => (db.completePlanRun runId expected now task).map Prod.snd
  | .reopen runId expected reason now =>
      (db.reopenCompletedPlanRun runId expected now reason).map Prod.snd
  | .pause runId expected reason task driverKind driverId now =>
      (db.pausePlanRun runId expected now reason task driverKind driverId).map Prod.snd
  | .cancel runId expected reason task now =>
      (db.cancelPlanRun runId expected now reason task).map Prod.snd
  | .restart tasks now => db.recoverPlanRuns now tasks

def step (db : PlanStore) (op : Operation) : Option PlanStore :=
  match perform planContentHash op db with
  | .ok after => some after
  | .error _ => some db

end Operations

def initial (db : PlanStore) : Prop := db.revisions = Table.empty ∧ db.runs = IndexedTable.empty

end OpenStarry.Plans
