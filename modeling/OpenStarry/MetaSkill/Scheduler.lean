import OpenStarry.Lib.TransitionSystem
import OpenStarry.Lib.Substring
import OpenStarry.MetaSkill.Plan
import Mathlib.Data.Finset.Sort
import Mathlib.Data.String.Basic

/-!
# The DAG scheduler

`run_dag` as a step function. A state holds the variables of the main loop, the event queue it
shares with the step tasks, where each task stands and what has been yielded so far. An action is
one uninterrupted stretch of execution: a task runs from one suspension to the next (putting an
item on the unbounded queue does not suspend), and the main loop handles one queue item. The
observers awaited while an item is handled see no other step's variables, so what the tasks do
meanwhile could as well be done before. What a step's `when` expression, its route or its body
decides is left to the action, and so is the order in which a set is iterated.
-/

namespace OpenStarry.MetaSkill

open OpenStarry.Lib

/-! ### Events and results -/

inductive StepState
  | running
  | succeeded
  | skipped
  | failed
  | substituted
  deriving DecidableEq, Repr

inductive Outcome
  | ok
  | failed
  | cancelled
  deriving DecidableEq, Repr

/-- The events a consumer sees. The bodies of the steps forward events of their own: tool cards of
any name, or `other`. -/
inductive AgentEvent
  | toolUseStart (toolUseId toolName : String)
  | toolResult (toolUseId toolName result : String) (isError : Bool)
  | stepState (stepId : String) (state : StepState)
  | preflight (canSkip : Bool)
  | runAnnounced (stepIds : List String)
  | runCompleted (outcome : Outcome) (completed failed recovered skipped : Finset String)
  | other (payload : String)
  deriving DecidableEq

/-- `outputs`: the output of each step that has one. -/
abbrev Outputs := String → Option String

structure MetaResult where
  ok : Bool
  finalText : String := ""
  stepOutputs : Outputs := fun _ => none
  error : Option String := none
  failedStepId : Option String := none
  paused : Bool := false

inductive Yielded
  | event (ev : AgentEvent)
  | result (r : MetaResult)

inductive DoneStatus
  | ok
  | skipped
  deriving DecidableEq, Repr

/-- What a step task puts on the event queue. -/
inductive QueueItem
  | event (ev : AgentEvent)
  | stepDone (text : String) (status : DoneStatus)
  | failoverTriggered (failedStepId substituteStepId error : String)
  | paused (stepId : String)
  | exception (error : String)
  deriving DecidableEq

def metaStepPrefix : String := "meta-step:"

def metaStepName (stepId : String) : String := metaStepPrefix ++ stepId

def metaStepUseId (stepId : String) : String := "meta_step_" ++ stepId

/-- `tool_name.startswith("meta-step:")`. -/
def isMetaStepName (toolName : String) : Bool :=
  metaStepPrefix.toList.isPrefixOf toolName.toList

def startEvent (stepId : String) : AgentEvent :=
  .toolUseStart (metaStepUseId stepId) (metaStepName stepId)

def resultEvent (stepId result : String) (isError : Bool) : AgentEvent :=
  .toolResult (metaStepUseId stepId) (metaStepName stepId) result isError

def outputPreview (text : String) : String :=
  if text.toList.length ≤ 100 then text
  else String.ofList (text.toList.take 80) ++ "… (" ++ toString text.toList.length ++ " chars)"

def durableSafeMarker : String := "[opensquilla-replay:safe-no-paid-submit]"

def durableUnsafeMarker : String := "[opensquilla-replay:paid-submit-may-have-been-accepted]"

def publicStepError (error : String) : String :=
  String.ofList (Text.strip (Text.replace durableUnsafeMarker.toList []
    (Text.replace durableSafeMarker.toList [] error.toList)))

/-! ### State -/

/-- Where the task of a step stands: not created, created but not begun, its card opened, its body
dispatched, or returned. -/
inductive Phase
  | idle
  | created
  | opened
  | dispatched
  | finished
  deriving DecidableEq, Repr

inductive Loop
  | looping
  | failing (failedStepId error : String)
  | pausing
  | ended (result : MetaResult)

structure State where
  outputs : Outputs
  succeeded : Finset String
  failed : Finset String
  recovered : Finset String
  skipped : Finset String
  pendingDeps : String → Finset String
  substituteOnly : Finset String
  unstarted : Finset String
  running : Finset String
  failoverAliases : String → Option String
  queue : List (String × QueueItem)
  seenStarts : Finset String
  phase : String → Phase
  loop : Loop
  yielded : List Yielded
  /-- The ids handed to `dispatch_step_stream`, in order. -/
  dispatched : List String
  /-- What each body that ran to its end returned. -/
  returned : Outputs

inductive Preflight
  | absent
  | passed (canSkip : Bool)
  | required (canSkip : Bool)
  deriving DecidableEq, Repr

/-- The arguments of one run. `preflight` is what the request template of the plan asks for. -/
structure Config where
  plan : MetaPlan
  seedOutputs : Outputs := fun _ => none
  replayFailoverAliases : List (String × String) := []
  maxParallelism : Option Int := none
  preflight : Preflight := .absent

def privateMachineOutputKeys : List String :=
  ["__opensquilla_paid_submission_dispositions_v1__",
    "__opensquilla_paid_submission_receipt_proofs_v1__"]

/-- The caller's seeds without the slots that belong to the scheduler. The scheduler's own values
in those slots are left out of the model: no step id is one of them, and they are stripped from
every public result. -/
def Config.initialOutputs (cfg : Config) : Outputs :=
  fun key => if key ∈ privateMachineOutputKeys then none else cfg.seedOutputs key

def Config.replayPendingPrimaryIds (cfg : Config) : List String :=
  cfg.replayFailoverAliases.map (·.2)

/-- `set(outputs) - replay_pending_primary_ids`, as a test. -/
def Config.reusable (cfg : Config) (key : String) : Bool :=
  (cfg.initialOutputs key).isSome && key ∉ cfg.replayPendingPrimaryIds

def Config.trustedReplayAliases (cfg : Config) (steps : List MetaStep) : List (String × String) :=
  cfg.replayFailoverAliases.filter fun (substituteId, primaryId) =>
    (stepById steps substituteId).isSome && (cfg.initialOutputs primaryId).isSome &&
      (match stepById steps primaryId with
        | some primary => primary.onFailure == substituteId
        | none => substituteId == "") &&
      (cfg.initialOutputs substituteId).isNone

def stepIds (steps : List MetaStep) : Finset String := (steps.map (·.id)).toFinset

def substituteIds (steps : List MetaStep) : Finset String :=
  ((steps.map (·.onFailure)).filter (· ≠ "")).toFinset

/-! ### Starting ready steps -/

/-- `len(running) >= max_parallelism`. -/
def capReached (cap : Option Int) (running : Finset String) : Bool :=
  match cap with
  | some limit => limit ≤ running.card
  | none => false

def State.spawn (s : State) (sid : String) : State :=
  { s with
    unstarted := s.unstarted.erase sid
    running := insert sid s.running
    phase := Function.update s.phase sid .created }

/-- `_spawn_ready` with `order` for `list(unstarted)`. -/
def spawnReady (cap : Option Int) : List String → State → State
  | [], s => s
  | sid :: rest, s =>
      if capReached cap s.running then s
      else if s.pendingDeps sid = ∅ then spawnReady cap rest (s.spawn sid)
      else spawnReady cap rest s

/-- `_spawn_ready` for an order that lists the unstarted set. -/
def respawn (cap : Option Int) (order : List String) (s : State) : Option State :=
  if order.Nodup ∧ order.toFinset = s.unstarted then some (spawnReady cap order s) else none

/-! ### The step tasks -/

def State.put (s : State) (sid : String) (items : List QueueItem) : State :=
  { s with queue := s.queue ++ items.map fun item => (sid, item) }

def State.setPhase (s : State) (sid : String) (phase : Phase) : State :=
  { s with phase := Function.update s.phase sid phase }

/-- The step's `when` expression is false: an empty output and an already closed card. -/
def skipTask (s : State) (sid : String) : State :=
  { (s.setPhase sid .finished).put sid
      [.event (startEvent sid),
        .event (resultEvent sid "skipped: condition evaluated false" false),
        .event (.stepState sid .skipped), .stepDone "" .skipped] with
    outputs := Function.update s.outputs sid (some "") }

def openTask (s : State) (sid : String) : State :=
  (s.setPhase sid .opened).put sid [.event (.stepState sid .running), .event (startEvent sid)]

def finishTask (s : State) (sid text : String) : State :=
  { (s.setPhase sid .finished).put sid
      [.event (resultEvent sid (outputPreview text) false),
        .event (.stepState sid .succeeded), .stepDone text .ok] with
    outputs := Function.update s.outputs sid (some text)
    returned := Function.update s.returned sid (some text) }

/-- The handler of any exception of the body, of the `when` expression or of the route. -/
def failTask (s : State) (step : MetaStep) (error : String) : State :=
  { (s.setPhase step.id .finished).put step.id
      [.event (resultEvent step.id (publicStepError error) true),
        .event (.stepState step.id .failed),
        if step.onFailure ≠ "" then .failoverTriggered step.id step.onFailure error
        else .exception error] with
    failed := insert step.id s.failed }

def pauseTask (s : State) (sid : String) : State :=
  (s.setPhase sid .finished).put sid [.paused sid]

/-- What the `when` expression and the route come to. -/
inductive WhenOutcome
  | proceed
  | skip
  | raised (error : String)
  deriving DecidableEq, Repr

/-- An empty `when` is true and an empty route never raises. -/
def WhenOutcome.possible (step : MetaStep) : WhenOutcome → Bool
  | .proceed => true
  | .skip => step.when ≠ ""
  | .raised _ => step.when ≠ "" || step.route ≠ []

/-! ### The main loop -/

def State.yield (s : State) (events : List AgentEvent) : State :=
  { s with yielded := s.yielded ++ events.map .event }

def State.finish (s : State) (result : MetaResult) : State :=
  { s with loop := .ended result, yielded := s.yielded ++ [.result result] }

def State.discardPending (s : State) (sid : String) : State :=
  { s with pendingDeps := fun id => (s.pendingDeps id).erase sid }

/-- `_yield_completion`. -/
def completionEvent (s : State) (outcome : Outcome) : AgentEvent :=
  .runCompleted outcome s.succeeded (s.failed \ s.recovered) s.recovered s.skipped

/-- `_public_step_outputs`. -/
def publicStepOutputs (s : State) : Outputs :=
  fun key => if key ∈ privateMachineOutputKeys then none else s.outputs key

def closeDone (sid : String) (status : DoneStatus) (s : State) : State :=
  { s with
    running := s.running.erase sid
    skipped := if status = .skipped then insert sid s.skipped else s.skipped
    succeeded := if status = .skipped then s.succeeded else insert sid s.succeeded }

def mirrorAlias (sid text : String) (s : State) : State :=
  match s.failoverAliases sid with
  | some failedId =>
      { s.discardPending failedId with
        outputs := Function.update s.outputs failedId (some text)
        recovered := insert failedId s.recovered }
  | none => s

def releaseUnfired (steps : List MetaStep) (sid : String) (s : State) : State :=
  match stepById steps sid with
  | some step =>
      if sid ∉ s.recovered ∧ step.onFailure ≠ "" ∧ step.onFailure ∈ s.substituteOnly then
        { s.discardPending step.onFailure with
          substituteOnly := s.substituteOnly.erase step.onFailure
          skipped := insert step.onFailure s.skipped }
      else s
  | none => s

def onStepDone (steps : List MetaStep) (sid text : String) (status : DoneStatus)
    (s : State) : State :=
  releaseUnfired steps sid ((mirrorAlias sid text (closeDone sid status s)).discardPending sid)

def onFailover (steps : List MetaStep) (failedId substituteId : String) (s : State) : State :=
  let s := { s with
    running := s.running.erase failedId
    failoverAliases := Function.update s.failoverAliases substituteId (some failedId)
    pendingDeps := Function.update s.pendingDeps substituteId ∅
    substituteOnly := s.substituteOnly.erase substituteId }
  let s := if (stepById steps substituteId).isSome ∧ substituteId ∉ s.running then
      { s with unstarted := insert substituteId s.unstarted }
    else s
  s.put substituteId [.event (.stepState substituteId .substituted)]

def onPaused (stepId : String) (s : State) : State :=
  { s.yield [resultEvent stepId ("paused: awaiting user input (step " ++ stepId ++ ")") false] with
    loop := .pausing }

def onException (sid error : String) (s : State) : State :=
  { s with
    loop := .failing sid error
    seenStarts := s.seenStarts.erase sid
    running := s.running.erase sid }

/-- `_track_yielded`. -/
def trackYielded (sid : String) (ev : AgentEvent) (seen : Finset String) : Finset String :=
  match ev with
  | .toolUseStart _ name => if isMetaStepName name then insert sid seen else seen
  | .toolResult _ name _ _ => if isMetaStepName name then seen.erase sid else seen
  | _ => seen

def onEvent (sid : String) (ev : AgentEvent) (s : State) : State :=
  { s.yield [ev] with seenStarts := trackYielded sid ev s.seenStarts }

/-- One turn of the main loop: the item at the head of the queue is handled. -/
def handle (steps : List MetaStep) (cap : Option Int) (order : List String) (s : State) :
    Option State :=
  match s.loop, s.queue with
  | .looping, (sid, item) :: rest =>
      let s := { s with queue := rest }
      match item with
      | .event ev => some (onEvent sid ev s)
      | .stepDone text status => respawn cap order (onStepDone steps sid text status s)
      | .failoverTriggered failedId substituteId _ =>
          respawn cap order (onFailover steps failedId substituteId s)
      | .paused stepId => some (onPaused stepId s)
      | .exception error => some (onException sid error s)
  | _, _ => none

def queuedResults : List (String × QueueItem) → List (String × AgentEvent)
  | [] => []
  | (sid, .event (.toolResult useId name result isError)) :: rest =>
      if isMetaStepName name then
        (sid, .toolResult useId name result isError) :: queuedResults rest
      else queuedResults rest
  | _ :: rest => queuedResults rest

def cancelledResult (stepId : String) : AgentEvent :=
  resultEvent stepId "cancelled due to sibling step failure" true

def drainQueue (s : State) : State :=
  let drained := (queuedResults s.queue).foldl (fun s (sid, ev) => onEvent sid ev s)
    { s with queue := [] }
  drained.yield ((drained.seenStarts.sort (· ≤ ·)).map cancelledResult)

/-! ### The whole run -/

/-- `non_substitute_order[-1]`, or the last step when every step is a substitute. -/
def lastStepId (steps : List MetaStep) (substituteOnly : Finset String) : String :=
  match ((steps.filter fun step => step.id ∉ substituteOnly).getLast?) with
  | some step => step.id
  | none => (steps.getLast?.map (·.id)).getD ""

inductive Action
  /-- A created task begins: `when`, then the route. -/
  | evaluate (sid : String) (outcome : WhenOutcome)
  | dispatch (sid : String)
  /-- The body forwards an event. -/
  | emit (sid : String) (ev : AgentEvent)
  | finish (sid text : String)
  | raise (sid error : String)
  | pause (sid : String)
  /-- A cancelled task ends without a further item. -/
  | cancelled (sid : String)
  | handle (order : List String)
  | conclude
  | drain
  | endPause
  deriving DecidableEq

def Loop.alive : Loop → Bool
  | .ended _ => false
  | _ => true

def Loop.windingDown : Loop → Bool
  | .failing _ _ => true
  | .pausing => true
  | _ => false

def Loop.begins : Loop → Bool
  | .looping => true
  | .pausing => true
  | _ => false

def evaluate (s : State) (step : MetaStep) : WhenOutcome → State
  | .proceed => openTask s step.id
  | .skip => skipTask s step.id
  | .raised error => failTask s step error

/-- The final results depend on the step that delivers the reply. -/
def step (steps : List MetaStep) (cap : Option Int) (deliverable : String) (s : State) :
    Action → Option State
  | .evaluate sid outcome =>
      match stepById steps sid with
      | some st =>
          if s.loop.begins ∧ s.phase sid = .created ∧ outcome.possible st then
            some (evaluate s st outcome)
          else none
      | none => none
  | .dispatch sid =>
      if s.loop.alive ∧ s.phase sid = .opened then
        some { s.setPhase sid .dispatched with dispatched := s.dispatched ++ [sid] }
      else none
  | .emit sid ev =>
      if s.loop.alive ∧ (s.phase sid = .opened ∨ s.phase sid = .dispatched) then
        some (s.put sid [.event ev])
      else none
  | .finish sid text =>
      if s.loop.alive ∧ s.phase sid = .dispatched then some (finishTask s sid text) else none
  | .raise sid error =>
      match stepById steps sid with
      | some st =>
          if s.loop.alive ∧ (s.phase sid = .opened ∨ s.phase sid = .dispatched) then
            some (failTask s st error)
          else none
      | none => none
  | .pause sid =>
      if s.loop.alive ∧ s.phase sid = .dispatched then some (pauseTask s sid) else none
  | .cancelled sid =>
      if s.loop.windingDown ∧ s.phase sid ≠ .idle ∧ s.phase sid ≠ .finished then
        some (s.setPhase sid .finished)
      else none
  | .handle order => handle steps cap order s
  | .conclude =>
      match s.loop with
      | .looping =>
          if s.running = ∅ ∧ s.queue = [] then
            let outcome := if s.failed \ s.recovered = ∅ then Outcome.ok else Outcome.failed
            some ((s.yield [completionEvent s outcome]).finish
              { ok := true
                finalText := (s.outputs deliverable).getD ""
                stepOutputs := publicStepOutputs s })
          else none
      | _ => none
  | .drain =>
      match s.loop with
      | .failing failedStepId error =>
          if ∀ sid ∈ s.running, s.phase sid = .finished then
            let s := drainQueue s
            some ((s.yield [completionEvent s .failed]).finish
              { ok := false
                stepOutputs := publicStepOutputs s
                error := some error
                failedStepId := some failedStepId })
          else none
      | _ => none
  | .endPause =>
      match s.loop with
      | .pausing =>
          if ∀ sid ∈ s.running, s.phase sid = .finished then
            some ((s.yield [completionEvent s .cancelled]).finish
              { ok := false, stepOutputs := publicStepOutputs s, paused := true })
          else none
      | _ => none

/-- The variables of `run_dag` before the first `_spawn_ready`. -/
def initialState (cfg : Config) (steps : List MetaStep) : State where
  outputs := cfg.initialOutputs
  succeeded := (stepIds steps).filter fun id => cfg.reusable id
  failed := ∅
  recovered := ∅
  skipped := ∅
  pendingDeps := fun id =>
    if id ∈ (cfg.trustedReplayAliases steps).map (·.1) then ∅
    else
      match stepById steps id with
      | some st => (st.dependsOn.filter fun dep => !cfg.reusable dep).toFinset
      | none => ∅
  substituteOnly :=
    substituteIds steps \ ((cfg.trustedReplayAliases steps).map (·.1)).toFinset
  unstarted :=
    (stepIds steps \ (substituteIds steps \
      ((cfg.trustedReplayAliases steps).map (·.1)).toFinset)).filter
        fun id => (cfg.initialOutputs id).isNone
  running := ∅
  failoverAliases := fun id => (cfg.trustedReplayAliases steps).lookup id
  queue := []
  seenStarts := ∅
  phase := fun _ => .idle
  loop := .looping
  yielded := []
  dispatched := []
  returned := fun _ => none

def failedResult (error : String) : MetaResult := { ok := false, error := some error }

def openingEvents (cfg : Config) (steps : List MetaStep) : List AgentEvent :=
  (match cfg.preflight with
    | .passed canSkip => [AgentEvent.preflight canSkip]
    | _ => []) ++
  [.runAnnounced (cfg.plan.steps.map (·.id))] ++
  (steps.filter fun st => cfg.reusable st.id).map fun st => .stepState st.id .succeeded

/-- `run_dag` up to its event loop. -/
def launch (cfg : Config) (steps : List MetaStep) (order : List String) : Option State :=
  let s := initialState cfg steps
  if steps = [] then some (s.finish { ok := true })
  else if steps.any fun st => st.id ∈ privateMachineOutputKeys then
    some (s.finish (failedResult "meta-skill plan uses a reserved runtime step id"))
  else
    match cfg.preflight with
    | .required canSkip => some ((s.yield [.preflight canSkip]).finish { ok := false, paused := true })
    | _ =>
        match respawn cfg.maxParallelism order (s.yield (openingEvents cfg steps)) with
        | none => none
        | some s =>
            if s.running = ∅ then
              some ((s.yield [completionEvent s .failed]).finish
                (failedResult "no runnable steps (all blocked by dependencies)"))
            else some s

/-- The states `run_dag` is entered in, and the single one it ends in when the plan cannot be
ordered. -/
def Starts (cfg : Config) (s : State) : Prop :=
  match topologicalOrder cfg.plan.steps with
  | .ok steps => ∃ order, launch cfg steps order = some s
  | .error _ => s = (initialState cfg []).finish (failedResult "plan topology error")

def Config.steps (cfg : Config) : List MetaStep :=
  match topologicalOrder cfg.plan.steps with
  | .ok steps => steps
  | .error _ => []

def Config.step (cfg : Config) : State → Action → Option State :=
  MetaSkill.step cfg.steps cfg.maxParallelism
    (lastStepId cfg.steps (initialState cfg cfg.steps).substituteOnly)

/-- The runs of `run_dag` on `cfg` whose steps all meet `guard`. -/
abbrev RunsTo (cfg : Config) (guard : State → Action → Prop) : State → Prop :=
  Reach (Starts cfg) cfg.step guard

end OpenStarry.MetaSkill
