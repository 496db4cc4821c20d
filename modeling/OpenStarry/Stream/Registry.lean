import Mathlib.Algebra.Ring.Int.Defs
import OpenStarry.Lib.Decimal
import OpenStarry.Lib.TransitionSystem
import OpenStarry.Lib.Keyed

/-!
# The replay buffers of session streams

Every event of a session gets the next number of its stream. A bounded buffer keeps recent events
for clients that come back with a cursor; next to it a compact view of the running turn is kept, in
which deltas are merged and heartbeats replace each other.
-/

namespace OpenStarry.Stream

open Lib Lib.Text

/-- A value of a payload, as far as the registry looks at it. -/
inductive Value where
  | text (s : Str)
  | flag (b : Bool)
  | number (n : Int)
  | null
  | other (shown : Str) (truthy : Bool)
  deriving DecidableEq, Repr

namespace Value

/-- `str`. -/
def shown : Value → Str
  | text s => s
  | flag b => if b then "True".toList else "False".toList
  | number n => if n < 0 then '-' :: decimal n.natAbs else decimal n.natAbs
  | null => "None".toList
  | other s _ => s

def truthy : Value → Bool
  | text s => s ≠ []
  | flag b => b
  | number n => n ≠ 0
  | null => false
  | other _ b => b

end Value

abbrev Payload := String → Option Value

structure BufferedSessionEvent where
  eventName : String
  payload : Payload
  streamSeq : Nat

/-- `f"{payload.get(field, '')}"`. -/
def fieldText (payload : Payload) (field : String) : Str := ((payload field).map Value.shown).getD []

/-- `str(payload.get(field) or "")`. -/
def fieldOrEmpty (payload : Payload) (field : String) : Str :=
  match payload field with
  | some value => if value.truthy then value.shown else []
  | none => []

def textDelta : String := "session.event.text_delta"
def thinking : String := "session.event.thinking"
def toolUseDelta : String := "session.event.tool_use_delta"
def runHeartbeat : String := "session.event.run_heartbeat"
def providerActivity : String := "session.event.provider_activity"
def compaction : String := "session.event.compaction"
def terminalNames : List String := ["session.event.done", "session.event.error"]

/-- `_is_replay_lossy`. -/
def isReplayLossy (eventName : String) (payload : Payload) : Bool :=
  eventName ∈ [textDelta, runHeartbeat, toolUseDelta] ||
    (payload "heartbeat" == some (.flag true) && eventName ∈ [compaction, providerActivity])

def BufferedSessionEvent.lossy (event : BufferedSessionEvent) : Bool :=
  isReplayLossy event.eventName event.payload

/-! ### The bounded buffer -/

def dropOne (events : List BufferedSessionEvent) : List BufferedSessionEvent :=
  if events.any BufferedSessionEvent.lossy then events.eraseP BufferedSessionEvent.lossy
  else events.tail

def trimLoop (maxEvents : Nat) : Nat → List BufferedSessionEvent → List BufferedSessionEvent
  | 0, events => events
  | fuel + 1, events =>
      if maxEvents < events.length then trimLoop maxEvents fuel (dropOne events) else events

/-- `_trim_session_events`: every round drops one event. -/
def trimSessionEvents (maxEvents : Nat) (events : List BufferedSessionEvent) :
    List BufferedSessionEvent :=
  trimLoop maxEvents events.length events

/-! ### The live turn -/

/-- `_task_id`. -/
def taskId (payload : Payload) : Option Str :=
  match (payload "task_id").or (payload "taskId") with
  | some (.text s) => if s = [] then none else some s
  | _ => none

/-- `_tool_id`. -/
def toolId (payload : Payload) : Str :=
  match ((payload "tool_use_id").or (payload "toolUseId")).or (payload "id") with
  | none | some .null => []
  | some value => value.shown

def deltaFields : List String := ["json_fragment", "jsonFragment", "fragment"]

/-- `_delta_field`. -/
def deltaField (payload : Payload) : String :=
  (deltaFields.find? fun field => (payload field).isSome).getD "json_fragment"

/-- `_replace_compacted_event`. -/
def mergeEvent (field : String) (event existing : BufferedSessionEvent) : BufferedSessionEvent :=
  let text := fieldText existing.payload field ++ fieldText event.payload field
  { existing with payload := Function.update existing.payload field (some (.text text)) }

def normalizeDelta (field : String) (event : BufferedSessionEvent) : BufferedSessionEvent :=
  let incoming := deltaField event.payload
  if incoming = field then event
  else
    let fragment := (event.payload incoming).getD (.text [])
    { event with
      payload := Function.update (Function.update event.payload incoming none) field
        (some fragment) }

def mergeToolDelta (event existing : BufferedSessionEvent) : BufferedSessionEvent :=
  let field := deltaField existing.payload
  mergeEvent field (normalizeDelta field event) existing

def sameToolDelta (event existing : BufferedSessionEvent) : Bool :=
  existing.eventName == event.eventName && toolId existing.payload == toolId event.payload

def sameActivity (event existing : BufferedSessionEvent) : Bool :=
  existing.eventName == event.eventName &&
    fieldOrEmpty existing.payload "activity_id" == fieldOrEmpty event.payload "activity_id" &&
    fieldOrEmpty existing.payload "phase" == fieldOrEmpty event.payload "phase"

/-- The live events with the event merged into one of them or in the place of one of them. -/
def compactInto (events : List BufferedSessionEvent) (event : BufferedSessionEvent) :
    Option (List BufferedSessionEvent) :=
  if event.eventName = thinking then
    updateFirst? (fun existing => existing.eventName == event.eventName) (mergeEvent "text" event)
      events
  else if event.eventName = toolUseDelta then
    updateLast? (sameToolDelta event) (mergeToolDelta event) events
  else if event.eventName = textDelta then
    match events.getLast? with
    | some last =>
        if last.eventName = event.eventName then
          some (events.dropLast ++ [mergeEvent "text" event last])
        else none
    | none => none
  else if event.eventName = runHeartbeat then
    updateLast? (fun existing => existing.eventName == event.eventName) (fun _ => event) events
  else if event.eventName = providerActivity ∧
      event.payload "heartbeat" = some (.flag true) then
    updateLast? (sameActivity event) (fun _ => event) events
  else none

def recordCompact (events : List BufferedSessionEvent) (event : BufferedSessionEvent) :
    List BufferedSessionEvent :=
  (compactInto events event).getD (events ++ [event])

/-- What is kept of a session's running turn; `task` is `none` where no entry is stored. -/
structure LiveTurn where
  task : Option (Option Str)
  events : List BufferedSessionEvent

/-- `_record_live_event`. -/
def LiveTurn.record (live : LiveTurn) (event : BufferedSessionEvent) : LiveTurn :=
  let newTask := taskId event.payload
  let current := live.task.join
  let events := if newTask.isSome ∧ current.isSome ∧ newTask ≠ current then [] else live.events
  let task := if newTask.isSome then some newTask else if live.task.isNone then some none
    else live.task
  if event.eventName ∈ terminalNames then { task := none, events := [] }
  else { task, events := recordCompact events event }

/-! ### The registry -/

structure Registry where
  maxEventsPerSession : Nat
  streamGeneration : String
  seqBySession : String → Nat
  eventsBySession : String → List BufferedSessionEvent
  liveBySession : String → LiveTurn

def Registry.fresh (maxEvents : Nat) (generation : String) : Registry :=
  { maxEventsPerSession := maxEvents, streamGeneration := generation
    seqBySession := fun _ => 0, eventsBySession := fun _ => []
    liveBySession := fun _ => { task := none, events := [] } }

def jsMaxSafeInteger : Int := 2 ^ 53 - 1

namespace Registry

variable (registry : Registry) (sessionKey : String)

/-- `promote_legacy_cursor`. -/
def promoteLegacyCursor (since : Option Int) : Registry × Bool :=
  match since with
  | none => (registry, false)
  | some since =>
      if 0 ≤ since ∧ since < jsMaxSafeInteger ∧ (registry.seqBySession sessionKey : Int) < since then
        ({ registry with
          seqBySession := Function.update registry.seqBySession sessionKey since.toNat }, true)
      else (registry, false)

def enriched (payload : Option Payload) (now : Int) : Payload :=
  Function.update (Function.update (Function.update (Function.update
    (payload.getD fun _ => none)
    "session_key" (some (.text sessionKey.toList)))
    "stream_generation" (some (.text registry.streamGeneration.toList)))
    "stream_seq" (some (.number (registry.seqBySession sessionKey + 1))))
    "emitted_at" (some (.number now))

def nextEvent (eventName : String) (payload : Option Payload) (now : Int) : BufferedSessionEvent :=
  { eventName, payload := registry.enriched sessionKey payload now
    streamSeq := registry.seqBySession sessionKey + 1 }

/-- `record`, at the time `now`. -/
def record (eventName : String) (payload : Option Payload) (now : Int) : Registry :=
  let event := registry.nextEvent sessionKey eventName payload now
  { registry with
    seqBySession := Function.update registry.seqBySession sessionKey event.streamSeq
    eventsBySession := Function.update registry.eventsBySession sessionKey
      (trimSessionEvents registry.maxEventsPerSession
        (registry.eventsBySession sessionKey ++ [event]))
    liveBySession := Function.update registry.liveBySession sessionKey
      ((registry.liveBySession sessionKey).record event) }

structure ReplayResult where
  streamGeneration : String
  currentStreamSeq : Nat
  replayComplete : Bool
  events : List BufferedSessionEvent
  gapReason : Option String

/-- `replay`. -/
def replay (since : Option Int) (sinceGeneration : Option String) : ReplayResult :=
  let current := registry.seqBySession sessionKey
  let result (complete : Bool) (events : List BufferedSessionEvent) (gapReason : Option String) :
      ReplayResult :=
    { streamGeneration := registry.streamGeneration, currentStreamSeq := current
      replayComplete := complete, events, gapReason }
  if sinceGeneration.any (· ≠ registry.streamGeneration) then
    result false [] (some "stream_generation_changed")
  else
    match since with
    | none => result true [] none
    | some since =>
        if current = 0 then
          result (since = 0) [] (if since = 0 then none else some "stream_buffer_reset")
        else if (current : Int) < since then result false [] (some "cursor_ahead_of_stream")
        else if since = current then result true [] none
        else
          match registry.eventsBySession sessionKey with
          | [] => result false [] (some "stream_buffer_empty")
          | first :: rest =>
              let complete := (first.streamSeq : Int) - 1 ≤ since
              result complete ((first :: rest).filter fun event => since < event.streamSeq)
                (if complete then none else some "buffer_window_missed")

structure LiveTurnSnapshot where
  streamGeneration : String
  currentStreamSeq : Nat
  taskId : Option Str
  events : List BufferedSessionEvent

/-- `live_snapshot`. -/
def liveSnapshot : LiveTurnSnapshot :=
  { streamGeneration := registry.streamGeneration
    currentStreamSeq := registry.seqBySession sessionKey
    taskId := (registry.liveBySession sessionKey).task.join
    events := (registry.liveBySession sessionKey).events }

end Registry

/-! ### Runs -/

inductive StreamOp where
  | record (sessionKey eventName : String) (payload : Option Payload) (now : Int)
  | promote (sessionKey : String) (since : Option Int)

/-- A registry and, for each session, every event it has recorded. -/
structure Traced where
  registry : Registry
  recorded : String → List BufferedSessionEvent

def Traced.start (maxEvents : Nat) (generation : String) : Traced :=
  { registry := .fresh maxEvents generation, recorded := fun _ => [] }

def Traced.step (t : Traced) : StreamOp → Traced
  | .record sessionKey eventName payload now =>
      { registry := t.registry.record sessionKey eventName payload now
        recorded := Function.update t.recorded sessionKey
          (t.recorded sessionKey ++ [t.registry.nextEvent sessionKey eventName payload now]) }
  | .promote sessionKey since =>
      { t with registry := (t.registry.promoteLegacyCursor sessionKey since).1 }

def Reached (t : Traced) : Prop :=
  Reach (fun t => ∃ maxEvents generation, 1 ≤ maxEvents ∧ t = Traced.start maxEvents generation)
    (fun t op => some (t.step op)) anyStep t

end OpenStarry.Stream
