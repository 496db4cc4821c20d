import OpenStarry.Lib.Dict

/-!
# One turn of several messages

What a debounced batch hands to its session: the contents joined, every attachment, and the routing
metadata of the first message with the native identity of the whole batch.
-/

namespace OpenStarry.Debounce

open Lib Text

structure IncomingMessage where
  senderId : Str
  channelId : Str
  content : Str
  attachments : List Json := []
  metadata : Dict := []
  provenance : Json := .obj []

structure Combined where
  content : Str
  attachments : List Json
  message : IncomingMessage
  sourceMessages : List IncomingMessage
  coalescedCount : Nat

def aliases : List String :=
  ["native_message_id", "message_id", "msg_id", "event_id", "activity_id", "update_id", "ts"]

section

-- `str` of a metadata value
variable (str : Json → Str)

def nativeIdAs (message : IncomingMessage) (name : String) : Option Str :=
  match message.metadata.get name with
  | .null => none
  | value =>
      if strip (str value) = [] then none else some (name.toList ++ ':' :: strip (str value))

def nativeId (message : IncomingMessage) : Option Str :=
  aliases.findSome? (nativeIdAs str message)

def nativeIds (buffer : List IncomingMessage) : List Str := buffer.filterMap (nativeId str)

def batchMetadata (first : IncomingMessage) (buffer : List IncomingMessage) : Dict :=
  if (nativeIds str buffer).length = buffer.length then
    first.metadata.set "_opensquilla_debounce_native_message_ids"
      (.arr ((nativeIds str buffer).map .str))
  else first.metadata.set "_opensquilla_debounce_native_ids_incomplete" (.bool true)

def coalesce (first : IncomingMessage) (buffer : List IncomingMessage) : Combined :=
  let content := List.intercalate ['\n'] (buffer.map (·.content))
  let attachments := buffer.flatMap (·.attachments)
  { content, attachments
    message :=
      { senderId := first.senderId
        channelId := first.channelId
        content, attachments
        metadata := batchMetadata str first buffer
        provenance := first.provenance }
    sourceMessages := buffer
    coalescedCount := buffer.length }

end

/-!
## The debounce coordinator

Messages of a session are buffered until its timer fires. Each session in the pending table has a
state object with a task of its own; callers of `cancel` take the object out of the table and join the
task. Between two suspensions a coroutine runs alone, so that a block under the coordinator's lock is
one step; every `await` is the end of a step.
-/

/-! ### State -/

/-- A message and how many were scheduled before it. -/
structure Arrival where
  number : Nat
  message : IncomingMessage

/-- Where `_fire` is suspended. -/
inductive FireTask where
  /-- before its first step -/
  | created
  | sleeping
  /-- before the lock, with the window over -/
  | acquiring
  /-- in `on_fire` -/
  | firing
  /-- in `finally`, before the lock -/
  | leaving
  | settling
  | done
  deriving DecidableEq

/-- Where a call of `cancel` is suspended, and for which state object. -/
inductive CancelCall where
  | starting (sessionKey : Str)
  | joining (id : Nat)
  | settling (id : Nat)
  | done
  deriving DecidableEq

/-- A coroutine that calls `_settle`: the task of a state, or a call of `cancel`. -/
inductive Settler where
  | fire (id : Nat)
  | cancel (call : Nat)
  deriving DecidableEq

/-- A state object with the session and the progress of its task. The callbacks stand under the
numbers of their messages. -/
structure DebounceState where
  sessionKey : Str
  buffer : List Arrival
  onSettled : List Nat
  task : FireTask := .created
  /-- a `CancelledError` is on its way to the task -/
  cancelRequested : Bool := false
  settled : Bool := false
  /-- who holds `settle_lock`, and the callback it waits for -/
  settleLock : Option (Settler × Nat) := none

structure Coordinator where
  states : List DebounceState := []
  pending : List (Str × Nat) := []
  calls : List CancelCall := []
  arrivals : Nat := 0

inductive Action where
  | schedule (sessionKey : Str) (message : IncomingMessage) (onSettled : Bool)
  | cancel (sessionKey : Str)
  | cancelAll
  /-- the first step of a task -/
  | start (id : Nat)
  /-- the window of a task is over -/
  | wake (id : Nat)
  | acquire (id : Nat)
  /-- `on_fire` returns or raises -/
  | finishFiring (id : Nat)
  | leave (id : Nat)
  /-- the `CancelledError` reaches the task -/
  | interrupt (id : Nat)
  | remove (call : Nat)
  | join (call : Nat)
  | enterSettle (settler : Settler)
  /-- a callback returns or raises; what is no `Exception` ends the loop over them -/
  | finishCallback (settler : Settler) (aborts : Bool)

inductive Event where
  | scheduled (sessionKey : Str) (arrival : Arrival)
  | fired (id : Nat) (sessionKey : Str) (batch : List Arrival) (combined : Combined)
  | ended (id : Nat)
  | removed (id : Nat) (batch : List Arrival)
  | settled (number : Nat)
  | quiet

def FireTask.waiting : FireTask → Bool
  | created | sleeping | acquiring => true
  | firing | leaving | settling | done => false

namespace Coordinator

variable (s : Coordinator)

def modify (id : Nat) (f : DebounceState → DebounceState) : Coordinator :=
  { s with states := s.states.modify id f }

def setTask (id : Nat) (task : FireTask) : Coordinator := s.modify id fun st => { st with task }

def setCall (call : Nat) (progress : CancelCall) : Coordinator :=
  { s with calls := s.calls.set call progress }

def popPending (id : Nat) : Coordinator :=
  { s with pending := s.pending.filter fun entry => entry.2 ≠ id }

/-- The state of a task that goes on from `task`, with nothing thrown into it. -/
def running (id : Nat) (task : FireTask) : Option DebounceState :=
  match s.states[id]? with
  | none => none
  | some st => if st.task = task ∧ st.cancelRequested = false then some st else none

/-! ### Scheduling -/

def schedule (sessionKey : Str) (message : IncomingMessage) (onSettled : Bool) :
    Coordinator × Event :=
  let arrival := { number := s.arrivals, message }
  let callbacks := if onSettled then [s.arrivals] else []
  match s.pending.lookup sessionKey with
  | some id =>
      ({ s.modify id fun st =>
          { st with buffer := st.buffer ++ [arrival], onSettled := st.onSettled ++ callbacks } with
          arrivals := s.arrivals + 1 }, .scheduled sessionKey arrival)
  | none =>
      ({ s with
          states := s.states ++ [{ sessionKey, buffer := [arrival], onSettled := callbacks }]
          pending := s.pending ++ [(sessionKey, s.states.length)]
          arrivals := s.arrivals + 1 }, .scheduled sessionKey arrival)

/-! ### The task of a state -/

/-- The block under the lock, and the call of `on_fire` that follows it in the same step. -/
def acquire (str : Json → Str) (id : Nat) (st : DebounceState) : Coordinator × Event :=
  if s.pending.lookup st.sessionKey = some id then
    match st.buffer with
    | [] => ((s.popPending id).setTask id .leaving, .quiet)
    | first :: _ =>
        ((s.popPending id).setTask id .firing,
          .fired id st.sessionKey st.buffer
            (coalesce str first.message (st.buffer.map (·.message))))
  else (s.setTask id .leaving, .quiet)

/-- The block under the lock in `finally`. -/
def leave (id : Nat) (st : DebounceState) : Coordinator :=
  if s.pending.lookup st.sessionKey = some id then (s.popPending id).setTask id .settling
  else s.setTask id .settling

/-- A `CancelledError` is thrown into the task. Before its first step it ends the task at once; inside
`on_fire` or a callback, what comes of it is up to these. -/
def interrupt (id : Nat) (st : DebounceState) : Coordinator :=
  let cleared := s.modify id fun st => { st with cancelRequested := false }
  match st.task with
  | .created => cleared.setTask id .done
  | .sleeping => cleared.setTask id .leaving
  | .acquiring => cleared.setTask id .leaving
  | .firing => cleared
  | .leaving => cleared.setTask id .done
  | .settling =>
      if st.settleLock.map Prod.fst = some (.fire id) then cleared else cleared.setTask id .done
  | .done => cleared

/-! ### Cancelling -/

/-- The block under the lock of `cancel`, and the request that follows it in the same step. -/
def remove (call : Nat) (sessionKey : Str) : Coordinator × Event :=
  match s.pending.lookup sessionKey with
  | none => (s.setCall call .done, .quiet)
  | some id =>
      match s.states[id]? with
      | none => (s, .quiet)
      | some st =>
          if st.task = .done then
            ((s.popPending id).setCall call (.settling id), .removed id st.buffer)
          else
            (((s.popPending id).modify id fun st => { st with cancelRequested := true }).setCall call
              (.joining id), .removed id st.buffer)

/-! ### Settling -/

/-- The state a coroutine that has called `_settle` works on. -/
def settlerState : Settler → Option Nat
  | .fire id => (s.running id .settling).map fun _ => id
  | .cancel call =>
      match s.calls[call]? with
      | some (.settling id) => some id
      | _ => none

/-- `_settle` returns or raises. -/
def endSettle (settler : Settler) : Coordinator :=
  match settler with
  | .fire id => s.setTask id .done
  | .cancel call => s.setCall call .done

def callback (settler : Settler) (id : Nat) (st : DebounceState) (index : Nat) :
    Coordinator × Event :=
  match st.onSettled[index]? with
  | some number =>
      (s.modify id fun st => { st with settled := true, settleLock := some (settler, index) },
        .settled number)
  | none =>
      ((s.modify id fun st => { st with settled := true, settleLock := none }).endSettle settler,
        .quiet)

def enterSettle (settler : Settler) (id : Nat) (st : DebounceState) : Coordinator × Event :=
  if st.settled then (s.endSettle settler, .quiet) else s.callback settler id st 0

def finishCallback (settler : Settler) (id : Nat) (st : DebounceState) (index : Nat) (aborts : Bool) :
    Coordinator × Event :=
  if aborts then
    ((s.modify id fun st => { st with settleLock := none }).endSettle settler, .quiet)
  else s.callback settler id st (index + 1)

/-! ### Steps -/

/-- A step that the event loop can take. -/
def step (str : Json → Str) : Action → Option (Coordinator × Event)
  | .schedule sessionKey message onSettled => some (s.schedule sessionKey message onSettled)
  | .cancel sessionKey => some ({ s with calls := s.calls ++ [.starting sessionKey] }, .quiet)
  | .cancelAll =>
      some ({ s with calls := s.calls ++ s.pending.map fun entry => .starting entry.1 }, .quiet)
  | .start id => (s.running id .created).map fun _ => (s.setTask id .sleeping, .quiet)
  | .wake id => (s.running id .sleeping).map fun _ => (s.setTask id .acquiring, .quiet)
  | .acquire id => (s.running id .acquiring).map fun st => s.acquire str id st
  | .finishFiring id => (s.running id .firing).map fun _ => (s.setTask id .leaving, .ended id)
  | .leave id => (s.running id .leaving).map fun st => (s.leave id st, .quiet)
  | .interrupt id =>
      match s.states[id]? with
      | none => none
      | some st => if st.cancelRequested then some (s.interrupt id st, .quiet) else none
  | .remove call =>
      match s.calls[call]? with
      | some (.starting sessionKey) => some (s.remove call sessionKey)
      | _ => none
  | .join call =>
      match s.calls[call]? with
      | some (.joining id) =>
          match s.states[id]? with
          | none => none
          | some st =>
              if st.task = .done then some (s.setCall call (.settling id), .quiet) else none
      | _ => none
  | .enterSettle settler =>
      match s.settlerState settler with
      | none => none
      | some id =>
          match s.states[id]? with
          | none => none
          | some st => if st.settleLock.isSome then none else some (s.enterSettle settler id st)
  | .finishCallback settler aborts =>
      match s.settlerState settler with
      | none => none
      | some id =>
          match s.states[id]? with
          | none => none
          | some st =>
              match st.settleLock with
              | none => none
              | some (holder, index) =>
                  if holder = settler then some (s.finishCallback settler id st index aborts)
                  else none

end Coordinator

end OpenStarry.Debounce
