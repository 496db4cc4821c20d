import OpenStarry.Lib.TransitionSystem
import OpenStarry.Session.Keys

/-!
# Admission to the queue of a session

A task is admitted in two steps: a reservation holds its place while its input is made durable, and
an activation puts it behind the waiting tasks, or an abort gives the place back. When the queue is
full a reservation may mark the oldest waiting task as its victim, which the activation evicts.
Tasks start and end in between. Each action is one section under the state lock.
-/

namespace OpenStarry.Admission

open Lib Session

structure RuntimeTask where
  status : AgentTaskStatus
  cancelRequested : Bool
  overflowDropped : Bool

/-- A reservation is known by the id of its task. -/
structure TaskReservation where
  taskId : Nat
  overflowVictim : Option Nat
  deriving DecidableEq, Repr

/-- What the runtime holds for one session, and the reservations that were made, activated and
aborted and the tasks that were evicted so far. -/
structure Runtime where
  tasks : Nat → RuntimeTask
  pending : List Nat
  reservations : List TaskReservation
  reservedOverflowVictims : Finset Nat
  made : List TaskReservation
  activated : List Nat
  aborted : List Nat
  evicted : List Nat

inductive PendingOverflowPolicy where
  | rejectNewest | dropOldest
  deriving DecidableEq, Repr

inductive AdmissionError where
  | queueFull (maxPending : Nat)
  | abortedReservation
  | unknownReservation
  deriving DecidableEq, Repr

namespace Runtime

variable (maxPending : Nat) (s : Runtime)

def isQueued (task : Nat) : Bool := (s.tasks task).status = .queued

def unmarked : List Nat := s.pending.filter fun task => task ∉ s.reservedOverflowVictims

def isFull : Bool := decide (maxPending ≤ s.unmarked.length + s.reservations.length)

def oldestQueued : Option Nat := s.unmarked.find? s.isQueued

def mark (victim : Option Nat) : Finset Nat :=
  victim.elim s.reservedOverflowVictims fun task => insert task s.reservedOverflowVictims

def unmark (victim : Option Nat) : Finset Nat :=
  victim.elim s.reservedOverflowVictims fun task => s.reservedOverflowVictims.erase task

def addReservation (victim : Option Nat) : Runtime :=
  let reservation : TaskReservation := ⟨s.made.length, victim⟩
  { s with
    tasks := Function.update s.tasks s.made.length ⟨.queued, false, false⟩
    reservations := s.reservations ++ [reservation]
    reservedOverflowVictims := s.mark victim
    made := s.made ++ [reservation] }

/-- `reserve`. -/
def reserve (policy : PendingOverflowPolicy) : Except AdmissionError Runtime :=
  if s.isFull maxPending then
    match policy with
    | .rejectNewest => .error (.queueFull maxPending)
    | .dropOldest =>
        match s.oldestQueued with
        | none => .error (.queueFull maxPending)
        | some victim => .ok (s.addReservation (some victim))
  else .ok (s.addReservation none)

/-- `abort_reservation`. -/
def abortReservation (reservation : TaskReservation) : Runtime :=
  if reservation.taskId ∈ s.activated ∨ reservation.taskId ∈ s.aborted then s
  else
    { s with
      reservations := s.reservations.erase reservation
      reservedOverflowVictims := s.unmark reservation.overflowVictim
      aborted := s.aborted ++ [reservation.taskId] }

def victimOf (reservation : TaskReservation) : Option Nat :=
  reservation.overflowVictim.filter fun task => s.isQueued task && decide (task ∈ s.pending)

def drop (victim : Option Nat) : Nat → RuntimeTask :=
  victim.elim s.tasks fun task => Function.update s.tasks task
    { s.tasks task with cancelRequested := true, overflowDropped := true }

/-- `activate`. -/
def activate (reservation : TaskReservation) : Except AdmissionError Runtime :=
  if reservation.taskId ∈ s.aborted then .error .abortedReservation
  else if reservation.taskId ∈ s.activated then .ok s
  else if reservation ∉ s.reservations then .error .unknownReservation
  else
    let victim := s.victimOf reservation
    .ok
      { s with
        tasks := s.drop victim
        pending := s.pending ++ [reservation.taskId]
        reservations := s.reservations.erase reservation
        reservedOverflowVictims := s.unmark reservation.overflowVictim
        activated := s.activated ++ [reservation.taskId]
        evicted := s.evicted ++ victim.toList }

/-- `_mark_running_claimed`: a task that is to be cancelled does not start. -/
def markRunning (task : Nat) : Runtime :=
  if (s.tasks task).status.isLive = false ∨ (s.tasks task).cancelRequested = true then s
  else
    { s with
      tasks := Function.update s.tasks task { s.tasks task with status := .running }
      pending := s.pending.erase task }

def requestCancel (task : Nat) : Runtime :=
  { s with tasks := Function.update s.tasks task { s.tasks task with cancelRequested := true } }

/-- The first section of `_mark_terminal_claimed`. -/
def markTerminal (task : Nat) (status : AgentTaskStatus) : Runtime :=
  { s with tasks := Function.update s.tasks task { s.tasks task with status := status } }

/-- The last section of `_mark_terminal_claimed`: the task leaves the queue. -/
def settle (task : Nat) : Runtime := { s with pending := s.pending.erase task }

end Runtime

inductive Action where
  | reserve (policy : PendingOverflowPolicy)
  | activate (reservation : TaskReservation)
  | abort (reservation : TaskReservation)
  | start (task : Nat)
  | requestCancel (task : Nat)
  | markTerminal (task : Nat) (status : AgentTaskStatus)
  | settle (task : Nat)
  deriving DecidableEq, Repr

def kept (s : Runtime) (after : Except AdmissionError Runtime) : Runtime :=
  match after with
  | .ok s' => s'
  | .error _ => s

/-- A call needs a reservation that was made, and a task is driven once it is activated. -/
def step (maxPending : Nat) (s : Runtime) : Action → Option Runtime
  | .reserve policy => some (kept s (s.reserve maxPending policy))
  | .activate reservation =>
      if reservation ∈ s.made then some (kept s (s.activate reservation)) else none
  | .abort reservation =>
      if reservation ∈ s.made then some (s.abortReservation reservation) else none
  | .start task => if task ∈ s.activated then some (s.markRunning task) else none
  | .requestCancel task => if task ∈ s.activated then some (s.requestCancel task) else none
  | .markTerminal task status =>
      if task ∈ s.activated ∧ status.isLive = false then some (s.markTerminal task status) else none
  | .settle task =>
      if task ∈ s.activated ∧ (s.tasks task).status.isLive = false then some (s.settle task)
      else none

def initial (s : Runtime) : Prop :=
  s.pending = [] ∧ s.reservations = [] ∧ s.reservedOverflowVictims = ∅ ∧ s.made = [] ∧
    s.activated = [] ∧ s.aborted = [] ∧ s.evicted = [] ∧
    ∀ task, (s.tasks task).overflowDropped = false

end OpenStarry.Admission
