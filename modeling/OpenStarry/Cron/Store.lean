import OpenStarry.Cron.Jobs
import OpenStarry.Lib.TransitionSystem

/-!
# One job under concurrent operations

Each access to the store is one step and everything else may happen between two of them. Reserving
is a single conditional update. Applying a result, pausing, resuming and updating read the row in
one step and write the whole row back in a later one. An execution is known by the token it reserved
the job with; tokens are never used twice.
-/

namespace OpenStarry.Cron

open Lib

/-- A lifecycle call on the job. -/
inductive LifecycleCall where
  | pause (now : Time)
  | resume (now : Time)
  | update (patch : JobPatch) (now : Time)
  | remove
  deriving DecidableEq, Repr

/-- How an execution ends its reservation. -/
inductive ReservedOp where
  | apply (execution : JobExecution) (now : Time)
  | missingHandler (error : Str) (now : Time)
  | release (now : Time)
  deriving DecidableEq, Repr

def ReservedOp.isRelease : ReservedOp → Bool
  | .release _ => true
  | _ => false

/-- Where an execution stands: reserved and not read back yet, at its handler, between reading and
writing the row, cancelled and about to release, at its end, or cancelled after its end. -/
inductive Phase where
  | reserved
  | running
  | writing (op : ReservedOp) (job : CronJob)
  | cancelled
  | finished
  | cleaning (now : Time) (job : CronJob)
  deriving DecidableEq, Repr

def Phase.inProgress : Phase → Bool
  | .finished | .cleaning _ _ => false
  | _ => true

/-- The stored row, whether the job was ever deleted, the executions by their tokens, and the calls
that have read the row and not written it yet. -/
structure State where
  row : Option CronJob
  deleted : Bool
  executions : String → Option Phase
  calls : List (LifecycleCall × CronJob)

inductive Action where
  | reserve (token : String) (now : Time) (requireDue : Bool) (owner source : String)
  | start (token : String)
  | read (token : String) (op : ReservedOp)
  | write (token : String)
  | cancel (token : String)
  | call (call : LifecycleCall)
  | writeBack (index : Nat)
  deriving DecidableEq, Repr

namespace State

def store (s : State) : StoreWrite → State
  | .delete => { s with row := none, deleted := true }
  | .save job => { s with row := some job }

def setPhase (s : State) (token : String) (phase : Phase) : State :=
  { s with executions := Function.update s.executions token (some phase) }

def ownedRow (s : State) (token : String) : Option CronJob :=
  s.row.filter fun job => job.reservationToken == token

end State

section

variable (scan : CronScan)

def ReservedOp.write (job : CronJob) : ReservedOp → StoreWrite
  | .apply execution now => applyReserved scan job execution now
  | .missingHandler error now => .save (finalizeMissingHandler job error now)
  | .release now => .save (releaseReservation job now)

/-- `none` when the call raises before it writes. -/
def LifecycleCall.write (job : CronJob) : LifecycleCall → Option StoreWrite
  | .pause now => some (.save (pauseJob job now))
  | .resume now => (resumeJob scan job now).toOption.map .save
  | .update patch now => (updateJob scan job patch now).toOption.map .save
  | .remove => some .delete

def stepReserve (s : State) (token : String) (now : Time) (requireDue : Bool)
    (owner source : String) : Option State :=
  if token = "" ∨ (s.executions token).isSome then none
  else
    match s.row with
    | none => none
    | some job =>
        if Reservable job now requireDue then
          some ({ s with row := some (reserveRow job token now owner source) }.setPhase token
            .reserved)
        else none

def stepStart (s : State) (token : String) : Option State :=
  match s.executions token with
  | some .reserved => some (s.setPhase token (if s.row.isSome then .running else .finished))
  | _ => none

/-- The row is read to apply, finalise or release; another token ends the operation. A run that is
cancelled after its result was applied tries to release once more. -/
def stepRead (s : State) (token : String) (op : ReservedOp) : Option State :=
  match s.executions token, op with
  | some .running, .apply _ _ | some .running, .missingHandler _ _ | some .cancelled, .release _ =>
      match s.ownedRow token with
      | some job => some (s.setPhase token (.writing op job))
      | none => some (s.setPhase token .finished)
  | some .finished, .release now =>
      match s.ownedRow token with
      | some job => some (s.setPhase token (.cleaning now job))
      | none => some s
  | _, _ => none

def stepWrite (s : State) (token : String) : Option State :=
  match s.executions token with
  | some (.writing op job) => some ((s.store (op.write scan job)).setPhase token .finished)
  | some (.cleaning now job) =>
      some ((s.store (.save (releaseReservation job now))).setPhase token .finished)
  | _ => none

def stepCancel (s : State) (token : String) : Option State :=
  match s.executions token with
  | some .running => some (s.setPhase token .cancelled)
  | some (.writing op _) => if op.isRelease then none else some (s.setPhase token .cancelled)
  | _ => none

def stepCall (s : State) (call : LifecycleCall) : State :=
  match s.row with
  | none => s
  | some job => { s with calls := s.calls ++ [(call, job)] }

def stepWriteBack (s : State) (index : Nat) : Option State :=
  match s.calls[index]? with
  | none => none
  | some (call, job) =>
      let s' := { s with calls := s.calls.eraseIdx index }
      match call.write scan job with
      | none => some s'
      | some write => some (s'.store write)

def step (s : State) : Action → Option State
  | .reserve token now requireDue owner source => stepReserve s token now requireDue owner source
  | .start token => stepStart s token
  | .read token op => stepRead s token op
  | .write token => stepWrite scan s token
  | .cancel token => stepCancel s token
  | .call call => some (stepCall s call)
  | .writeBack index => stepWriteBack scan s index

end

def Initial (s : State) : Prop :=
  s.deleted = false ∧ (∀ token, s.executions token = none) ∧ s.calls = []

end OpenStarry.Cron
