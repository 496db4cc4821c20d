import Mathlib.Data.Finmap
import OpenStarry.Lib.Text

/-!
# The memory sync manager

The index of a store follows the memory files on the disk. The poll loop and the syncs compare the
disk with the modification times seen last, queue or take what differs, and call the store. Each
store call is an await: files change, other syncs, sweeps and ticks run before it ends. Which files a
sweep takes, how a store call ends and when, is up to the environment.
-/

namespace OpenStarry.MemorySync

open Lib

/-! ### Parts -/

/-- Why a sync runs. -/
inductive Reason where
  | initial | manual | sessionStart | sessionDelta | watch | timer
  /-- `search`, or `search:` and an intent. -/
  | search (intent : Option Str)
  | other (text : Str)
  deriving DecidableEq

def Reason.isSearch : Reason → Bool
  | search _ => true
  | _ => false

def Reason.syncsSessions : Reason → Bool
  | initial | manual | sessionStart | sessionDelta => true
  | search intent => intent.isSome
  | _ => false

structure Config where
  debounceSeconds : Int
  deltaBytesThreshold : Nat
  deltaMessagesThreshold : Nat
  hasSessionIndexer : Bool

/-- A sync or a sweep, with what it has still to do and the removals that failed. -/
structure Job (P : Type) where
  reason : Reason
  force : Bool
  sweep : Bool
  /-- Run by the poll loop itself. -/
  polled : Bool
  sessionDeltaPending : Bool
  deletes : Finset P
  changes : Finset P
  failed : Finset P
  done : Bool

inductive StoreOp (C : Type) where
  | remove
  | index (content : C)
  deriving DecidableEq

/-- A store call that has not ended, of a job. -/
structure Call (P C : Type) where
  owner : Nat
  path : P
  op : StoreOp C

def StoreOp.result {C : Type} : StoreOp C → Option C
  | remove => none
  | index content => some content

def Call.apply {P C : Type} [DecidableEq P] (call : Call P C) (index : P → Option C) : P → Option C :=
  Function.update index call.path call.op.result

/-- The disk, the index and the manager. The disk is the modification time of each memory file, and
its content; `last` is the time a path was last written. Jobs keep their places, and calls stand in
the order they were made. -/
structure Manager (P C : Type) where
  stat : Finmap fun _ : P => Int
  text : P → C
  last : P → Int
  index : P → Option C
  mtimes : Finmap fun _ : P => Int
  pendingChanges : Finset P
  pendingDeletes : Finset P
  lastChangeTime : Int
  dirty : Bool
  pendingBytes : Nat
  pendingMessages : Nat
  jobs : List (Job P)
  calls : List (Call P C)

inductive Action (P C : Type) where
  | write (path : P) (content : C) (mtime : Int)
  | unlink (path : P)
  | notifyMessage (byteCount : Nat)
  | markDirty
  | tick (now : Int)
  | sync (reason : Reason) (force : Bool)
  | startSweep
  /-- A job goes on with a path: a sync with one it deletes or indexes, a sweep with an expired
  file. -/
  | remove (job : Nat) (path : P)
  | indexFile (job : Nat) (path : P)
  | expire (job : Nat) (path : P)
  | callEnds (call : Nat) (succeeds : Bool)
  | finish (job : Nat) (sessionsFail : Bool)

namespace Manager

variable {P C : Type} [DecidableEq P] (config : Config) (s : Manager P C)

/-! ### Scans -/

def changed (force : Bool) : Finset P :=
  s.stat.keys.filter fun path =>
    force = true ∨
      (s.mtimes.lookup path).all fun old => (s.stat.lookup path).any fun mtime => old < mtime

def deleted : Finset P := s.mtimes.keys \ s.stat.keys

/-! ### Syncs -/

def shouldSync : Bool :=
  config.deltaBytesThreshold ≤ s.pendingBytes || config.deltaMessagesThreshold ≤ s.pendingMessages

def hasPending : Bool := 0 < s.pendingBytes || 0 < s.pendingMessages

def queued : Bool := decide (s.pendingChanges ≠ ∅) || decide (s.pendingDeletes ≠ ∅)

def skips (reason : Reason) (force : Bool) : Bool :=
  (reason.isSearch && !s.dirty && !force && !s.hasPending) ||
    (reason = .sessionDelta && !s.shouldSync config && !force)

def newJob (reason : Reason) (force polled : Bool) (deletes changes : Finset P) : Job P where
  reason := reason
  force := force
  sweep := false
  polled := polled
  sessionDeltaPending := s.hasPending
  deletes := deletes
  changes := changes
  failed := ∅
  done := false

/-- `sync` up to the first store call: a watch takes what is queued, any other sync scans. -/
def startSync (reason : Reason) (force polled : Bool) : Manager P C :=
  if s.skips config reason force then s
  else if reason = .watch ∧ s.queued then
    { s with
      pendingChanges := ∅
      pendingDeletes := ∅
      jobs := s.jobs ++ [s.newJob reason force polled s.pendingDeletes s.pendingChanges] }
  else
    { s with
      mtimes := s.stat
      jobs := s.jobs ++ [s.newJob reason force polled s.deleted (s.changed force)] }

/-- What one round of `_poll_loop` queues. -/
def poll (now : Int) : Manager P C :=
  { s with
    pendingChanges := s.pendingChanges ∪ s.changed false
    pendingDeletes := s.pendingDeletes ∪ s.deleted
    lastChangeTime :=
      if s.changed false ≠ ∅ ∨ s.deleted ≠ ∅ then now else s.lastChangeTime
    mtimes := s.stat }

def pollRound (now : Int) : Manager P C :=
  let polled := s.poll now
  if polled.queued ∧ config.debounceSeconds ≤ now - polled.lastChangeTime then
    polled.startSync config .watch false true
  else polled

def sessionSyncFailed (job : Job P) (fails : Bool) : Bool :=
  config.hasSessionIndexer && (job.force || job.reason.syncsSessions) && fails

/-- The end of `sync`. -/
def finishSync (i : Nat) (job : Job P) (sessionsFail : Bool) : Manager P C :=
  let sessionSyncFailed := sessionSyncFailed config job sessionsFail
  let reset := job.reason = .sessionDelta ∨
    job.reason.isSearch ∧ job.sessionDeltaPending ∧ config.hasSessionIndexer ∧ ¬ sessionSyncFailed
  { s with
    pendingDeletes := s.pendingDeletes ∪ job.failed
    dirty := if job.failed ≠ ∅ then true else s.queued || sessionSyncFailed
    pendingBytes := if reset then 0 else s.pendingBytes
    pendingMessages := if reset then 0 else s.pendingMessages
    jobs := s.jobs.set i { job with failed := ∅, done := true } }

/-- The end of `_do_ttl_sweep`. -/
def finishSweep (i : Nat) (job : Job P) : Manager P C :=
  { s with
    pendingDeletes := s.pendingDeletes ∪ job.failed
    dirty := if job.failed ≠ ∅ then true else s.dirty
    jobs := s.jobs.set i { job with failed := ∅, done := true } }

/-! ### Store calls -/

def ready (i : Nat) : Option (Job P) :=
  s.jobs[i]?.filter fun job => !job.done && s.calls.all fun call => call.owner ≠ i

def issue (i : Nat) (job : Job P) (path : P) (op : StoreOp C) : Manager P C :=
  { s with jobs := s.jobs.set i job, calls := s.calls ++ [⟨i, path, op⟩] }

def noteFailure (call : Call P C) : List (Job P) :=
  match call.op with
  | .remove => s.jobs.modify call.owner fun job => { job with failed := insert call.path job.failed }
  | .index _ => s.jobs

def endCall (k : Nat) (call : Call P C) (succeeds : Bool) : Manager P C :=
  if succeeds then { s with index := call.apply s.index, calls := s.calls.eraseIdx k }
  else { s with jobs := s.noteFailure call, calls := s.calls.eraseIdx k }

/-! ### Steps -/

def step : Action P C → Option (Manager P C)
  | .write path content mtime =>
      if s.last path < mtime then
        some { s with
          stat := s.stat.insert path mtime
          text := Function.update s.text path content
          last := Function.update s.last path mtime }
      else none
  | .unlink path => some { s with stat := s.stat.erase path }
  | .notifyMessage byteCount =>
      some { s with
        pendingBytes := s.pendingBytes + byteCount
        pendingMessages := s.pendingMessages + 1 }
  | .markDirty => some { s with dirty := true }
  | .tick now =>
      -- the loop is one task: it waits for the sync it runs
      if s.jobs.all fun job => !job.polled || job.done then some (s.pollRound config now) else none
  | .sync reason force => some (s.startSync config reason force false)
  | .startSweep =>
      some { s with jobs := s.jobs ++ [{ s.newJob .timer false false ∅ ∅ with sweep := true }] }
  | .remove i path => (s.ready i).bind fun job =>
      if path ∈ job.deletes then
        some (s.issue i { job with deletes := job.deletes.erase path } path .remove)
      else none
  | .indexFile i path => (s.ready i).bind fun job =>
      if job.deletes = ∅ ∧ path ∈ job.changes then
        let job := { job with changes := job.changes.erase path }
        if path ∈ s.stat then some (s.issue i job path (.index (s.text path)))
        else some { s with jobs := s.jobs.set i job }
      else none
  | .expire i path => (s.ready i).bind fun job =>
      if job.sweep ∧ path ∈ s.stat then
        some ({ s with stat := s.stat.erase path }.issue i job path .remove)
      else none
  | .callEnds k succeeds => s.calls[k]?.map fun call => s.endCall k call succeeds
  | .finish i sessionsFail => (s.ready i).bind fun job =>
      if job.deletes = ∅ ∧ job.changes = ∅ then
        some (if job.sweep then s.finishSweep i job else s.finishSync config i job sessionsFail)
      else none

/-- A manager before its first scan, over an index of files that are there. -/
structure Initial : Prop where
  written : ∀ path mtime, s.stat.lookup path = some mtime → s.last path = mtime
  indexed : ∀ path, (s.index path).isSome = true → path ∈ s.stat
  mtimes : s.mtimes = ∅
  pendingChanges : s.pendingChanges = ∅
  pendingDeletes : s.pendingDeletes = ∅
  jobs : s.jobs = []
  calls : s.calls = []

end Manager

end OpenStarry.MemorySync
