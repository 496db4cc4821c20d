import OpenStarry.Lib.TransitionSystem
import OpenStarry.MemorySync.Manager

/-!
# The session delta

A manager counts the messages that come in, and their bytes, until the sessions have been synced.
Whether a sync calls the session indexer, whether it leaves the manager dirty and whether it resets
the counters are three conditions on its reason. A sync waits twice: for its file operations, of
which only the outcome matters here, and for the indexer. Messages come in and other syncs run
before either wait ends.

Two counters of the model are not the manager's: `recorded`, the number of messages that came in,
and `covered`, how many of them had come in when the latest of the indexer calls that succeeded
began.
-/

namespace OpenStarry.MemorySync.SessionDelta

open Lib

/-- What a sync waits for. -/
inductive Stage where
  | files
  /-- The indexer, called after `startedAt` messages. -/
  | sessions (failedDeletes : Bool) (startedAt : Nat)
  | done
  deriving DecidableEq

structure Job where
  reason : Reason
  force : Bool
  /-- `session_delta_pending`, read when the sync began. -/
  sessionDeltaPending : Bool
  stage : Stage
  deriving DecidableEq

structure State where
  pendingBytes : Int
  pendingMessages : Nat
  dirty : Bool
  jobs : List Job
  recorded : Nat
  covered : Nat
  deriving DecidableEq

inductive Action where
  | notifyMessage (byteCount : Int)
  | markDirty
  | sync (reason : Reason) (force : Bool)
  /-- The file operations of a job end. `queued` is whether some path is waiting by then, which is
  read only if the job ends too. -/
  | filesDone (job : Nat) (failedDeletes queued : Bool)
  | sessionsDone (job : Nat) (succeeds queued : Bool)
  /-- A job is cancelled, or the scan of the files raises. -/
  | abandon (job : Nat)

/-! ### Reasons -/

variable (config : Config)

/-- `_do_session_sync` calls the indexer. -/
def callsIndexer (reason : Reason) (force : Bool) : Bool :=
  config.hasSessionIndexer && (force || reason.syncsSessions)

def Job.resets (job : Job) (sessionSyncFailed : Bool) : Bool :=
  job.reason = .sessionDelta ||
    job.reason.isSearch && job.sessionDeltaPending && config.hasSessionIndexer && !sessionSyncFailed

/-! ### Steps -/

namespace State

variable (s : State)

def hasPending : Bool := 0 < s.pendingBytes || 0 < s.pendingMessages

def shouldSync : Bool :=
  (config.deltaBytesThreshold : Int) ≤ s.pendingBytes ||
    config.deltaMessagesThreshold ≤ s.pendingMessages

def skips (reason : Reason) (force : Bool) : Bool :=
  reason.isSearch && !s.dirty && !force && !s.hasPending ||
    reason = .sessionDelta && !s.shouldSync config && !force

def record (byteCount : Int) : State :=
  { s with
    pendingBytes := s.pendingBytes + byteCount
    pendingMessages := s.pendingMessages + 1
    recorded := s.recorded + 1 }

def startSync (reason : Reason) (force : Bool) : State :=
  if s.skips config reason force then s
  else { s with jobs := s.jobs ++ [⟨reason, force, s.hasPending, .files⟩] }

def setStage (i : Nat) (job : Job) (stage : Stage) : State :=
  { s with jobs := s.jobs.set i { job with stage := stage } }

/-- The end of `sync`. -/
def finish (i : Nat) (job : Job) (failedDeletes sessionSyncFailed queued : Bool) : State :=
  { s.setStage i job .done with
    dirty := failedDeletes || queued || sessionSyncFailed
    pendingBytes := if job.resets config sessionSyncFailed then 0 else s.pendingBytes
    pendingMessages := if job.resets config sessionSyncFailed then 0 else s.pendingMessages }

/-- An indexer call that began after `startedAt` messages has succeeded. -/
def cover (startedAt : Nat) : State := { s with covered := max s.covered startedAt }

def step : Action → Option State
  | .notifyMessage byteCount => some (s.record byteCount)
  | .markDirty => some { s with dirty := true }
  | .sync reason force => some (s.startSync config reason force)
  | .filesDone i failedDeletes queued => s.jobs[i]?.bind fun job =>
      if job.stage = .files then
        if callsIndexer config job.reason job.force then
          some (s.setStage i job (.sessions failedDeletes s.recorded))
        else some (s.finish config i job failedDeletes false queued)
      else none
  | .sessionsDone i succeeds queued => s.jobs[i]?.bind fun job =>
      match job.stage with
      | .sessions failedDeletes startedAt =>
          let s := if succeeds then s.cover startedAt else s
          some (s.finish config i job failedDeletes (!succeeds) queued)
      | _ => none
  | .abandon i => s.jobs[i]?.map fun job => s.setStage i job .done

def Initial : Prop := s = ⟨0, 0, false, [], 0, 0⟩

/-! ### What is claimed -/

def SearchWillSync : Prop :=
  s.dirty = true ∧ ∀ reason : Reason, reason.isSearch = true → callsIndexer config reason false = true

def Remembers : Prop :=
  s.covered < s.recorded → s.hasPending = true ∨ s.SearchWillSync config

def ResetsCovered (s s' : State) : Prop :=
  s.hasPending = true → s'.hasPending = false → s'.covered = s'.recorded

/-! ### The condition -/

/-- A plain search does not start to sync while a delta is pending, unless it is forced. When an
indexer call ends after which the counters are reset, it has succeeded and no message has come in
since it began. -/
def Safe : Action → Prop
  | .sync reason force => reason = .search none → force = false → s.hasPending = false
  | .sessionsDone i succeeds _ =>
      ∀ job failedDeletes startedAt, s.jobs[i]? = some job →
        job.stage = .sessions failedDeletes startedAt → job.resets config (!succeeds) = true →
        succeeds = true ∧ startedAt = s.recorded
  | _ => True

/-! ### The invariant -/

/-- Every message is covered or counted as pending, and a job that ends without a call of the
indexer leaves the counters alone. -/
structure Inv : Prop where
  covered_le : s.covered ≤ s.recorded
  recorded_le : s.recorded ≤ s.covered + s.pendingMessages
  started_le : ∀ job ∈ s.jobs, ∀ failedDeletes startedAt,
    job.stage = .sessions failedDeletes startedAt → startedAt ≤ s.recorded
  keeps : ∀ job ∈ s.jobs, job.stage = .files →
    callsIndexer config job.reason job.force = false → job.resets config false = false

variable {config s} {s' : State} {i : Nat} {job : Job}

theorem hasPending_of_pendingMessages (h : 0 < s.pendingMessages) : s.hasPending = true := by
  simp [hasPending, h]

theorem resets_eq_false (hindexer : config.hasSessionIndexer = true) {reason : Reason} {force : Bool}
    (hcalls : callsIndexer config reason force = false)
    (hplain : reason = .search none → force = false → s.hasPending = false) :
    (Job.mk reason force s.hasPending .files).resets config false = false := by
  rw [callsIndexer, hindexer, Bool.true_and, Bool.or_eq_false_iff] at hcalls
  obtain ⟨hforce, hsyncs⟩ := hcalls
  cases reason with
  | search intent =>
      cases intent with
      | none => simp [Job.resets, Reason.isSearch, hplain rfl hforce]
      | some intent => simp [Reason.syncsSessions] at hsyncs
  | sessionDelta => simp [Reason.syncsSessions] at hsyncs
  | initial => simp [Job.resets, Reason.isSearch]
  | manual => simp [Job.resets, Reason.isSearch]
  | sessionStart => simp [Job.resets, Reason.isSearch]
  | watch => simp [Job.resets, Reason.isSearch]
  | timer => simp [Job.resets, Reason.isSearch]
  | other text => simp [Job.resets, Reason.isSearch]

theorem Inv.record (h : s.Inv config) (byteCount : Int) : (s.record byteCount).Inv config where
  covered_le := Nat.le_succ_of_le h.covered_le
  recorded_le := by
    have hle := h.recorded_le
    show s.recorded + 1 ≤ s.covered + (s.pendingMessages + 1)
    omega
  started_le := fun job hjob failedDeletes startedAt hstage =>
    Nat.le_succ_of_le (h.started_le job hjob failedDeletes startedAt hstage)
  keeps := h.keeps

theorem Inv.startSync (h : s.Inv config) (hindexer : config.hasSessionIndexer = true)
    {reason : Reason} {force : Bool}
    (hplain : reason = .search none → force = false → s.hasPending = false) :
    (s.startSync config reason force).Inv config := by
  unfold State.startSync
  by_cases hskips : s.skips config reason force = true
  · rw [if_pos hskips]
    exact h
  · rw [if_neg hskips]
    constructor
    · exact h.covered_le
    · exact h.recorded_le
    · intro job hjob failedDeletes startedAt hstage
      rcases List.mem_append.1 hjob with hjob | hjob
      · exact h.started_le job hjob failedDeletes startedAt hstage
      · rw [List.mem_singleton.1 hjob] at hstage
        simp at hstage
    · intro job hjob hstage hcalls
      rcases List.mem_append.1 hjob with hjob | hjob
      · exact h.keeps job hjob hstage hcalls
      · rw [List.mem_singleton.1 hjob] at hcalls ⊢
        exact resets_eq_false hindexer hcalls hplain

theorem Inv.setStage (h : s.Inv config) {stage : Stage} (hfiles : stage ≠ .files)
    (hstarted : ∀ failedDeletes startedAt,
      stage = .sessions failedDeletes startedAt → startedAt ≤ s.recorded) :
    (s.setStage i job stage).Inv config where
  covered_le := h.covered_le
  recorded_le := h.recorded_le
  started_le := by
    intro job' hjob failedDeletes startedAt hstage
    rcases List.mem_or_eq_of_mem_set hjob with hjob | rfl
    · exact h.started_le job' hjob failedDeletes startedAt hstage
    · exact hstarted failedDeletes startedAt hstage
  keeps := by
    intro job' hjob hstage hcalls
    rcases List.mem_or_eq_of_mem_set hjob with hjob | rfl
    · exact h.keeps job' hjob hstage hcalls
    · exact absurd hstage hfiles

theorem Inv.finish (h : s.Inv config) {failedDeletes sessionSyncFailed queued : Bool}
    (hcovered : job.resets config sessionSyncFailed = true → s.covered = s.recorded) :
    (s.finish config i job failedDeletes sessionSyncFailed queued).Inv config := by
  have hdone : (s.setStage i job .done).Inv config := h.setStage (by simp) (by simp)
  constructor
  · exact h.covered_le
  · show s.recorded ≤ s.covered +
      if job.resets config sessionSyncFailed = true then 0 else s.pendingMessages
    by_cases hresets : job.resets config sessionSyncFailed = true
    · rw [if_pos hresets, hcovered hresets]
      exact Nat.le_refl _
    · rw [if_neg hresets]
      exact h.recorded_le
  · exact hdone.started_le
  · exact hdone.keeps

theorem Inv.cover (h : s.Inv config) {startedAt : Nat} (hstarted : startedAt ≤ s.recorded) :
    (s.cover startedAt).Inv config where
  covered_le := Nat.max_le.2 ⟨h.covered_le, hstarted⟩
  recorded_le := by
    have hle := h.recorded_le
    show s.recorded ≤ max s.covered startedAt + s.pendingMessages
    omega
  started_le := h.started_le
  keeps := h.keeps

theorem Inv.filesDone (h : s.Inv config) {failedDeletes queued : Bool}
    (hstep : s.step config (.filesDone i failedDeletes queued) = some s') : s'.Inv config := by
  obtain ⟨job, hjob, hstep⟩ := Option.bind_eq_some_iff.1 hstep
  by_cases hstage : job.stage = .files
  · rw [if_pos hstage] at hstep
    cases hcalls : callsIndexer config job.reason job.force with
    | true =>
        rw [hcalls, if_pos rfl] at hstep
        cases hstep
        apply h.setStage (by simp)
        intro failedDeletes startedAt hsessions
        cases hsessions
        exact Nat.le_refl _
    | false =>
        rw [hcalls, if_neg (by simp)] at hstep
        cases hstep
        have hkeeps := h.keeps job (List.mem_of_getElem? hjob) hstage hcalls
        apply h.finish
        intro hresets
        rw [hkeeps] at hresets
        cases hresets
  · rw [if_neg hstage] at hstep
    cases hstep

theorem Inv.sessionsDone (h : s.Inv config) {succeeds queued : Bool}
    (hsafe : s.Safe config (.sessionsDone i succeeds queued))
    (hstep : s.step config (.sessionsDone i succeeds queued) = some s') : s'.Inv config := by
  obtain ⟨job, hjob, hstep⟩ := Option.bind_eq_some_iff.1 hstep
  cases hstage : job.stage with
  | files =>
      rw [hstage] at hstep
      cases hstep
  | done =>
      rw [hstage] at hstep
      cases hstep
  | sessions failedDeletes startedAt =>
      rw [hstage] at hstep
      have hstarted := h.started_le job (List.mem_of_getElem? hjob) failedDeletes startedAt hstage
      have hreset := hsafe job failedDeletes startedAt hjob hstage
      cases hstep
      cases succeeds with
      | true =>
          apply (h.cover hstarted).finish
          intro hresets
          have hnone := (hreset hresets).2
          have hle := h.covered_le
          show max s.covered startedAt = s.recorded
          omega
      | false =>
          apply h.finish
          intro hresets
          cases (hreset hresets).1

theorem Inv.step (hindexer : config.hasSessionIndexer = true) {a : Action} (h : s.Inv config)
    (hsafe : s.Safe config a) (hstep : s.step config a = some s') : s'.Inv config := by
  cases a with
  | notifyMessage byteCount =>
      cases hstep
      exact h.record byteCount
  | markDirty =>
      cases hstep
      exact ⟨h.covered_le, h.recorded_le, h.started_le, h.keeps⟩
  | sync reason force =>
      cases hstep
      exact h.startSync hindexer hsafe
  | filesDone i failedDeletes queued => exact h.filesDone hstep
  | sessionsDone i succeeds queued => exact h.sessionsDone hsafe hstep
  | abandon i =>
      obtain ⟨job, -, rfl⟩ := Option.map_eq_some_iff.1 hstep
      exact h.setStage (by simp) (by simp)

theorem inv_of_reach (hindexer : config.hasSessionIndexer = true)
    (h : Reach Initial (step config) (Safe config) s) : s.Inv config := by
  apply h.invariant
  · intro s hinit
    rw [hinit]
    exact ⟨Nat.le_refl _, Nat.le_refl _, by simp, by simp⟩
  · intro s a s' hinv hsafe hstep
    exact hinv.step hindexer hsafe hstep

theorem Inv.covered_eq (h : s.Inv config) (hpending : s.hasPending = false) :
    s.covered = s.recorded := by
  have hzero : ¬ 0 < s.pendingMessages := fun hpos => by
    simp [hasPending_of_pendingMessages hpos] at hpending
  have hle := h.covered_le
  have hrecorded := h.recorded_le
  omega

theorem Inv.remembers (h : s.Inv config) : s.Remembers config := by
  intro hbehind
  cases hpending : s.hasPending with
  | true => exact Or.inl rfl
  | false => exact absurd (h.covered_eq hpending) (Nat.ne_of_lt hbehind)

/-- In a run that keeps to the condition messages stay remembered until they are covered, and only
then are the counters reset. -/
theorem remembers_of_safe (hindexer : config.hasSessionIndexer = true)
    (h : Reach Initial (step config) (Safe config) s) :
    s.Remembers config ∧
      ∀ a s', s.Safe config a → s.step config a = some s' → s.ResetsCovered s' := by
  have hinv := inv_of_reach hindexer h
  constructor
  · exact hinv.remembers
  · intro a s' hsafe hstep _ hreset
    exact (hinv.step hindexer hsafe hstep).covered_eq hreset

/-! ### What goes wrong -/

def indexed : Config where
  debounceSeconds := 1
  deltaBytesThreshold := 100000
  deltaMessagesThreshold := 50
  hasSessionIndexer := true

theorem reach_search (intent : Str) :
    Reach Initial (step indexed) (Safe indexed)
      ⟨5, 1, false, [⟨.search (some intent), false, true, .files⟩], 1, 0⟩ := by
  have hstart : Reach Initial (step indexed) (Safe indexed) ⟨0, 0, false, [], 0, 0⟩ := .start rfl
  have hmessage : Reach Initial (step indexed) (Safe indexed) ⟨5, 1, false, [], 1, 0⟩ :=
    hstart.next (a := .notifyMessage 5) trivial rfl
  apply hmessage.next (a := .sync (.search (some intent)) false)
  · intro hreason
    cases hreason
  · rfl

/-- A search with an intent calls the indexer. -/
theorem search_with_intent_remembers :
    State.Remembers indexed
        ⟨5, 1, false, [⟨.search (some "recall".toList), false, true, .sessions false 1⟩], 1, 0⟩ :=
  (remembers_of_safe rfl ((reach_search "recall".toList).next
    (a := .filesDone 0 false false) trivial rfl)).1

/-- A plain search finds a message pending, does not call the indexer and resets the counters. -/
theorem plain_search_forgets :
    ¬ ∀ s, Reach Initial (step indexed) anyStep s → s.Remembers indexed ∧
      ∀ a s', s.step indexed a = some s' → s.ResetsCovered s' := by
  intro h
  have hstart : Reach Initial (step indexed) anyStep ⟨0, 0, false, [], 0, 0⟩ := .start rfl
  have hmessage : Reach Initial (step indexed) anyStep ⟨5, 1, false, [], 1, 0⟩ :=
    hstart.next (a := .notifyMessage 5) trivial rfl
  have hsearch : Reach Initial (step indexed) anyStep
      ⟨5, 1, false, [⟨.search none, false, true, .files⟩], 1, 0⟩ :=
    hmessage.next (a := .sync (.search none) false) trivial rfl
  have hreset := (h _ hsearch).2 (.filesDone 0 false false)
    ⟨0, 0, false, [⟨.search none, false, true, .done⟩], 1, 0⟩ rfl
  cases hreset rfl rfl

end State

end OpenStarry.MemorySync.SessionDelta
