import Mathlib.Algebra.GroupWithZero.Nat
import OpenStarry.MemorySync.Convergence

/-!
# Runs of the memory sync manager

The jobs of a manager can always be brought to an end, and two rounds of the poll loop that find the
disk at rest take up all that is left. So in every harmless run the index can be brought up to date,
and it is up to date whenever the jobs after such a round have ended.
-/

namespace OpenStarry.MemorySync

open Lib

def Job.work {P : Type} (job : Job P) : Nat :=
  if job.done then 0 else 2 * (job.deletes.card + job.changes.card) + 1

theorem Job.work_of_open {P : Type} (job : Job P) (h : job.done = false) :
    job.work = 2 * (job.deletes.card + job.changes.card) + 1 := by
  unfold Job.work
  rw [h]
  rfl

namespace Manager

variable {P C : Type} [DecidableEq P] {config : Config} {s s' : Manager P C} {path : P}

/-! ### Jobs come to an end -/

def work (s : Manager P C) : Nat := s.calls.length + (s.jobs.map Job.work).sum

omit [DecidableEq P] in
theorem sum_work_set {jobs : List (Job P)} {i : Nat} {job : Job P} (hjob : jobs[i]? = some job)
    (job' : Job P) :
    ((jobs.set i job').map Job.work).sum + job.work = (jobs.map Job.work).sum + job'.work := by
  induction jobs generalizing i with
  | nil => cases hjob
  | cons head rest ih =>
      cases i with
      | zero =>
          cases Option.some.inj hjob
          simp only [List.set_cons_zero, List.map_cons, List.sum_cons]
          omega
      | succ i =>
          have htail := ih hjob
          simp only [List.set_cons_succ, List.map_cons, List.sum_cons]
          omega

omit [DecidableEq P] in
theorem work_set {i : Nat} {job job' : Job P} (hjob : s.jobs[i]? = some job)
    (hjobs : s'.jobs = s.jobs.set i job')
    (hless : s'.calls.length + job'.work < s.calls.length + job.work) : s'.work < s.work := by
  have hsum := sum_work_set hjob job'
  unfold work
  rw [hjobs]
  omega

def Steadily (s : Manager P C) (action : Action P C) : Prop := s.Harmless action ∧ action.Steady

theorem steadily_tick (s : Manager P C) (now : Int) : s.Steadily (.tick now) := ⟨trivial, trivial⟩

def Works (config : Config) (s : Manager P C) (action : Action P C) : Prop :=
  ∃ s', s.step config action = some s' ∧ s'.work < s.work

theorem works_callEnds (hcalls : s.calls ≠ []) : s.Works config (.callEnds 0 true) := by
  have hpos : 0 < s.calls.length := List.length_pos_iff.mpr hcalls
  refine ⟨s.endCall 0 s.calls[0] true, ?_, ?_⟩
  · show s.calls[0]?.map _ = _
    rw [List.getElem?_eq_getElem hpos, Option.map_some]
  · show (s.calls.eraseIdx 0).length + (s.jobs.map Job.work).sum
      < s.calls.length + (s.jobs.map Job.work).sum
    rw [List.length_eraseIdx_of_lt hpos]
    omega

theorem work_issue {i : Nat} {job job' : Job P} {op : StoreOp C} (hjob : s.jobs[i]? = some job)
    (hless : job'.work + 1 < job.work) : (s.issue i job' path op).work < s.work := by
  apply work_set hjob rfl
  show (s.calls ++ [_]).length + _ < _
  rw [List.length_append, List.length_singleton]
  omega

theorem works_remove {i : Nat} {job : Job P} (hready : s.ready i = some job)
    (hpath : path ∈ job.deletes) : s.Works config (.remove i path) := by
  obtain ⟨hjob, hopen, -⟩ := ready_eq_some hready
  have hcard := Finset.card_erase_add_one hpath
  have hwork := Job.work_of_open job hopen
  have hwork' := Job.work_of_open { job with deletes := job.deletes.erase path } hopen
  dsimp only at hwork'
  refine ⟨s.issue i { job with deletes := job.deletes.erase path } path .remove, ?_, ?_⟩
  · show (s.ready i).bind _ = _
    rw [hready, Option.bind_some, if_pos hpath]
  · apply work_issue hjob
    omega

theorem works_indexFile {i : Nat} {job : Job P} (hready : s.ready i = some job)
    (hdeletes : job.deletes = ∅) (hpath : path ∈ job.changes) :
    s.Works config (.indexFile i path) := by
  obtain ⟨hjob, hopen, -⟩ := ready_eq_some hready
  have hcard := Finset.card_erase_add_one hpath
  have hwork := Job.work_of_open job hopen
  have hwork' := Job.work_of_open { job with changes := job.changes.erase path } hopen
  dsimp only at hwork'
  unfold Works step
  dsimp only
  rw [hready, Option.bind_some, if_pos ⟨hdeletes, hpath⟩]
  split_ifs
  · refine ⟨_, rfl, work_issue hjob ?_⟩
    omega
  · refine ⟨_, rfl, work_set hjob rfl ?_⟩
    dsimp only
    omega

theorem works_finish {i : Nat} {job : Job P} (hready : s.ready i = some job)
    (hdeletes : job.deletes = ∅) (hchanges : job.changes = ∅) :
    s.Works config (.finish i false) := by
  obtain ⟨hjob, hopen, -⟩ := ready_eq_some hready
  have hless : s.calls.length + 0 < s.calls.length + job.work := by
    rw [Job.work_of_open job hopen]
    omega
  unfold Works step
  dsimp only
  rw [hready, Option.bind_some, if_pos ⟨hdeletes, hchanges⟩]
  split_ifs
  · exact ⟨_, rfl, work_set hjob rfl hless⟩
  · exact ⟨_, rfl, work_set hjob rfl hless⟩

theorem works_of_busy (config : Config) (hbusy : ¬ s.Quiet) :
    ∃ action, s.Steadily action ∧ s.Works config action := by
  by_cases hcalls : s.calls = []
  · unfold Quiet at hbusy
    push_neg at hbusy
    obtain ⟨job, hmem, hopen⟩ := hbusy
    obtain ⟨i, hjob⟩ := List.mem_iff_getElem?.mp hmem
    have hopen : job.done = false := Bool.eq_false_of_not_eq_true hopen
    have hready : s.ready i = some job := by
      unfold ready
      rw [hjob, hcalls, Option.filter_some, hopen]
      rfl
    obtain hdeletes | ⟨path, hpath⟩ := job.deletes.eq_empty_or_nonempty
    · obtain hchanges | ⟨path, hpath⟩ := job.changes.eq_empty_or_nonempty
      · exact ⟨.finish i false, ⟨trivial, trivial⟩, works_finish hready hdeletes hchanges⟩
      · exact ⟨.indexFile i path, ⟨trivial, trivial⟩, works_indexFile hready hdeletes hpath⟩
    · exact ⟨.remove i path, ⟨trivial, trivial⟩, works_remove hready hpath⟩
  · refine ⟨.callEnds 0 true, ⟨?_, rfl⟩, works_callEnds hcalls⟩
    -- the first call waits for no other
    intro call _
    refine ⟨?_, fun hfails => nomatch hfails⟩
    rw [List.take_zero]
    exact fun other hmem => nomatch hmem

theorem exists_quiet (config : Config) (s : Manager P C) :
    ∃ t, Reach (· = s) (step config) Steadily t ∧ t.Quiet := by
  induction hwork : s.work using Nat.strong_induction_on generalizing s with
  | _ n ih =>
      by_cases hquiet : s.Quiet
      · exact ⟨s, .start rfl, hquiet⟩
      · obtain ⟨action, hsteady, s', hstep, hless⟩ := works_of_busy config hquiet
        obtain ⟨t, hreach, ht⟩ := ih s'.work (hwork ▸ hless) s' rfl
        have hstart : Reach (· = s) (step config) Steadily s := .start rfl
        exact ⟨t, (hstart.next hsteady hstep).trans hreach, ht⟩

/-! ### The index follows the files -/

theorem Tracked.steadily (h : s.Tracked) {t : Manager P C}
    (hreach : Reach (· = s) (Manager.step config) Steadily t) : t.Tracked := by
  induction hreach with
  | start heq => exact heq ▸ h
  | next _ hguard hstep ih => exact ih.step hguard.1 hstep

theorem Settled.steadily (h : s.Settled) {t : Manager P C}
    (hreach : Reach (· = s) (Manager.step config) Steadily t) : t.Settled := by
  induction hreach with
  | start heq => exact heq ▸ h
  | next _ hguard hstep ih => exact ih.step hguard.2 hstep

theorem tick_of_quiet (config : Config) (hquiet : s.Quiet) (now : Int) :
    s.step config (.tick now) = some (s.pollRound config now) := by
  unfold step
  dsimp only
  rw [if_pos]
  rw [List.all_eq_true]
  intro job hmem
  rw [hquiet job hmem, Bool.or_true]

theorem quiet_of_queued (hquiet : s.Quiet) {now : Int}
    (hqueued : (s.pollRound config now).queued = true) : (s.pollRound config now).Quiet := by
  unfold pollRound at hqueued ⊢
  dsimp only at hqueued ⊢
  split_ifs at hqueued ⊢ with hruns
  · rw [startSync_watch hruns.1] at hqueued
    exact absurd hqueued (Bool.eq_false_iff.mp (queued_eq_false_iff.mpr ⟨rfl, rfl⟩))
  · exact hquiet

theorem Tracked.exists_settled (h : s.Tracked) (config : Config) (hquiet : s.Quiet) :
    ∃ t, Reach (· = s) (Manager.step config) Steadily t ∧ t.Settled := by
  have hstart : Reach (· = s) (Manager.step config) Steadily s := .start rfl
  have hfirst := tick_of_quiet config hquiet 0
  have hreach₁ := hstart.next (steadily_tick s 0) hfirst
  cases hqueued : (s.pollRound config 0).queued with
  | false => exact ⟨_, hreach₁, h.settled_of_tick hquiet hfirst hqueued⟩
  | true =>
      have hquiet₁ := quiet_of_queued hquiet hqueued
      have hsecond := tick_of_quiet config hquiet₁
        ((s.pollRound config 0).lastChangeTime + config.debounceSeconds)
      have hdone := queued_of_tick (mtimes_of_tick hfirst) le_rfl hsecond
      exact ⟨_, hreach₁.next (steadily_tick _ _) hsecond,
        (h.steadily hreach₁).settled_of_tick hquiet₁ hsecond hdone⟩

theorem Tracked.exists_inSync (h : s.Tracked) (config : Config) :
    ∃ t, Reach (· = s) (Manager.step config) Steadily t ∧ t.Quiet ∧ t.InSync := by
  obtain ⟨s₁, hreach₁, hquiet₁⟩ := exists_quiet config s
  obtain ⟨s₂, hreach₂, hsettled⟩ := (h.steadily hreach₁).exists_settled config hquiet₁
  obtain ⟨t, hreach, hquiet⟩ := exists_quiet config s₂
  have hall := (hreach₁.trans hreach₂).trans hreach
  exact ⟨t, hall, hquiet, (h.steadily hall).inSync (hsettled.steadily hreach) hquiet⟩

/-- In every harmless run nothing is lost sight of, no removal under way is of a file that is there,
and the index comes to equal the files: once a round of the poll loop that finds no job under way
leaves nothing queued, as one does that comes long enough after the last change, the index is up to
date whenever no job is under way. -/
theorem memory_index_converges (hreach : Reach Initial (step config) Harmless s) :
    s.Converging ∧
      (∀ now s₀, s.Quiet → s.step config (.tick now) = some s₀ → s₀.queued = false →
        ∀ t, Reach (· = s₀) (step config) Steadily t → t.Quiet → t.InSync) ∧
      (∀ now s₀ later s₁, s.step config (.tick now) = some s₀ →
        s₀.lastChangeTime + config.debounceSeconds ≤ later →
        s₀.step config (.tick later) = some s₁ → s₁.queued = false) ∧
      ∃ t, Reach (· = s) (step config) Steadily t ∧ t.Quiet ∧ t.InSync := by
  have htracked : s.Tracked := hreach.invariant (fun _ => Tracked.initial) fun _ _ _ h => h.step
  refine ⟨htracked.converging, ?_, ?_, htracked.exists_inSync config⟩
  · intro now s₀ hquiet hstep hqueued t hsteadily ht
    have hsettled := htracked.settled_of_tick hquiet hstep hqueued
    have htracked₀ : s₀.Tracked := htracked.step (steadily_tick s now).1 hstep
    exact (htracked₀.steadily hsteadily).inSync (hsettled.steadily hsteadily) ht
  · intro now s₀ later s₁ hnow hdebounce hlater
    exact queued_of_tick (mtimes_of_tick hnow) hdebounce hlater

/-! ### Runs on one file -/

instance (s : Manager P C) (path : P) : Decidable (s.Deleting path) :=
  inferInstanceAs (Decidable (_ ∨ _ ∨ _))

instance (s : Manager P C) (path : P) : Decidable (s.Indexed path) :=
  inferInstanceAs (Decidable (_ ∨ _))

instance (s : Manager P C) (path : P) : Decidable (s.Current path) :=
  inferInstanceAs (Decidable (_ ∧ _))

instance (s : Manager P C) : DecidablePred s.Harmless
  | .write .. | .unlink _ => inferInstanceAs (Decidable (_ → _))
  | .callEnds .. => inferInstanceAs (Decidable (∀ call ∈ _, _))
  | .notifyMessage _ | .markDirty | .tick _ | .sync .. | .startSweep | .remove .. | .indexFile ..
  | .expire .. | .finish .. => .isTrue trivial

def fresh : Manager Nat Nat where
  stat := ∅
  text := fun _ => 0
  last := fun _ => 0
  index := fun _ => none
  mtimes := ∅
  pendingChanges := ∅
  pendingDeletes := ∅
  lastChangeTime := 0
  dirty := false
  pendingBytes := 0
  pendingMessages := 0
  jobs := []
  calls := []

theorem fresh_initial : fresh.Initial where
  written := fun path mtime hlookup => by
    rw [show fresh.stat = ∅ from rfl, Finmap.lookup_empty] at hlookup
    cases hlookup
  indexed := fun path hindex => nomatch hindex
  mtimes := rfl
  pendingChanges := rfl
  pendingDeletes := rfl
  jobs := rfl
  calls := rfl

def defaults : Config where
  debounceSeconds := 3
  deltaBytesThreshold := 100000
  deltaMessagesThreshold := 50
  hasSessionIndexer := false

def editedFile : List (Action Nat Nat) :=
  [.write 7 1 1, .tick 0, .tick 4, .indexFile 0 7, .callEnds 0 true, .finish 0 false, .write 7 2 5,
    .sync .manual false, .indexFile 1 7, .write 7 3 6, .callEnds 0 true, .finish 1 false, .tick 8,
    .unlink 7]

theorem edited_file_converges : ∃ s t, runActions (guardedStep (step defaults) Harmless) editedFile
      fresh = some s ∧ Reach (· = s) (step defaults) Steadily t ∧ t.Quiet ∧ t.InSync := by
  obtain ⟨s, hrun⟩ : ∃ s,
      runActions (guardedStep (step defaults) Harmless) editedFile fresh = some s :=
    Option.isSome_iff_exists.mp (by decide +kernel)
  have hreach := (Reach.start fresh_initial).actions hrun
  obtain ⟨-, -, -, t, hsteady, hquiet, hsync⟩ := memory_index_converges hreach
  exact ⟨s, t, hrun, hsteady, hquiet, hsync⟩

def failedIndex : List (Action Nat Nat) :=
  [.write 7 1 1, .sync .manual false, .indexFile 0 7, .callEnds 0 false, .finish 0 false]

theorem failed_index_is_not_retried : ¬ ∀ s : Manager Nat Nat,
    Reach Initial (step defaults) anyStep s → s.Converging := by
  intro hclaim
  have hlost : ((runActions (guardedStep (step defaults) anyStep) failedIndex fresh).any fun s =>
      decide ((∀ job ∈ s.jobs, job.done = true) ∧ s.Current 7 ∧ (s.index 7).isNone ∧
        s.pendingChanges = ∅)) = true := by decide +kernel
  obtain ⟨s, hrun, hstate⟩ := (Option.any_eq_true _ _).mp hlost
  obtain ⟨hquiet, hcurrent, hindex, hpending⟩ := of_decide_eq_true hstate
  have hreach := (Reach.start fresh_initial).actions hrun
  obtain hfound | hqueued := (hclaim s hreach).recorded hquiet 7 hcurrent
  · rw [hfound] at hindex
    cases hindex
  · rw [hpending] at hqueued
    exact Finset.notMem_empty 7 hqueued

end Manager

end OpenStarry.MemorySync
