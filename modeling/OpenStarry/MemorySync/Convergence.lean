import OpenStarry.Lib.TransitionSystem
import OpenStarry.MemorySync.Tracking

/-!
# The index converges to the files

Between syncs, what is tracked says that every recorded file is indexed or queued, and that nothing
indexed is lost sight of. Once the disk rests and the store works, a sync of the poll loop leaves the
index equal to the files, whatever else runs beside it.
-/

namespace OpenStarry.MemorySync

open Lib

namespace Manager

variable {P C : Type} [DecidableEq P] {config : Config} {s s' : Manager P C} {path : P}

/-! ### Between syncs -/

def Quiet (s : Manager P C) : Prop := ∀ job ∈ s.jobs, job.done = true

def InSync (s : Manager P C) : Prop :=
  ∀ path, s.index path = if path ∈ s.stat then some (s.text path) else none

/-- Nothing is lost sight of. -/
structure Converging (s : Manager P C) : Prop where
  recorded : s.Quiet → ∀ path, s.Current path →
    s.index path = some (s.text path) ∨ path ∈ s.pendingChanges
  orphans : s.Quiet → ∀ path, (s.index path).isSome = true → path ∉ s.stat →
    path ∈ s.mtimes ∨ path ∈ s.pendingDeletes
  removals : ∀ call ∈ s.calls, call.op.result = none → call.path ∉ s.stat

theorem Tracked.calls_eq_nil (h : s.Tracked) (hquiet : s.Quiet) : s.calls = [] := by
  rw [List.eq_nil_iff_forall_not_mem]
  intro call hmem
  obtain ⟨job, hjob, hopen⟩ := h.owned call hmem
  rw [hquiet job (List.mem_of_getElem? hjob)] at hopen
  cases hopen

theorem Tracked.pendingDeletes_of_quiet (h : s.Tracked) (hquiet : s.Quiet)
    (hdeleting : s.Deleting path) : path ∈ s.pendingDeletes := by
  obtain hpending | ⟨job, hjob, hrest⟩ | ⟨call, hcall, -⟩ := hdeleting
  · exact hpending
  · obtain ⟨hdeletes, -, hfailed⟩ := h.finished job hjob (hquiet job hjob)
    rw [hdeletes, hfailed] at hrest
    simp at hrest
  · rw [h.calls_eq_nil hquiet] at hcall
    cases hcall

theorem Tracked.converging (h : s.Tracked) : s.Converging where
  recorded := by
    intro hquiet path hcurrent
    obtain hpending | ⟨job, hjob, hchange⟩ | heffect := h.fresh path hcurrent
    · exact .inr hpending
    · rw [(h.finished job hjob (hquiet job hjob)).2.1] at hchange
      exact absurd hchange (Finset.notMem_empty _)
    · unfold effect at heffect
      rw [h.calls_eq_nil hquiet] at heffect
      exact .inl heffect
  orphans := by
    intro hquiet path hindex habsent
    exact (h.gone path habsent (.inl hindex)).imp_right (h.pendingDeletes_of_quiet hquiet)
  removals := by
    intro call hcall hremove
    exact h.absent call.path (.inr (.inr ⟨call, hcall, rfl, hremove⟩))

end Manager

/-! ### Once the disk rests -/

def Action.Steady {P C : Type} : Action P C → Prop
  | .write .. | .unlink _ | .expire .. => False
  | .callEnds _ succeeds => succeeds = true
  | _ => True

namespace Manager

variable {P C : Type} [DecidableEq P] {config : Config} {s s' : Manager P C} {path : P}

/-- The last scan saw the disk as it is, and nothing is left to be taken up. -/
structure Settled (s : Manager P C) : Prop where
  mtimes : s.mtimes = s.stat
  pendingChanges : s.pendingChanges = ∅
  pendingDeletes : s.pendingDeletes = ∅
  failed : ∀ job ∈ s.jobs, job.failed = ∅

theorem Tracked.inSync (h : s.Tracked) (hsettled : s.Settled) (hquiet : s.Quiet) : s.InSync := by
  intro path
  have hconverging := h.converging
  by_cases hmem : path ∈ s.stat
  · have hcurrent : s.Current path := ⟨hmem, by rw [hsettled.mtimes]⟩
    rw [if_pos hmem]
    apply (hconverging.recorded hquiet path hcurrent).resolve_right
    rw [hsettled.pendingChanges]
    exact Finset.notMem_empty path
  · rw [if_neg hmem]
    by_contra hindex
    have hsome : (s.index path).isSome = true := Option.isSome_iff_ne_none.mpr hindex
    obtain hseen | hpending := hconverging.orphans hquiet path hsome hmem
    · rw [hsettled.mtimes] at hseen
      exact hmem hseen
    · rw [hsettled.pendingDeletes] at hpending
      exact Finset.notMem_empty path hpending

theorem changed_eq_empty (h : s.mtimes = s.stat) : s.changed false = ∅ := by
  unfold changed
  rw [Finset.filter_eq_empty_iff]
  intro path hmem
  obtain ⟨mtime, hmtime⟩ := Finmap.mem_iff.mp (Finmap.mem_keys.mp hmem)
  rw [h, hmtime]
  simp

theorem deleted_eq_empty (h : s.mtimes = s.stat) : s.deleted = ∅ := by
  unfold deleted
  rw [h, Finset.sdiff_self]

theorem queued_eq_false_iff : s.queued = false ↔ s.pendingChanges = ∅ ∧ s.pendingDeletes = ∅ := by
  unfold queued
  simp

theorem Settled.append (h : s.Settled) {job : Job P} (hjob : job.failed = ∅) :
    ∀ other ∈ s.jobs ++ [job], other.failed = ∅ := by
  intro other hmem
  obtain hmem | hmem := List.mem_append.mp hmem
  · exact h.failed other hmem
  · rw [List.mem_singleton.mp hmem]
    exact hjob

theorem Settled.set (h : s.Settled) {i : Nat} {job : Job P} (hjob : job.failed = ∅) :
    ∀ other ∈ s.jobs.set i job, other.failed = ∅ := by
  intro other hmem
  obtain hmem | rfl := List.mem_or_eq_of_mem_set hmem
  · exact h.failed other hmem
  · exact hjob

theorem Settled.startSync (h : s.Settled) (reason : Reason) (force polled : Bool) :
    (s.startSync config reason force polled).Settled := by
  unfold Manager.startSync
  split
  · exact h
  split
  · exact ⟨h.mtimes, rfl, rfl, h.append rfl⟩
  · exact ⟨rfl, h.pendingChanges, h.pendingDeletes, h.append rfl⟩

theorem Settled.poll (h : s.Settled) (now : Int) : (s.poll now).Settled where
  mtimes := rfl
  pendingChanges := by
    show s.pendingChanges ∪ s.changed false = ∅
    rw [changed_eq_empty h.mtimes, h.pendingChanges, Finset.union_empty]
  pendingDeletes := by
    show s.pendingDeletes ∪ s.deleted = ∅
    rw [deleted_eq_empty h.mtimes, h.pendingDeletes, Finset.union_empty]
  failed := h.failed

theorem pollRound_of_tick {now : Int} (hstep : s.step config (.tick now) = some s') :
    s' = s.pollRound config now := by
  unfold Manager.step at hstep
  dsimp only at hstep
  split_ifs at hstep
  exact (Option.some.inj hstep).symm

theorem Settled.requeue (h : s.Settled) {job : Job P} (hjob : job ∈ s.jobs) :
    s.pendingDeletes ∪ job.failed = ∅ := by
  rw [h.pendingDeletes, h.failed job hjob, Finset.union_empty]

theorem Settled.finishSync (h : s.Settled) {i : Nat} {job : Job P} (hjob : job ∈ s.jobs)
    (sessionsFail : Bool) : (s.finishSync config i job sessionsFail).Settled :=
  ⟨h.mtimes, h.pendingChanges, h.requeue hjob, h.set rfl⟩

theorem Settled.finishSweep (h : s.Settled) {i : Nat} {job : Job P} (hjob : job ∈ s.jobs) :
    (s.finishSweep i job).Settled :=
  ⟨h.mtimes, h.pendingChanges, h.requeue hjob, h.set rfl⟩

theorem Settled.pollRound (h : s.Settled) (now : Int) : (s.pollRound config now).Settled := by
  unfold Manager.pollRound
  dsimp only
  split
  · exact (h.poll now).startSync _ _ _
  · exact h.poll now

theorem Settled.step (h : s.Settled) {action : Action P C} (hsteady : action.Steady)
    (hstep : s.step config action = some s') : s'.Settled := by
  cases action with
  | write | unlink | expire => exact hsteady.elim
  | notifyMessage byteCount =>
      cases Option.some.inj hstep
      exact ⟨h.mtimes, h.pendingChanges, h.pendingDeletes, h.failed⟩
  | markDirty =>
      cases Option.some.inj hstep
      exact ⟨h.mtimes, h.pendingChanges, h.pendingDeletes, h.failed⟩
  | tick now => exact pollRound_of_tick hstep ▸ h.pollRound now
  | sync reason force => exact Option.some.inj hstep ▸ h.startSync reason force false
  | startSweep =>
      cases Option.some.inj hstep
      exact ⟨h.mtimes, h.pendingChanges, h.pendingDeletes, h.append rfl⟩
  | remove i path =>
      obtain ⟨job, hready, hstep⟩ := Option.bind_eq_some_iff.mp hstep
      have hfailed := h.failed job (List.mem_of_getElem? (ready_eq_some hready).1)
      split_ifs at hstep
      cases Option.some.inj hstep
      exact ⟨h.mtimes, h.pendingChanges, h.pendingDeletes, h.set hfailed⟩
  | indexFile i path =>
      obtain ⟨job, hready, hstep⟩ := Option.bind_eq_some_iff.mp hstep
      have hfailed := h.failed job (List.mem_of_getElem? (ready_eq_some hready).1)
      dsimp only at hstep
      split_ifs at hstep
      · cases Option.some.inj hstep
        exact ⟨h.mtimes, h.pendingChanges, h.pendingDeletes, h.set hfailed⟩
      · cases Option.some.inj hstep
        exact ⟨h.mtimes, h.pendingChanges, h.pendingDeletes, h.set hfailed⟩
  | callEnds k succeeds =>
      obtain ⟨call, -, rfl⟩ := Option.map_eq_some_iff.mp hstep
      rw [show succeeds = true from hsteady]
      exact ⟨h.mtimes, h.pendingChanges, h.pendingDeletes, h.failed⟩
  | finish i sessionsFail =>
      obtain ⟨job, hready, hstep⟩ := Option.bind_eq_some_iff.mp hstep
      have hjob := List.mem_of_getElem? (ready_eq_some hready).1
      split_ifs at hstep with hempty hsweep
      · exact Option.some.inj hstep ▸ h.finishSweep hjob
      · exact Option.some.inj hstep ▸ h.finishSync hjob sessionsFail

/-! ### The round that settles -/

theorem startSync_watch {polled : Bool} (hqueued : s.queued = true) :
    s.startSync config .watch false polled =
      { s with
        pendingChanges := ∅
        pendingDeletes := ∅
        jobs := s.jobs ++ [s.newJob .watch false polled s.pendingDeletes s.pendingChanges] } := by
  unfold startSync
  rw [if_neg (by simp [skips, Reason.isSearch]), if_pos ⟨rfl, hqueued⟩]

theorem Tracked.settled_of_tick (h : s.Tracked) (hquiet : s.Quiet) {now : Int}
    (hstep : s.step config (.tick now) = some s') (hqueued : s'.queued = false) : s'.Settled := by
  have hfailed : ∀ job ∈ s.jobs, job.failed = ∅ := fun job hjob =>
    (h.finished job hjob (hquiet job hjob)).2.2
  rw [pollRound_of_tick hstep] at hqueued ⊢
  unfold Manager.pollRound at hqueued ⊢
  dsimp only at hqueued ⊢
  split_ifs at hqueued ⊢ with hruns
  · rw [startSync_watch hruns.1]
    refine ⟨rfl, rfl, rfl, ?_⟩
    intro job hmem
    obtain hmem | hmem := List.mem_append.mp hmem
    · exact hfailed job hmem
    · rw [List.mem_singleton.mp hmem]
      rfl
  · obtain ⟨hchanges, hdeletes⟩ := queued_eq_false_iff.mp hqueued
    exact ⟨rfl, hchanges, hdeletes, hfailed⟩

theorem mtimes_of_tick {now : Int} (hstep : s.step config (.tick now) = some s') :
    s'.mtimes = s'.stat := by
  rw [pollRound_of_tick hstep]
  unfold pollRound
  dsimp only
  split_ifs with hruns
  · rw [startSync_watch hruns.1]
    rfl
  · rfl

theorem queued_of_tick {now : Int} (hmtimes : s.mtimes = s.stat)
    (hdebounce : s.lastChangeTime + config.debounceSeconds ≤ now)
    (hstep : s.step config (.tick now) = some s') : s'.queued = false := by
  have htime : (s.poll now).lastChangeTime = s.lastChangeTime := by
    unfold poll
    dsimp only
    rw [changed_eq_empty hmtimes, deleted_eq_empty hmtimes, if_neg (by simp)]
  rw [pollRound_of_tick hstep]
  unfold pollRound
  dsimp only
  rw [htime]
  split_ifs with hruns
  · rw [startSync_watch hruns.1]
    exact queued_eq_false_iff.mpr ⟨rfl, rfl⟩
  · rw [not_and_or, Bool.not_eq_true] at hruns
    exact hruns.resolve_right (by omega)

end Manager

end OpenStarry.MemorySync
