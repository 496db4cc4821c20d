import OpenStarry.Lib.InFlight
import OpenStarry.MemorySync.Manager

/-!
# What a sync manager keeps track of

A file whose time is recorded is queued, is to be indexed by a job, or has its content in the index
once the store calls that are under way have succeeded. A path that is in the index and gone from the
disk is recorded or is being deleted. The steps that break this are those of `Harmless`.
-/

namespace OpenStarry.MemorySync

open Lib

namespace Manager

variable {P C : Type} [DecidableEq P] {config : Config} {s s' : Manager P C} {path : P}

/-! ### Paths -/

def Deleting (s : Manager P C) (path : P) : Prop :=
  path ∈ s.pendingDeletes ∨ (∃ job ∈ s.jobs, path ∈ job.deletes ∨ path ∈ job.failed) ∨
    ∃ call ∈ s.calls, call.path = path ∧ call.op.result = none

def Indexed (s : Manager P C) (path : P) : Prop :=
  (s.index path).isSome = true ∨ ∃ call ∈ s.calls, call.path = path ∧ call.op.result.isSome = true

def Current (s : Manager P C) (path : P) : Prop :=
  path ∈ s.stat ∧ s.mtimes.lookup path = s.stat.lookup path

def effect (s : Manager P C) : P → Option C :=
  InFlight.effect Call.path (fun call => call.op.result) s.index s.calls

/-- The steps after which everything is still tracked. -/
def Harmless (s : Manager P C) : Action P C → Prop
  -- no file appears while its deletion is queued or under way
  | .write path _ _ => path ∉ s.stat → ¬ s.Deleting path
  -- no file goes that is indexed and that no scan has recorded
  | .unlink path => s.Indexed path → path ∈ s.mtimes
  -- calls for a path end in order, and none fails to index a recorded file that is not queued
  | .callEnds k succeeds => ∀ call ∈ s.calls[k]?,
      (∀ other ∈ s.calls.take k, other.path ≠ call.path) ∧
        (succeeds = false → call.op.result.isSome = true → s.Current call.path →
          call.path ∈ s.pendingChanges)
  | _ => True

structure Tracked (s : Manager P C) : Prop where
  written : ∀ path mtime, s.stat.lookup path = some mtime → s.last path = mtime
  seen : ∀ path old, s.mtimes.lookup path = some old → old ≤ s.last path
  fresh : ∀ path, s.Current path → path ∈ s.pendingChanges ∨
    (∃ job ∈ s.jobs, path ∈ job.changes) ∨ s.effect path = some (s.text path)
  absent : ∀ path, s.Deleting path → path ∉ s.stat
  gone : ∀ path, path ∉ s.stat → s.Indexed path → path ∈ s.mtimes ∨ s.Deleting path
  ordered : s.calls.Pairwise fun a b => a.path = b.path → a.op.result = none → b.op.result = none
  finished : ∀ job ∈ s.jobs, job.done = true →
    job.deletes = ∅ ∧ job.changes = ∅ ∧ job.failed = ∅
  owned : ∀ call ∈ s.calls, ∃ job, s.jobs[call.owner]? = some job ∧ job.done = false

theorem Tracked.initial (h : s.Initial) : s.Tracked where
  written := h.written
  seen := by
    rw [h.mtimes]
    intro path old hold
    simp at hold
  fresh := by
    rintro path ⟨hmem, hlookup⟩
    rw [h.mtimes, Finmap.lookup_empty, eq_comm, Finmap.lookup_eq_none] at hlookup
    exact absurd hmem hlookup
  absent := by
    intro path hdeleting
    unfold Deleting at hdeleting
    simp [h.pendingDeletes, h.jobs, h.calls] at hdeleting
  gone := by
    intro path habsent hindexed
    unfold Indexed at hindexed
    rw [h.calls] at hindexed
    obtain hindexed | ⟨_, hmem, -⟩ := hindexed
    · exact absurd (h.indexed path hindexed) habsent
    · cases hmem
  ordered := by
    rw [h.calls]
    exact .nil
  finished := by
    rw [h.jobs]
    exact fun _ hmem => nomatch hmem
  owned := by
    rw [h.calls]
    exact fun _ hmem => nomatch hmem

/-! ### The disk -/

theorem Tracked.write (h : s.Tracked) {content : C} {mtime : Int} (hlast : s.last path < mtime)
    (hguard : path ∉ s.stat → ¬ s.Deleting path) :
    Tracked { s with
      stat := s.stat.insert path mtime
      text := Function.update s.text path content
      last := Function.update s.last path mtime } where
  written := by
    intro other time hother
    dsimp only at hother ⊢
    by_cases heq : other = path
    · subst heq
      rw [Finmap.lookup_insert, Option.some.injEq] at hother
      rw [Function.update_self, hother]
    · rw [Finmap.lookup_insert_of_ne _ heq] at hother
      rw [Function.update_of_ne heq]
      exact h.written other time hother
  seen := by
    intro other old hold
    dsimp only
    by_cases heq : other = path
    · subst heq
      rw [Function.update_self]
      have := h.seen other old hold
      omega
    · rw [Function.update_of_ne heq]
      exact h.seen other old hold
  fresh := by
    rintro other ⟨hmem, hlookup⟩
    dsimp only at hmem hlookup
    by_cases heq : other = path
    · subst heq
      rw [Finmap.lookup_insert] at hlookup
      have := h.seen other mtime hlookup
      omega
    · rw [Finmap.mem_insert] at hmem
      rw [Finmap.lookup_insert_of_ne _ heq] at hlookup
      obtain hpending | hjob | heffect := h.fresh other ⟨hmem.resolve_left heq, hlookup⟩
      · exact .inl hpending
      · exact .inr (.inl hjob)
      · refine .inr (.inr ?_)
        show s.effect other = some (Function.update s.text path content other)
        rw [Function.update_of_ne heq, heffect]
  absent := by
    intro other hdeleting hmem
    have hother : other ∉ s.stat := h.absent other hdeleting
    dsimp only at hmem
    rw [Finmap.mem_insert] at hmem
    obtain rfl | hmem := hmem
    · exact hguard hother hdeleting
    · exact hother hmem
  gone := by
    intro other hother
    dsimp only at hother
    rw [Finmap.mem_insert, not_or] at hother
    exact h.gone other hother.2
  ordered := h.ordered
  finished := h.finished
  owned := h.owned

theorem Tracked.unlink (h : s.Tracked) (hguard : s.Indexed path → path ∈ s.mtimes) :
    Tracked { s with stat := s.stat.erase path } where
  written := by
    intro other time hother
    dsimp only at hother ⊢
    by_cases heq : other = path
    · subst heq
      rw [Finmap.lookup_erase] at hother
      cases hother
    · rw [Finmap.lookup_erase_ne heq] at hother
      exact h.written other time hother
  seen := h.seen
  fresh := by
    rintro other ⟨hmem, hlookup⟩
    dsimp only at hmem hlookup
    rw [Finmap.mem_erase] at hmem
    rw [Finmap.lookup_erase_ne hmem.1] at hlookup
    exact h.fresh other ⟨hmem.2, hlookup⟩
  absent := by
    intro other hdeleting hmem
    dsimp only at hmem
    rw [Finmap.mem_erase] at hmem
    exact h.absent other hdeleting hmem.2
  gone := by
    intro other hother hindexed
    dsimp only at hother
    rw [Finmap.mem_erase, not_and] at hother
    by_cases heq : other = path
    · subst heq
      exact .inl (hguard hindexed)
    · exact h.gone other (hother heq) hindexed
  ordered := h.ordered
  finished := h.finished
  owned := h.owned

/-! ### Scans -/

theorem mem_deleted : path ∈ s.deleted ↔ path ∈ s.mtimes ∧ path ∉ s.stat := by
  unfold deleted
  rw [Finset.mem_sdiff, Finmap.mem_keys, Finmap.mem_keys]

theorem Tracked.changed_or_current (h : s.Tracked) (hmem : path ∈ s.stat) (force : Bool) :
    path ∈ s.changed force ∨ s.Current path := by
  obtain ⟨mtime, hmtime⟩ := Finmap.mem_iff.mp hmem
  by_cases hchanged : path ∈ s.changed force
  · exact .inl hchanged
  · refine .inr ⟨hmem, ?_⟩
    unfold changed at hchanged
    rw [Finset.mem_filter, Finmap.mem_keys, not_and, not_or] at hchanged
    have hold := (hchanged hmem).2
    cases hlookup : s.mtimes.lookup path with
    | none => exact absurd (by rw [hlookup]; rfl) hold
    | some old =>
        rw [hlookup, hmtime, Option.all_some, Option.any_some, decide_eq_true_eq] at hold
        have hle := h.seen path old hlookup
        rw [h.written path mtime hmtime] at hle
        rw [hmtime, show old = mtime by omega]

theorem Tracked.poll (h : s.Tracked) (now : Int) : (s.poll now).Tracked where
  written := h.written
  seen := fun path old hold => (h.written path old hold).ge
  fresh := by
    rintro path ⟨hmem, -⟩
    obtain hchanged | hcurrent := h.changed_or_current hmem false
    · exact .inl (Finset.mem_union_right _ hchanged)
    · obtain hpending | hrest := h.fresh path hcurrent
      · exact .inl (Finset.mem_union_left _ hpending)
      · exact .inr hrest
  absent := by
    rintro path (hpending | hrest)
    · obtain hpending | hdeleted := Finset.mem_union.mp hpending
      · exact h.absent path (.inl hpending)
      · exact (mem_deleted.mp hdeleted).2
    · exact h.absent path (.inr hrest)
  gone := by
    intro path hmem hindexed
    obtain hseen | hpending | hrest := h.gone path hmem hindexed
    · exact .inr (.inl (Finset.mem_union_right _ (mem_deleted.mpr ⟨hseen, hmem⟩)))
    · exact .inr (.inl (Finset.mem_union_left _ hpending))
    · exact .inr (.inr hrest)
  ordered := h.ordered
  finished := h.finished
  owned := h.owned

/-! ### New jobs -/

theorem Tracked.finished_append (h : s.Tracked) {job : Job P} (hdone : job.done = false) :
    ∀ other ∈ s.jobs ++ [job], other.done = true →
      other.deletes = ∅ ∧ other.changes = ∅ ∧ other.failed = ∅ := by
  intro other hmem hother
  obtain hmem | hmem := List.mem_append.mp hmem
  · exact h.finished other hmem hother
  · rw [List.mem_singleton.mp hmem, hdone] at hother
    cases hother

theorem Tracked.owned_append (h : s.Tracked) (job : Job P) : ∀ call ∈ s.calls,
    ∃ other, (s.jobs ++ [job])[call.owner]? = some other ∧ other.done = false := by
  intro call hmem
  obtain ⟨other, hother, hdone⟩ := h.owned call hmem
  refine ⟨other, ?_, hdone⟩
  rw [List.getElem?_append_left (List.getElem?_eq_some_iff.mp hother).1]
  exact hother

theorem Tracked.watch (h : s.Tracked) {job : Job P} (hdone : job.done = false)
    (hdeletes : job.deletes = s.pendingDeletes) (hchanges : job.changes = s.pendingChanges)
    (hfailed : job.failed = ∅) :
    Tracked { s with pendingChanges := ∅, pendingDeletes := ∅, jobs := s.jobs ++ [job] } where
  written := h.written
  seen := h.seen
  fresh := by
    intro path hcurrent
    obtain hpending | ⟨other, hmem, hother⟩ | heffect := h.fresh path hcurrent
    · exact .inr (.inl ⟨job, List.mem_append_right _ (List.mem_singleton_self _), hchanges ▸ hpending⟩)
    · exact .inr (.inl ⟨other, List.mem_append_left _ hmem, hother⟩)
    · exact .inr (.inr heffect)
  absent := by
    rintro path (hpending | ⟨other, hmem, hother⟩ | hcall)
    · exact absurd hpending (Finset.notMem_empty _)
    · obtain hmem | hmem := List.mem_append.mp hmem
      · exact h.absent path (.inr (.inl ⟨other, hmem, hother⟩))
      · rw [List.mem_singleton.mp hmem, hdeletes, hfailed] at hother
        exact h.absent path (.inl (hother.resolve_right (Finset.notMem_empty _)))
    · exact h.absent path (.inr (.inr hcall))
  gone := by
    intro path hmem hindexed
    obtain hseen | hpending | ⟨other, hother, hrest⟩ | hcall := h.gone path hmem hindexed
    · exact .inl hseen
    · exact .inr (.inr (.inl ⟨job, List.mem_append_right _ (List.mem_singleton_self _),
        .inl (hdeletes ▸ hpending)⟩))
    · exact .inr (.inr (.inl ⟨other, List.mem_append_left _ hother, hrest⟩))
    · exact .inr (.inr (.inr hcall))
  ordered := h.ordered
  finished := h.finished_append hdone
  owned := h.owned_append job

theorem Tracked.scan (h : s.Tracked) {job : Job P} {force : Bool} (hdone : job.done = false)
    (hdeletes : job.deletes = s.deleted) (hchanges : job.changes = s.changed force)
    (hfailed : job.failed = ∅) :
    Tracked { s with mtimes := s.stat, jobs := s.jobs ++ [job] } where
  written := h.written
  seen := fun path old hold => (h.written path old hold).ge
  fresh := by
    rintro path ⟨hmem, -⟩
    obtain hchanged | hcurrent := h.changed_or_current hmem force
    · exact .inr (.inl ⟨job, List.mem_append_right _ (List.mem_singleton_self _), hchanges ▸ hchanged⟩)
    · obtain hpending | ⟨other, hmem, hother⟩ | heffect := h.fresh path hcurrent
      · exact .inl hpending
      · exact .inr (.inl ⟨other, List.mem_append_left _ hmem, hother⟩)
      · exact .inr (.inr heffect)
  absent := by
    rintro path (hpending | ⟨other, hmem, hother⟩ | hcall)
    · exact h.absent path (.inl hpending)
    · obtain hmem | hmem := List.mem_append.mp hmem
      · exact h.absent path (.inr (.inl ⟨other, hmem, hother⟩))
      · rw [List.mem_singleton.mp hmem, hdeletes, hfailed] at hother
        exact (mem_deleted.mp (hother.resolve_right (Finset.notMem_empty _))).2
    · exact h.absent path (.inr (.inr hcall))
  gone := by
    intro path hmem hindexed
    obtain hseen | hpending | ⟨other, hother, hrest⟩ | hcall := h.gone path hmem hindexed
    · exact .inr (.inr (.inl ⟨job, List.mem_append_right _ (List.mem_singleton_self _),
        .inl (hdeletes ▸ mem_deleted.mpr ⟨hseen, hmem⟩)⟩))
    · exact .inr (.inl hpending)
    · exact .inr (.inr (.inl ⟨other, List.mem_append_left _ hother, hrest⟩))
    · exact .inr (.inr (.inr hcall))
  ordered := h.ordered
  finished := h.finished_append hdone
  owned := h.owned_append job

theorem Tracked.startSync (h : s.Tracked) (reason : Reason) (force polled : Bool) :
    (s.startSync config reason force polled).Tracked := by
  unfold Manager.startSync
  split_ifs
  · exact h
  · exact h.watch rfl rfl rfl rfl
  · exact h.scan rfl rfl rfl rfl

theorem Tracked.pollRound (h : s.Tracked) (now : Int) : (s.pollRound config now).Tracked := by
  unfold Manager.pollRound
  dsimp only
  split_ifs
  · exact (h.poll now).startSync .watch false true
  · exact h.poll now

theorem Tracked.startSweep (h : s.Tracked) {job : Job P} (hdone : job.done = false)
    (hdeletes : job.deletes = ∅) (hfailed : job.failed = ∅) :
    Tracked { s with jobs := s.jobs ++ [job] } where
  written := h.written
  seen := h.seen
  fresh := by
    intro path hcurrent
    obtain hpending | ⟨other, hmem, hother⟩ | heffect := h.fresh path hcurrent
    · exact .inl hpending
    · exact .inr (.inl ⟨other, List.mem_append_left _ hmem, hother⟩)
    · exact .inr (.inr heffect)
  absent := by
    rintro path (hpending | ⟨other, hmem, hother⟩ | hcall)
    · exact h.absent path (.inl hpending)
    · obtain hmem | hmem := List.mem_append.mp hmem
      · exact h.absent path (.inr (.inl ⟨other, hmem, hother⟩))
      · rw [List.mem_singleton.mp hmem, hdeletes, hfailed] at hother
        exact absurd hother (by simp)
    · exact h.absent path (.inr (.inr hcall))
  gone := by
    intro path hmem hindexed
    obtain hseen | hpending | ⟨other, hother, hrest⟩ | hcall := h.gone path hmem hindexed
    · exact .inl hseen
    · exact .inr (.inl hpending)
    · exact .inr (.inr (.inl ⟨other, List.mem_append_left _ hother, hrest⟩))
    · exact .inr (.inr (.inr hcall))
  ordered := h.ordered
  finished := h.finished_append hdone
  owned := h.owned_append job

/-! ### Jobs at work -/

theorem exists_mem_set {α : Type} {l : List α} {i : Nat} {a b : α} {holds : α → Prop}
    (hget : l[i]? = some a) (h : ∃ x ∈ l, holds x) (hkeep : holds a → holds b) :
    ∃ x ∈ l.set i b, holds x := by
  obtain ⟨x, hmem, hx⟩ := h
  obtain ⟨j, hj⟩ := List.mem_iff_getElem?.mp hmem
  by_cases hij : i = j
  · rw [← hij, hget, Option.some.injEq] at hj
    have hi := (List.getElem?_eq_some_iff.mp hget).1
    exact ⟨b, List.mem_set hi b, hkeep (hj ▸ hx)⟩
  · refine ⟨x, List.mem_of_getElem? (i := j) ?_, hx⟩
    rw [List.getElem?_set_ne hij]
    exact hj

omit [DecidableEq P] in
theorem ready_eq_some {i : Nat} {job : Job P} (h : s.ready i = some job) :
    s.jobs[i]? = some job ∧ job.done = false ∧ ∀ call ∈ s.calls, call.owner ≠ i := by
  unfold ready at h
  obtain ⟨hjob, hready⟩ := Option.filter_eq_some_iff.mp h
  rw [Bool.and_eq_true, Bool.not_eq_true', List.all_eq_true] at hready
  exact ⟨hjob, hready.1, fun call hmem => of_decide_eq_true (hready.2 call hmem)⟩

theorem Tracked.finished_set (h : s.Tracked) {i : Nat} {job : Job P}
    (hjob : job.done = true → job.deletes = ∅ ∧ job.changes = ∅ ∧ job.failed = ∅) :
    ∀ other ∈ s.jobs.set i job, other.done = true →
      other.deletes = ∅ ∧ other.changes = ∅ ∧ other.failed = ∅ := by
  intro other hmem
  obtain hmem | rfl := List.mem_or_eq_of_mem_set hmem
  · exact h.finished other hmem
  · exact hjob

omit [DecidableEq P] in
theorem owned_set {jobs : List (Job P)} {calls : List (Call P C)} {i : Nat} {job job' : Job P}
    (h : ∀ call ∈ calls, ∃ other, jobs[call.owner]? = some other ∧ other.done = false)
    (hjob : jobs[i]? = some job) (hdone : job'.done = false) :
    ∀ call ∈ calls, ∃ other, (jobs.set i job')[call.owner]? = some other ∧ other.done = false := by
  intro call hmem
  obtain ⟨other, hother, hopen⟩ := h call hmem
  by_cases hi : i = call.owner
  · refine ⟨job', ?_, hdone⟩
    rw [← hi, List.getElem?_set_self (List.getElem?_eq_some_iff.mp hjob).1]
  · exact ⟨other, by rw [List.getElem?_set_ne hi]; exact hother, hopen⟩

omit [DecidableEq P] in
theorem owned_issue {jobs : List (Job P)} {calls : List (Call P C)} {i : Nat} {job job' : Job P}
    (h : ∀ call ∈ calls, ∃ other, jobs[call.owner]? = some other ∧ other.done = false)
    (hjob : jobs[i]? = some job) (hdone : job'.done = false) {path : P} {op : StoreOp C} :
    ∀ call ∈ calls ++ [⟨i, path, op⟩],
      ∃ other, (jobs.set i job')[call.owner]? = some other ∧ other.done = false := by
  intro call hmem
  obtain hmem | hmem := List.mem_append.mp hmem
  · exact owned_set h hjob hdone call hmem
  · rw [List.mem_singleton.mp hmem]
    exact ⟨job', List.getElem?_set_self (List.getElem?_eq_some_iff.mp hjob).1, hdone⟩

theorem mem_iff_of_lookup {stat stat' : Finmap fun _ : P => Int}
    (h : stat.lookup path = stat'.lookup path) : path ∈ stat ↔ path ∈ stat' := by
  rw [← not_iff_not, ← Finmap.lookup_eq_none, ← Finmap.lookup_eq_none, h]

theorem Tracked.callRemove (h : s.Tracked) {i : Nat} {job job' : Job P}
    {stat : Finmap fun _ : P => Int} (hjob : s.jobs[i]? = some job) (hdone : job'.done = false)
    (habsent : path ∉ stat) (hstat : ∀ other, other ≠ path → stat.lookup other = s.stat.lookup other)
    (hchanges : job'.changes = job.changes) (hfailed : job'.failed = job.failed)
    (hsubset : job'.deletes ⊆ job.deletes)
    (hdeletes : ∀ other ∈ job.deletes, other ≠ path → other ∈ job'.deletes) :
    Tracked (({ s with stat := stat } : Manager P C).issue i job' path .remove) where
  written := by
    intro other mtime hother
    have hne : other ≠ path := by
      rintro rfl
      exact habsent (Finmap.mem_iff.mpr ⟨mtime, hother⟩)
    exact h.written other mtime (hstat other hne ▸ hother)
  seen := h.seen
  fresh := by
    rintro other ⟨hmem, hlookup⟩
    have hne : other ≠ path := by
      rintro rfl
      exact habsent hmem
    have hcurrent : s.Current other :=
      ⟨(mem_iff_of_lookup (hstat other hne)).mp hmem, hlookup.trans (hstat other hne)⟩
    obtain hpending | hother | heffect := h.fresh other hcurrent
    · exact .inl hpending
    · refine .inr (.inl (exists_mem_set hjob hother ?_))
      exact fun hchange => hchanges ▸ hchange
    · exact .inr (.inr ((InFlight.effect_append_ne hne).trans heffect))
  absent := by
    intro other hdeleting
    by_cases heq : other = path
    · exact heq ▸ habsent
    · have hold : s.Deleting other := by
        obtain hpending | ⟨worker, hmem, hother⟩ | ⟨call, hmem, hcall⟩ := hdeleting
        · exact .inl hpending
        · obtain hmem | rfl := List.mem_or_eq_of_mem_set hmem
          · exact .inr (.inl ⟨worker, hmem, hother⟩)
          · refine .inr (.inl ⟨job, List.mem_of_getElem? hjob, ?_⟩)
            exact hother.imp (fun hdelete => hsubset hdelete) fun hfail => hfailed ▸ hfail
        · obtain hmem | hmem := List.mem_append.mp hmem
          · exact .inr (.inr ⟨call, hmem, hcall⟩)
          · rw [List.mem_singleton.mp hmem] at hcall
            exact absurd hcall.1.symm heq
      intro hmem
      exact h.absent other hold ((mem_iff_of_lookup (hstat other heq)).mp hmem)
  gone := by
    intro other hmem hindexed
    have hold : s.Indexed other := by
      obtain hindex | ⟨call, hcall, hpath, hresult⟩ := hindexed
      · exact .inl hindex
      · obtain hcall | hcall := List.mem_append.mp hcall
        · exact .inr ⟨call, hcall, hpath, hresult⟩
        · rw [List.mem_singleton.mp hcall] at hresult
          cases hresult
    by_cases heq : other = path
    · exact .inr (.inr (.inr ⟨_, List.mem_append_right _ (List.mem_singleton_self _), heq.symm, rfl⟩))
    · have hother : other ∉ s.stat :=
        fun hthere => hmem ((mem_iff_of_lookup (hstat other heq)).mpr hthere)
      obtain hseen | hpending | hworker | ⟨call, hcall, hrest⟩ := h.gone other hother hold
      · exact .inl hseen
      · exact .inr (.inl hpending)
      · refine .inr (.inr (.inl (exists_mem_set hjob hworker ?_)))
        exact Or.imp (fun hdelete => hdeletes other hdelete heq) fun hfail => hfailed ▸ hfail
      · exact .inr (.inr (.inr ⟨call, List.mem_append_left _ hcall, hrest⟩))
  ordered := by
    refine List.pairwise_append.mpr ⟨h.ordered, List.pairwise_singleton _ _, ?_⟩
    intro a _ b hb _ _
    rw [List.mem_singleton.mp hb]
    rfl
  finished := by
    apply h.finished_set
    intro hfinished
    rw [hdone] at hfinished
    cases hfinished
  owned := by
    apply owned_issue h.owned hjob
    exact hdone

theorem Tracked.issueRemove (h : s.Tracked) {i : Nat} {job : Job P} (hjob : s.jobs[i]? = some job)
    (hdone : job.done = false) (hmem : path ∈ job.deletes) :
    Tracked (s.issue i { job with deletes := job.deletes.erase path } path .remove) := by
  have habsent := h.absent path (.inr (.inl ⟨job, List.mem_of_getElem? hjob, .inl hmem⟩))
  exact h.callRemove hjob hdone habsent (fun _ _ => rfl) rfl rfl (Finset.erase_subset _ _)
    fun _ hother hne => Finset.mem_erase.mpr ⟨hne, hother⟩

theorem Tracked.expire (h : s.Tracked) {i : Nat} {job : Job P} (hjob : s.jobs[i]? = some job)
    (hdone : job.done = false) :
    Tracked (({ s with stat := s.stat.erase path } : Manager P C).issue i job path .remove) :=
  h.callRemove hjob hdone Finmap.notMem_erase_self (fun _ hne => Finmap.lookup_erase_ne hne) rfl rfl
    (fun _ hmem => hmem) fun _ hother _ => hother

theorem Tracked.issueIndex (h : s.Tracked) {i : Nat} {job : Job P} (hjob : s.jobs[i]? = some job)
    (hdone : job.done = false) (hmem : path ∈ s.stat) :
    Tracked (s.issue i { job with changes := job.changes.erase path } path
      (.index (s.text path))) where
  written := h.written
  seen := h.seen
  fresh := by
    intro other hcurrent
    by_cases heq : other = path
    · refine .inr (.inr ?_)
      rw [heq]
      exact InFlight.effect_append_self
    · obtain hpending | hother | heffect := h.fresh other hcurrent
      · exact .inl hpending
      · refine .inr (.inl (exists_mem_set hjob hother ?_))
        exact fun hchange => Finset.mem_erase.mpr ⟨heq, hchange⟩
      · exact .inr (.inr ((InFlight.effect_append_ne heq).trans heffect))
  absent := by
    rintro other (hpending | ⟨worker, hworker, hother⟩ | ⟨call, hcall, hrest⟩)
    · exact h.absent other (.inl hpending)
    · obtain hworker | rfl := List.mem_or_eq_of_mem_set hworker
      · exact h.absent other (.inr (.inl ⟨worker, hworker, hother⟩))
      · exact h.absent other (.inr (.inl ⟨job, List.mem_of_getElem? hjob, hother⟩))
    · obtain hcall | hcall := List.mem_append.mp hcall
      · exact h.absent other (.inr (.inr ⟨call, hcall, hrest⟩))
      · rw [List.mem_singleton.mp hcall] at hrest
        cases hrest.2
  gone := by
    intro other habsent hindexed
    have hne : path ≠ other := by
      rintro rfl
      exact habsent hmem
    have hold : s.Indexed other := by
      obtain hindex | ⟨call, hcall, hpath, hresult⟩ := hindexed
      · exact .inl hindex
      · obtain hcall | hcall := List.mem_append.mp hcall
        · exact .inr ⟨call, hcall, hpath, hresult⟩
        · rw [List.mem_singleton.mp hcall] at hpath
          exact absurd hpath hne
    obtain hseen | hpending | hworker | ⟨call, hcall, hrest⟩ := h.gone other habsent hold
    · exact .inl hseen
    · exact .inr (.inl hpending)
    · exact .inr (.inr (.inl (exists_mem_set hjob hworker id)))
    · exact .inr (.inr (.inr ⟨call, List.mem_append_left _ hcall, hrest⟩))
  ordered := by
    refine List.pairwise_append.mpr ⟨h.ordered, List.pairwise_singleton _ _, ?_⟩
    intro a ha b hb hpath hremove
    have habsent := h.absent a.path (.inr (.inr ⟨a, ha, rfl, hremove⟩))
    rw [hpath, List.mem_singleton.mp hb] at habsent
    exact absurd hmem habsent
  finished := by
    apply h.finished_set
    intro hfinished
    rw [hdone] at hfinished
    cases hfinished
  owned := by
    apply owned_issue h.owned hjob
    exact hdone

theorem Tracked.dropChange (h : s.Tracked) {i : Nat} {job : Job P} (hjob : s.jobs[i]? = some job)
    (hdone : job.done = false) (habsent : path ∉ s.stat) :
    Tracked { s with jobs := s.jobs.set i { job with changes := job.changes.erase path } } where
  written := h.written
  seen := h.seen
  fresh := by
    intro other hcurrent
    have hne : other ≠ path := by
      rintro rfl
      exact habsent hcurrent.1
    obtain hpending | hother | heffect := h.fresh other hcurrent
    · exact .inl hpending
    · refine .inr (.inl (exists_mem_set hjob hother ?_))
      exact fun hchange => Finset.mem_erase.mpr ⟨hne, hchange⟩
    · exact .inr (.inr heffect)
  absent := by
    rintro other (hpending | ⟨worker, hworker, hother⟩ | hcall)
    · exact h.absent other (.inl hpending)
    · obtain hworker | rfl := List.mem_or_eq_of_mem_set hworker
      · exact h.absent other (.inr (.inl ⟨worker, hworker, hother⟩))
      · exact h.absent other (.inr (.inl ⟨job, List.mem_of_getElem? hjob, hother⟩))
    · exact h.absent other (.inr (.inr hcall))
  gone := by
    intro other hmem hindexed
    obtain hseen | hpending | hworker | hcall := h.gone other hmem hindexed
    · exact .inl hseen
    · exact .inr (.inl hpending)
    · exact .inr (.inr (.inl (exists_mem_set hjob hworker id)))
    · exact .inr (.inr (.inr hcall))
  ordered := h.ordered
  finished := by
    apply h.finished_set
    intro hfinished
    rw [hdone] at hfinished
    cases hfinished
  owned := by
    apply owned_set h.owned hjob
    exact hdone

/-! ### The end of a store call -/

theorem exists_split {α : Type} {l : List α} {k : Nat} {a : α} (h : l[k]? = some a) :
    l = l.take k ++ a :: l.drop (k + 1) ∧ l.eraseIdx k = l.take k ++ l.drop (k + 1) := by
  obtain ⟨hk, rfl⟩ := List.getElem?_eq_some_iff.mp h
  refine ⟨?_, List.eraseIdx_eq_take_drop_succ l k⟩
  rw [List.getElem_cons_drop, List.take_append_drop]

theorem mem_eraseIdx_of_ne {α : Type} {l : List α} {k : Nat} {a x : α} (hget : l[k]? = some a)
    (hmem : x ∈ l) (hne : x ≠ a) : x ∈ l.eraseIdx k := by
  obtain ⟨j, hj⟩ := List.mem_iff_getElem?.mp hmem
  refine List.mem_eraseIdx_iff_getElem?.mpr ⟨j, ?_, hj⟩
  rintro rfl
  exact hne (Option.some.inj (hj.symm.trans hget))

theorem Tracked.removals_behind (h : s.Tracked) {k : Nat} {call : Call P C}
    (hcall : s.calls[k]? = some call) (hfirst : ∀ other ∈ s.calls.take k, other.path ≠ call.path)
    (hremove : call.op.result = none) :
    ∀ other ∈ s.calls.eraseIdx k, other.path = call.path → other.op.result = none := by
  obtain ⟨hsplit, herase⟩ := exists_split hcall
  have hordered := h.ordered
  rw [hsplit, List.pairwise_append, List.pairwise_cons] at hordered
  intro other hmem hpath
  rw [herase] at hmem
  obtain hmem | hmem := List.mem_append.mp hmem
  · exact absurd hpath (hfirst other hmem)
  · exact hordered.2.1.1 other hmem hpath.symm hremove

theorem Tracked.callSucceeds (h : s.Tracked) {k : Nat} {call : Call P C}
    (hcall : s.calls[k]? = some call) (hfirst : ∀ other ∈ s.calls.take k, other.path ≠ call.path) :
    Tracked { s with index := call.apply s.index, calls := s.calls.eraseIdx k } := by
  obtain ⟨hsplit, herase⟩ := exists_split hcall
  have hmem : ∀ other ∈ s.calls.eraseIdx k, other ∈ s.calls :=
    fun other hother => (List.eraseIdx_sublist s.calls k).subset hother
  have hcallMem := List.mem_of_getElem? hcall
  have heffect : ∀ other, effect { s with
      index := call.apply s.index, calls := s.calls.eraseIdx k } other = s.effect other := by
    intro other
    unfold effect
    dsimp only
    rw [herase]
    conv_rhs => rw [hsplit]
    exact InFlight.effect_end hfirst
  refine ⟨h.written, h.seen, ?_, ?_, ?_, ?_, h.finished,
    fun other hother => h.owned other (hmem other hother)⟩
  · intro other hcurrent
    rw [heffect]
    exact h.fresh other hcurrent
  · rintro other (hpending | hworker | ⟨worker, hother, hrest⟩)
    · exact h.absent other (.inl hpending)
    · exact h.absent other (.inr (.inl hworker))
    · exact h.absent other (.inr (.inr ⟨worker, hmem worker hother, hrest⟩))
  · intro other habsent hindexed
    by_cases heq : call.path = other
    · -- behind a removal nothing is left that would index the path again
      have hresult : call.op.result.isSome = true := by
        by_contra hremove
        rw [Option.not_isSome_iff_eq_none] at hremove
        obtain hindex | ⟨worker, hother, hpath, hindex⟩ := hindexed
        · unfold Call.apply at hindex
          dsimp only at hindex
          rw [← heq, Function.update_self, hremove] at hindex
          cases hindex
        · rw [h.removals_behind hcall hfirst hremove worker hother (hpath.trans heq.symm)] at hindex
          cases hindex
      obtain hseen | hpending | hworker | ⟨worker, hother, hpath, hremove⟩ :=
        h.gone other habsent (.inr ⟨call, hcallMem, heq, hresult⟩)
      · exact .inl hseen
      · exact .inr (.inl hpending)
      · exact .inr (.inr (.inl hworker))
      · have hne : worker ≠ call := by
          rintro rfl
          rw [hremove] at hresult
          cases hresult
        exact .inr (.inr (.inr ⟨worker, mem_eraseIdx_of_ne hcall hother hne, hpath, hremove⟩))
    · have hold : s.Indexed other := by
        obtain hindex | ⟨worker, hother, hrest⟩ := hindexed
        · unfold Call.apply at hindex
          dsimp only at hindex
          rw [Function.update_of_ne (Ne.symm heq)] at hindex
          exact .inl hindex
        · exact .inr ⟨worker, hmem worker hother, hrest⟩
      obtain hseen | hpending | hworker | ⟨worker, hother, hpath, hremove⟩ := h.gone other habsent hold
      · exact .inl hseen
      · exact .inr (.inl hpending)
      · exact .inr (.inr (.inl hworker))
      · have hne : worker ≠ call := by
          rintro rfl
          exact heq hpath
        exact .inr (.inr (.inr ⟨worker, mem_eraseIdx_of_ne hcall hother hne, hpath, hremove⟩))
  · exact h.ordered.sublist (List.eraseIdx_sublist s.calls k)

theorem effect_eraseIdx {k : Nat} {call : Call P C} (hcall : s.calls[k]? = some call)
    (hne : path ≠ call.path) :
    InFlight.effect Call.path (fun call => call.op.result) s.index (s.calls.eraseIdx k) path =
      s.effect path := by
  obtain ⟨hsplit, herase⟩ := exists_split hcall
  unfold effect
  rw [herase]
  conv_rhs => rw [hsplit]
  exact InFlight.effect_erase_ne hne

theorem Tracked.indexFails (h : s.Tracked) {k : Nat} {call : Call P C}
    (hcall : s.calls[k]? = some call) (hindex : call.op.result.isSome = true)
    (hguard : s.Current call.path → call.path ∈ s.pendingChanges) :
    Tracked { s with calls := s.calls.eraseIdx k } := by
  have hmem : ∀ other ∈ s.calls.eraseIdx k, other ∈ s.calls :=
    fun other hother => (List.eraseIdx_sublist s.calls k).subset hother
  refine ⟨h.written, h.seen, ?_, ?_, ?_, ?_, h.finished,
    fun other hother => h.owned other (hmem other hother)⟩
  · intro other hcurrent
    by_cases heq : other = call.path
    · exact .inl (heq ▸ hguard (heq ▸ hcurrent))
    · obtain hpending | hworker | heffect := h.fresh other hcurrent
      · exact .inl hpending
      · exact .inr (.inl hworker)
      · exact .inr (.inr ((effect_eraseIdx hcall heq).trans heffect))
  · rintro other (hpending | hworker | ⟨worker, hother, hrest⟩)
    · exact h.absent other (.inl hpending)
    · exact h.absent other (.inr (.inl hworker))
    · exact h.absent other (.inr (.inr ⟨worker, hmem worker hother, hrest⟩))
  · intro other habsent hindexed
    have hold : s.Indexed other :=
      hindexed.imp id fun ⟨worker, hother, hrest⟩ => ⟨worker, hmem worker hother, hrest⟩
    obtain hseen | hpending | hworker | ⟨worker, hother, hpath, hremove⟩ := h.gone other habsent hold
    · exact .inl hseen
    · exact .inr (.inl hpending)
    · exact .inr (.inr (.inl hworker))
    · have hne : worker ≠ call := by
        rintro rfl
        rw [hremove] at hindex
        cases hindex
      exact .inr (.inr (.inr ⟨worker, mem_eraseIdx_of_ne hcall hother hne, hpath, hremove⟩))
  · exact h.ordered.sublist (List.eraseIdx_sublist s.calls k)

theorem Tracked.removeFails (h : s.Tracked) {k : Nat} {call : Call P C} {job : Job P}
    (hcall : s.calls[k]? = some call) (hremove : call.op.result = none)
    (hjob : s.jobs[call.owner]? = some job) (hdone : job.done = false) :
    Tracked { s with
      jobs := s.jobs.set call.owner { job with failed := insert call.path job.failed }
      calls := s.calls.eraseIdx k } := by
  have hmem : ∀ other ∈ s.calls.eraseIdx k, other ∈ s.calls :=
    fun other hother => (List.eraseIdx_sublist s.calls k).subset hother
  have hcallMem := List.mem_of_getElem? hcall
  have hpathAbsent : call.path ∉ s.stat :=
    h.absent call.path (.inr (.inr ⟨call, hcallMem, rfl, hremove⟩))
  refine ⟨h.written, h.seen, ?_, ?_, ?_, ?_, ?_, ?_⟩
  · intro other hcurrent
    have hne : other ≠ call.path := by
      rintro rfl
      exact hpathAbsent hcurrent.1
    obtain hpending | hworker | heffect := h.fresh other hcurrent
    · exact .inl hpending
    · exact .inr (.inl (exists_mem_set hjob hworker id))
    · exact .inr (.inr ((effect_eraseIdx hcall hne).trans heffect))
  · rintro other (hpending | ⟨worker, hworker, hother⟩ | ⟨worker, hother, hrest⟩)
    · exact h.absent other (.inl hpending)
    · obtain hworker | rfl := List.mem_or_eq_of_mem_set hworker
      · exact h.absent other (.inr (.inl ⟨worker, hworker, hother⟩))
      · obtain hdelete | hfail := hother
        · exact h.absent other (.inr (.inl ⟨job, List.mem_of_getElem? hjob, .inl hdelete⟩))
        · obtain rfl | hfail := Finset.mem_insert.mp hfail
          · exact hpathAbsent
          · exact h.absent other (.inr (.inl ⟨job, List.mem_of_getElem? hjob, .inr hfail⟩))
    · exact h.absent other (.inr (.inr ⟨worker, hmem worker hother, hrest⟩))
  · intro other habsent hindexed
    have hold : s.Indexed other :=
      hindexed.imp id fun ⟨worker, hother, hrest⟩ => ⟨worker, hmem worker hother, hrest⟩
    obtain hseen | hpending | hworker | ⟨worker, hother, hpath, hrest⟩ := h.gone other habsent hold
    · exact .inl hseen
    · exact .inr (.inl hpending)
    · refine .inr (.inr (.inl (exists_mem_set hjob hworker ?_)))
      exact Or.imp_right fun hfail => Finset.mem_insert_of_mem hfail
    · by_cases hne : worker = call
      · have hi := (List.getElem?_eq_some_iff.mp hjob).1
        refine .inr (.inr (.inl ⟨_, List.mem_set hi _, .inr ?_⟩))
        rw [← hpath, hne]
        exact Finset.mem_insert_self _ _
      · exact .inr (.inr (.inr ⟨worker, mem_eraseIdx_of_ne hcall hother hne, hpath, hrest⟩))
  · exact h.ordered.sublist (List.eraseIdx_sublist s.calls k)
  · apply h.finished_set
    intro hfinished
    rw [hdone] at hfinished
    cases hfinished
  · apply owned_set (fun other hother => h.owned other (hmem other hother)) hjob
    exact hdone

theorem Tracked.endCall (h : s.Tracked) {k : Nat} {call : Call P C} {succeeds : Bool}
    (hcall : s.calls[k]? = some call) (hguard : s.Harmless (.callEnds k succeeds)) :
    (s.endCall k call succeeds).Tracked := by
  obtain ⟨hfirst, hfails⟩ := hguard call hcall
  unfold Manager.endCall
  split_ifs with hsucceeds
  · exact h.callSucceeds hcall hfirst
  · rw [Bool.not_eq_true] at hsucceeds
    unfold noteFailure
    cases hop : call.op with
    | remove =>
        obtain ⟨job, hjob, hdone⟩ := h.owned call (List.mem_of_getElem? hcall)
        have hset : s.jobs.modify call.owner (fun job =>
            { job with failed := insert call.path job.failed }) =
              s.jobs.set call.owner { job with failed := insert call.path job.failed } := by
          rw [List.modify_eq_set_getElem?, hjob]
          rfl
        dsimp only
        rw [hset]
        exact h.removeFails hcall (by rw [hop]; rfl) hjob hdone
    | index content =>
        have hindex : call.op.result.isSome = true := by rw [hop]; rfl
        exact h.indexFails hcall hindex (hfails hsucceeds hindex)

/-! ### The end of a job -/

theorem Tracked.requeue (h : s.Tracked) {i : Nat} {job : Job P} (hjob : s.jobs[i]? = some job)
    (hdeletes : job.deletes = ∅) (hchanges : job.changes = ∅)
    (hcalls : ∀ call ∈ s.calls, call.owner ≠ i) :
    Tracked { s with
      pendingDeletes := s.pendingDeletes ∪ job.failed
      jobs := s.jobs.set i { job with failed := ∅, done := true } } where
  written := h.written
  seen := h.seen
  fresh := by
    intro path hcurrent
    obtain hpending | hworker | heffect := h.fresh path hcurrent
    · exact .inl hpending
    · exact .inr (.inl (exists_mem_set hjob hworker id))
    · exact .inr (.inr heffect)
  absent := by
    rintro path (hpending | ⟨worker, hworker, hother⟩ | hcall)
    · obtain hpending | hfail := Finset.mem_union.mp hpending
      · exact h.absent path (.inl hpending)
      · exact h.absent path (.inr (.inl ⟨job, List.mem_of_getElem? hjob, .inr hfail⟩))
    · obtain hworker | rfl := List.mem_or_eq_of_mem_set hworker
      · exact h.absent path (.inr (.inl ⟨worker, hworker, hother⟩))
      · have hdelete := hother.resolve_right (Finset.notMem_empty _)
        exact h.absent path (.inr (.inl ⟨job, List.mem_of_getElem? hjob, .inl hdelete⟩))
    · exact h.absent path (.inr (.inr hcall))
  gone := by
    intro path hmem hindexed
    obtain hseen | hpending | ⟨worker, hworker, hother⟩ | hcall := h.gone path hmem hindexed
    · exact .inl hseen
    · exact .inr (.inl (Finset.mem_union_left _ hpending))
    · obtain ⟨j, hj⟩ := List.mem_iff_getElem?.mp hworker
      by_cases hij : i = j
      · rw [← hij, hjob, Option.some.injEq] at hj
        rw [← hj, hdeletes] at hother
        have hfail := hother.resolve_left (Finset.notMem_empty _)
        exact .inr (.inl (Finset.mem_union_right _ hfail))
      · refine .inr (.inr (.inl ⟨worker, List.mem_of_getElem? (i := j) ?_, hother⟩))
        rw [List.getElem?_set_ne hij]
        exact hj
    · exact .inr (.inr (.inr hcall))
  ordered := h.ordered
  finished := h.finished_set fun _ => ⟨hdeletes, hchanges, rfl⟩
  owned := by
    intro call hmem
    obtain ⟨other, hother, hopen⟩ := h.owned call hmem
    refine ⟨other, ?_, hopen⟩
    rw [List.getElem?_set_ne (Ne.symm (hcalls call hmem))]
    exact hother

theorem Tracked.step (h : s.Tracked) {action : Action P C} (hguard : s.Harmless action)
    (hstep : s.step config action = some s') : s'.Tracked := by
  cases action with
  | write path content mtime =>
      unfold Manager.step at hstep
      dsimp only at hstep
      split_ifs at hstep with hlast
      exact Option.some.inj hstep ▸ h.write hlast hguard
  | unlink path => exact Option.some.inj hstep ▸ h.unlink hguard
  | notifyMessage byteCount =>
      cases Option.some.inj hstep
      exact ⟨h.written, h.seen, h.fresh, h.absent, h.gone, h.ordered, h.finished, h.owned⟩
  | markDirty =>
      cases Option.some.inj hstep
      exact ⟨h.written, h.seen, h.fresh, h.absent, h.gone, h.ordered, h.finished, h.owned⟩
  | tick now =>
      unfold Manager.step at hstep
      dsimp only at hstep
      split_ifs at hstep
      exact Option.some.inj hstep ▸ h.pollRound now
  | sync reason force => exact Option.some.inj hstep ▸ h.startSync reason force false
  | startSweep => exact Option.some.inj hstep ▸ h.startSweep rfl rfl rfl
  | remove i path =>
      obtain ⟨job, hready, hstep⟩ := Option.bind_eq_some_iff.mp hstep
      obtain ⟨hjob, hdone, -⟩ := ready_eq_some hready
      split_ifs at hstep with hmem
      exact Option.some.inj hstep ▸ h.issueRemove hjob hdone hmem
  | indexFile i path =>
      obtain ⟨job, hready, hstep⟩ := Option.bind_eq_some_iff.mp hstep
      obtain ⟨hjob, hdone, -⟩ := ready_eq_some hready
      dsimp only at hstep
      split_ifs at hstep with hchange hmem
      · exact Option.some.inj hstep ▸ h.issueIndex hjob hdone hmem
      · exact Option.some.inj hstep ▸ h.dropChange hjob hdone hmem
  | expire i path =>
      obtain ⟨job, hready, hstep⟩ := Option.bind_eq_some_iff.mp hstep
      obtain ⟨hjob, hdone, -⟩ := ready_eq_some hready
      split_ifs at hstep
      exact Option.some.inj hstep ▸ h.expire hjob hdone
  | callEnds k succeeds =>
      obtain ⟨call, hcall, rfl⟩ := Option.map_eq_some_iff.mp hstep
      exact h.endCall hcall hguard
  | finish i sessionsFail =>
      obtain ⟨job, hready, hstep⟩ := Option.bind_eq_some_iff.mp hstep
      obtain ⟨hjob, hdone, hcalls⟩ := ready_eq_some hready
      split_ifs at hstep with hempty hsweep
      · have hrequeued := h.requeue hjob hempty.1 hempty.2 hcalls
        cases Option.some.inj hstep
        exact ⟨hrequeued.written, hrequeued.seen, hrequeued.fresh, hrequeued.absent,
          hrequeued.gone, hrequeued.ordered, hrequeued.finished, hrequeued.owned⟩
      · have hrequeued := h.requeue hjob hempty.1 hempty.2 hcalls
        cases Option.some.inj hstep
        exact ⟨hrequeued.written, hrequeued.seen, hrequeued.fresh, hrequeued.absent,
          hrequeued.gone, hrequeued.ordered, hrequeued.finished, hrequeued.owned⟩

end Manager

end OpenStarry.MemorySync
