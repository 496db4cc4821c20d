import OpenStarry.Admission.Queue

/-!
# The admission bound

The waiting tasks that are neither evicted nor marked, together with the open reservations, stay
within the limit as long as no reservation marks a task that was evicted already and has not left
the queue yet.
-/

namespace OpenStarry.Admission

open Lib Session

/-! ### What actions do -/

/-- A task starts, ends or is asked to stop: the queue loses tasks at most. -/
structure Advances (s s' : Runtime) : Prop where
  pending : s'.pending.Sublist s.pending
  queued : ∀ task, s'.isQueued task = true → s.isQueued task = true
  dropped : ∀ task, (s'.tasks task).overflowDropped = (s.tasks task).overflowDropped
  reservations : s'.reservations = s.reservations
  marks : s'.reservedOverflowVictims = s.reservedOverflowVictims
  made : s'.made = s.made
  activated : s'.activated = s.activated
  aborted : s'.aborted = s.aborted
  evicted : s'.evicted = s.evicted

theorem advances_update {s : Runtime} {task : Nat} {after : RuntimeTask} {pending : List Nat}
    (hpending : pending.Sublist s.pending)
    (hqueued : after.status = .queued → (s.tasks task).status = .queued)
    (hdropped : after.overflowDropped = (s.tasks task).overflowDropped) :
    Advances s { s with tasks := Function.update s.tasks task after, pending := pending } := by
  refine ⟨hpending, fun other hother => ?_, fun other => ?_, rfl, rfl, rfl, rfl, rfl, rfl⟩
  · rw [Runtime.isQueued, decide_eq_true_eq] at hother ⊢
    by_cases heq : other = task
    · subst heq
      apply hqueued
      simpa using hother
    · simpa [Function.update_of_ne heq] using hother
  · by_cases heq : other = task
    · subst heq
      simpa using hdropped
    · simp [Function.update_of_ne heq]

/-- The effective changes an action can make. -/
inductive Effect (maxPending : Nat) (s : Runtime) : Action → Runtime → Prop
  | none {a} : Effect maxPending s a s
  | grant {policy} (hroom : s.isFull maxPending = false) :
      Effect maxPending s (.reserve policy) (s.addReservation none)
  | displace {victim} (holdest : s.oldestQueued = some victim) (hfull : s.isFull maxPending = true) :
      Effect maxPending s (.reserve .dropOldest) (s.addReservation (some victim))
  | activate {reservation} (hopen : reservation ∈ s.reservations) {s'}
      (hactivate : s.activate reservation = .ok s')
      (hactivated : reservation.taskId ∉ s.activated) (haborted : reservation.taskId ∉ s.aborted) :
      Effect maxPending s (.activate reservation) s'
  | abort {reservation} (hmade : reservation ∈ s.made)
      (hactivated : reservation.taskId ∉ s.activated) (haborted : reservation.taskId ∉ s.aborted) :
      Effect maxPending s (.abort reservation) (s.abortReservation reservation)
  | advance {a s'} (h : Advances s s') : Effect maxPending s a s'

theorem effect_of_step {maxPending : Nat} {s s' : Runtime} {a : Action}
    (h : step maxPending s a = some s') : Effect maxPending s a s' := by
  cases a with
  | reserve policy =>
      rw [step, Option.some.injEq] at h
      subst h
      cases hfull : s.isFull maxPending with
      | false =>
          unfold Runtime.reserve
          rw [hfull, if_neg Bool.false_ne_true]
          exact .grant hfull
      | true =>
          unfold Runtime.reserve
          rw [hfull, if_pos rfl]
          cases policy with
          | rejectNewest => exact .none
          | dropOldest =>
              cases holdest : s.oldestQueued with
              | none => exact .none
              | some victim => exact .displace holdest hfull
  | activate reservation =>
      rw [step] at h
      split_ifs at h with hmade
      rw [Option.some.injEq] at h
      subst h
      cases hactivate : s.activate reservation with
      | error e => exact .none
      | ok after =>
          have hactivate' := hactivate
          unfold Runtime.activate at hactivate'
          split_ifs at hactivate' with haborted hactivated hopen
          · rw [← Except.ok.inj hactivate']
            exact .none
          · exact .activate hopen hactivate hactivated haborted
  | abort reservation =>
      rw [step] at h
      split_ifs at h with hmade
      rw [Option.some.injEq] at h
      subst h
      by_cases hdone : reservation.taskId ∈ s.activated ∨ reservation.taskId ∈ s.aborted
      · rw [Runtime.abortReservation, if_pos hdone]
        exact .none
      · rw [not_or] at hdone
        exact .abort hmade hdone.1 hdone.2
  | start task =>
      rw [step] at h
      split_ifs at h
      rw [Option.some.injEq] at h
      subst h
      unfold Runtime.markRunning
      split_ifs
      · exact .none
      · apply Effect.advance
        exact advances_update List.erase_sublist (fun h => by cases h) rfl
  | requestCancel task =>
      rw [step] at h
      split_ifs at h
      rw [Option.some.injEq] at h
      subst h
      apply Effect.advance
      exact advances_update (.refl _) (fun h => h) rfl
  | markTerminal task status =>
      rw [step] at h
      split_ifs at h with hguard
      rw [Option.some.injEq] at h
      subst h
      apply Effect.advance
      refine advances_update (.refl _) (fun h => ?_) rfl
      rw [show status = .queued from h] at hguard
      exact absurd hguard.2 (by decide)
  | settle task =>
      rw [step] at h
      split_ifs at h
      rw [Option.some.injEq] at h
      subst h
      apply Effect.advance
      exact ⟨List.erase_sublist, fun _ h => h, fun _ => rfl, rfl, rfl, rfl, rfl, rfl, rfl⟩

/-! ### The bookkeeping of reservations -/

structure Ledger (s : Runtime) : Prop where
  ids : ∀ (i : Nat) (reservation : TaskReservation),
    s.made[i]? = some reservation → reservation.taskId = i
  opened : ∀ reservation, reservation ∈ s.reservations ↔ reservation ∈ s.made ∧
    reservation.taskId ∉ s.activated ∧ reservation.taskId ∉ s.aborted
  openNodup : s.reservations.Nodup
  doneMade : ∀ task ∈ s.activated ++ s.aborted, task < s.made.length
  doneOnce : (s.activated ++ s.aborted).Nodup
  pendingActivated : ∀ task ∈ s.pending, task ∈ s.activated
  pendingNodup : s.pending.Nodup
  marked : ∀ victim, victim ∈ s.reservedOverflowVictims ↔
    ∃ reservation ∈ s.reservations, reservation.overflowVictim = some victim
  oneMark : ∀ r ∈ s.reservations, ∀ r' ∈ s.reservations, ∀ victim,
    r.overflowVictim = some victim → r'.overflowVictim = some victim → r = r'
  evictedActivated : ∀ task ∈ s.evicted, task ∈ s.activated
  dropped : ∀ task, (s.tasks task).overflowDropped = true ↔ task ∈ s.evicted

section Ledger

variable {s s' : Runtime} {maxPending : Nat} {reservation other : TaskReservation} {victim : Nat}

theorem Ledger.eq_of_taskId (h : Ledger s) (hmem : reservation ∈ s.made) (hother : other ∈ s.made)
    (hid : reservation.taskId = other.taskId) : reservation = other := by
  obtain ⟨i, hi⟩ := List.mem_iff_getElem?.mp hmem
  obtain ⟨j, hj⟩ := List.mem_iff_getElem?.mp hother
  rw [h.ids i _ hi, h.ids j _ hj] at hid
  rw [hid, hj] at hi
  exact (Option.some.inj hi).symm

theorem Ledger.taskId_lt (h : Ledger s) (hmem : reservation ∈ s.made) :
    reservation.taskId < s.made.length := by
  obtain ⟨i, hi⟩ := List.mem_iff_getElem?.mp hmem
  rw [h.ids i _ hi]
  exact (List.getElem?_eq_some_iff.mp hi).1

theorem ledger_of_initial (h : initial s) : Ledger s := by
  obtain ⟨hpending, hopen, hmarks, hmade, hactivated, haborted, hevicted, hdropped⟩ := h
  constructor <;> simp [hpending, hopen, hmarks, hmade, hactivated, haborted, hevicted, hdropped]

theorem Ledger.advances (h : Ledger s) (hadvances : Advances s s') : Ledger s' := by
  obtain ⟨hpending, -, hdropped, hopen, hmarks, hmade, hactivated, haborted, hevicted⟩ := hadvances
  refine ⟨?_, ?_, ?_, ?_, ?_, ?_, ?_, ?_, ?_, ?_, ?_⟩
  · rw [hmade]; exact h.ids
  · rw [hopen, hmade, hactivated, haborted]; exact h.opened
  · rw [hopen]; exact h.openNodup
  · rw [hmade, hactivated, haborted]; exact h.doneMade
  · rw [hactivated, haborted]; exact h.doneOnce
  · rw [hactivated]
    exact fun task hmem => h.pendingActivated task (hpending.subset hmem)
  · exact h.pendingNodup.sublist hpending
  · rw [hmarks, hopen]; exact h.marked
  · rw [hopen]; exact h.oneMark
  · rw [hevicted, hactivated]; exact h.evictedActivated
  · intro task
    rw [hdropped, hevicted]
    exact h.dropped task

theorem Ledger.addReservation (h : Ledger s) {victim : Option Nat}
    (hfresh : ∀ task, victim = some task → task ∉ s.reservedOverflowVictims) :
    Ledger (s.addReservation victim) := by
  have hdone : s.made.length ∉ s.activated ++ s.aborted :=
    fun hmem => Nat.lt_irrefl _ (h.doneMade _ hmem)
  rw [List.mem_append, not_or] at hdone
  refine ⟨?_, ?_, ?_, ?_, h.doneOnce, h.pendingActivated, h.pendingNodup, ?_, ?_,
    h.evictedActivated, ?_⟩
  · intro i r hi
    rw [Runtime.addReservation, List.getElem?_append] at hi
    split_ifs at hi with hlt
    · exact h.ids i r hi
    · rw [List.getElem?_singleton] at hi
      split_ifs at hi with hzero
      rw [← Option.some.inj hi]
      change s.made.length = i
      omega
  · intro r
    simp only [Runtime.addReservation, List.mem_append, List.mem_singleton, h.opened]
    constructor
    · rintro (⟨hmade, hopen⟩ | rfl)
      · exact ⟨.inl hmade, hopen⟩
      · exact ⟨.inr rfl, hdone⟩
    · rintro ⟨hmade | rfl, hopen⟩
      · exact .inl ⟨hmade, hopen⟩
      · exact .inr rfl
  · change (s.reservations ++ [_]).Nodup
    rw [List.nodup_append_comm]
    apply List.nodup_cons.mpr
    refine ⟨fun hmem => ?_, h.openNodup⟩
    have hlt := h.taskId_lt ((h.opened _).mp hmem).1
    exact Nat.lt_irrefl _ hlt
  · intro task hmem
    change task < (s.made ++ [_]).length
    rw [List.length_append]
    have hlt := h.doneMade task hmem
    omega
  · intro task
    simp only [Runtime.addReservation, List.mem_append, List.mem_singleton]
    cases victim with
    | none =>
        change task ∈ s.reservedOverflowVictims ↔ _
        rw [h.marked]
        constructor
        · rintro ⟨r, hr, hvictim⟩
          exact ⟨r, .inl hr, hvictim⟩
        · rintro ⟨r, hr | rfl, hvictim⟩
          · exact ⟨r, hr, hvictim⟩
          · cases hvictim
    | some marked =>
        change task ∈ insert marked s.reservedOverflowVictims ↔ _
        rw [Finset.mem_insert, h.marked]
        constructor
        · rintro (rfl | ⟨r, hr, hvictim⟩)
          · exact ⟨_, .inr rfl, rfl⟩
          · exact ⟨r, .inl hr, hvictim⟩
        · rintro ⟨r, hr | rfl, hvictim⟩
          · exact .inr ⟨r, hr, hvictim⟩
          · exact .inl (Option.some.inj hvictim).symm
  · intro r hr r' hr' task hvictim hvictim'
    simp only [Runtime.addReservation, List.mem_append, List.mem_singleton] at hr hr'
    rcases hr with hr | rfl <;> rcases hr' with hr' | rfl
    · exact h.oneMark r hr r' hr' task hvictim hvictim'
    · exact absurd ((h.marked task).mpr ⟨r, hr, hvictim⟩) (hfresh task hvictim')
    · exact absurd ((h.marked task).mpr ⟨r', hr', hvictim'⟩) (hfresh task hvictim)
    · rfl
  · intro task
    change ((Function.update s.tasks s.made.length _) task).overflowDropped = true ↔ task ∈ s.evicted
    by_cases heq : task = s.made.length
    · subst heq
      have hnot : s.made.length ∉ s.evicted := fun hmem => hdone.1 (h.evictedActivated _ hmem)
      simp [hnot]
    · rw [Function.update_of_ne heq]
      exact h.dropped task

theorem Ledger.mem_unmark (h : Ledger s) (hopen : reservation ∈ s.reservations) (task : Nat) :
    task ∈ s.unmark reservation.overflowVictim ↔
      ∃ r ∈ s.reservations.erase reservation, r.overflowVictim = some task := by
  have hmem (r : TaskReservation) : r ∈ s.reservations.erase reservation ↔
      r ≠ reservation ∧ r ∈ s.reservations := h.openNodup.mem_erase_iff
  cases hvictim : reservation.overflowVictim with
  | none =>
      change task ∈ s.reservedOverflowVictims ↔ _
      rw [h.marked]
      constructor
      · rintro ⟨r, hr, hmark⟩
        refine ⟨r, (hmem r).mpr ⟨?_, hr⟩, hmark⟩
        rintro rfl
        rw [hvictim] at hmark
        cases hmark
      · rintro ⟨r, hr, hmark⟩
        exact ⟨r, ((hmem r).mp hr).2, hmark⟩
  | some victim =>
      change task ∈ s.reservedOverflowVictims.erase victim ↔ _
      rw [Finset.mem_erase, h.marked]
      constructor
      · rintro ⟨hne, r, hr, hmark⟩
        refine ⟨r, (hmem r).mpr ⟨?_, hr⟩, hmark⟩
        rintro rfl
        rw [hvictim, Option.some.injEq] at hmark
        exact hne hmark.symm
      · rintro ⟨r, hr, hmark⟩
        obtain ⟨hne, hr⟩ := (hmem r).mp hr
        refine ⟨?_, r, hr, hmark⟩
        rintro rfl
        exact hne (h.oneMark r hr reservation hopen task hmark hvictim)

theorem Ledger.close (h : Ledger s) (hopen : reservation ∈ s.reservations)
    (hreservations : s'.reservations = s.reservations.erase reservation)
    (hmarks : s'.reservedOverflowVictims = s.unmark reservation.overflowVictim)
    (hmade : s'.made = s.made)
    (hdone : (s'.activated ++ s'.aborted).Perm (reservation.taskId :: (s.activated ++ s.aborted)))
    (hpending : ∀ task ∈ s'.pending, task ∈ s'.activated) (hpendingNodup : s'.pending.Nodup)
    (hevicted : ∀ task ∈ s'.evicted, task ∈ s'.activated)
    (hdropped : ∀ task, (s'.tasks task).overflowDropped = true ↔ task ∈ s'.evicted) : Ledger s' := by
  obtain ⟨hopenMade, hnotActivated, hnotAborted⟩ := (h.opened _).mp hopen
  have hmemDone (task : Nat) : task ∈ s'.activated ∨ task ∈ s'.aborted ↔
      task = reservation.taskId ∨ task ∈ s.activated ∨ task ∈ s.aborted := by
    rw [← List.mem_append, hdone.mem_iff, List.mem_cons, List.mem_append]
  refine ⟨?_, ?_, ?_, ?_, ?_, hpending, hpendingNodup, ?_, ?_, hevicted, hdropped⟩
  · rw [hmade]
    exact h.ids
  · intro r
    rw [hreservations, h.openNodup.mem_erase_iff, h.opened, hmade, ← not_or, ← not_or, hmemDone]
    simp only [not_or]
    constructor
    · rintro ⟨hne, hr, hopenR⟩
      exact ⟨hr, fun hid => hne (h.eq_of_taskId hr hopenMade hid), hopenR⟩
    · rintro ⟨hr, hid, hopenR⟩
      exact ⟨fun heq => hid (congrArg TaskReservation.taskId heq), hr, hopenR⟩
  · rw [hreservations]
    exact h.openNodup.erase _
  · intro task hmem
    rw [hdone.mem_iff, List.mem_cons] at hmem
    rw [hmade]
    rcases hmem with rfl | hmem
    · exact h.taskId_lt hopenMade
    · exact h.doneMade task hmem
  · rw [hdone.nodup_iff, List.nodup_cons, List.mem_append, not_or]
    exact ⟨⟨hnotActivated, hnotAborted⟩, h.doneOnce⟩
  · intro task
    rw [hmarks, hreservations]
    exact h.mem_unmark hopen task
  · rw [hreservations]
    intro r hr r' hr'
    exact h.oneMark r (List.mem_of_mem_erase hr) r' (List.mem_of_mem_erase hr')

theorem Ledger.mem_open (h : Ledger s) (hmade : reservation ∈ s.made)
    (hactivated : reservation.taskId ∉ s.activated) (haborted : reservation.taskId ∉ s.aborted) :
    reservation ∈ s.reservations := (h.opened _).mpr ⟨hmade, hactivated, haborted⟩

theorem abortReservation_eq (hactivated : reservation.taskId ∉ s.activated)
    (haborted : reservation.taskId ∉ s.aborted) :
    s.abortReservation reservation =
      { s with
        reservations := s.reservations.erase reservation
        reservedOverflowVictims := s.unmark reservation.overflowVictim
        aborted := s.aborted ++ [reservation.taskId] } := by
  rw [Runtime.abortReservation, if_neg (not_or.mpr ⟨hactivated, haborted⟩)]

theorem Ledger.abort (h : Ledger s) (hopen : reservation ∈ s.reservations) :
    Ledger (s.abortReservation reservation) := by
  obtain ⟨-, hactivated, haborted⟩ := (h.opened _).mp hopen
  rw [abortReservation_eq hactivated haborted]
  refine h.close hopen rfl rfl rfl ?_ h.pendingActivated h.pendingNodup h.evictedActivated h.dropped
  change (s.activated ++ (s.aborted ++ [reservation.taskId])).Perm _
  rw [← List.append_assoc]
  exact List.perm_append_singleton _ _

theorem activate_eq (hopen : reservation ∈ s.reservations)
    (hactivated : reservation.taskId ∉ s.activated) (haborted : reservation.taskId ∉ s.aborted)
    (h : s.activate reservation = .ok s') :
    s' =
      { s with
        tasks := s.drop (s.victimOf reservation)
        pending := s.pending ++ [reservation.taskId]
        reservations := s.reservations.erase reservation
        reservedOverflowVictims := s.unmark reservation.overflowVictim
        activated := s.activated ++ [reservation.taskId]
        evicted := s.evicted ++ (s.victimOf reservation).toList } := by
  rw [Runtime.activate, if_neg haborted, if_neg hactivated, if_neg (not_not.mpr hopen)] at h
  exact (Except.ok.inj h).symm

theorem victimOf_eq_some : s.victimOf reservation = some victim ↔
    reservation.overflowVictim = some victim ∧ s.isQueued victim = true ∧ victim ∈ s.pending := by
  rw [Runtime.victimOf, Option.filter_eq_some_iff, Bool.and_eq_true, decide_eq_true_eq]

theorem overflowDropped_drop (victim : Option Nat) (task : Nat) :
    (s.drop victim task).overflowDropped = true ↔
      victim = some task ∨ (s.tasks task).overflowDropped = true := by
  cases victim with
  | none => simp [Runtime.drop]
  | some dropped =>
      change ((Function.update s.tasks dropped _) task).overflowDropped = true ↔ _
      by_cases heq : task = dropped
      · subst heq
        simp
      · rw [Function.update_of_ne heq, Option.some.injEq]
        constructor
        · exact .inr
        · rintro (h | h)
          · exact absurd h.symm heq
          · exact h

theorem isQueued_drop (victim : Option Nat) (task : Nat) :
    (s.drop victim task).status = (s.tasks task).status := by
  cases victim with
  | none => rfl
  | some dropped =>
      change ((Function.update s.tasks dropped _) task).status = _
      by_cases heq : task = dropped
      · subst heq
        simp
      · rw [Function.update_of_ne heq]

theorem Ledger.activate (h : Ledger s) (hopen : reservation ∈ s.reservations)
    (hactivate : s.activate reservation = .ok s') : Ledger s' := by
  obtain ⟨-, hactivated, haborted⟩ := (h.opened _).mp hopen
  rw [activate_eq hopen hactivated haborted hactivate]
  refine h.close hopen rfl rfl rfl ?_ ?_ ?_ ?_ ?_
  · change (s.activated ++ [reservation.taskId] ++ s.aborted).Perm _
    rw [List.append_assoc]
    exact List.perm_middle
  · intro task hmem
    exact List.mem_append.mpr ((List.mem_append.mp hmem).imp_left (h.pendingActivated task))
  · change (s.pending ++ [reservation.taskId]).Nodup
    rw [List.nodup_append_comm]
    apply List.nodup_cons.mpr
    exact ⟨fun hmem => hactivated (h.pendingActivated _ hmem), h.pendingNodup⟩
  · intro task hmem
    change task ∈ s.activated ++ [reservation.taskId]
    rw [List.mem_append]
    left
    rcases List.mem_append.mp hmem with hmem | hmem
    · exact h.evictedActivated task hmem
    · rw [Option.mem_toList] at hmem
      exact h.pendingActivated task (victimOf_eq_some.mp hmem).2.2
  · intro task
    change (s.drop (s.victimOf reservation) task).overflowDropped = true ↔
      task ∈ s.evicted ++ (s.victimOf reservation).toList
    rw [overflowDropped_drop, h.dropped, List.mem_append, Option.mem_toList, or_comm]

theorem oldestQueued_eq_some (h : s.oldestQueued = some victim) :
    victim ∈ s.pending ∧ victim ∉ s.reservedOverflowVictims ∧ s.isQueued victim = true := by
  have hmem := List.mem_of_find?_eq_some h
  rw [Runtime.unmarked, List.mem_filter, decide_eq_true_eq] at hmem
  exact ⟨hmem.1, hmem.2, List.find?_some h⟩

theorem ledger_step {a : Action} (h : Ledger s) (hstep : step maxPending s a = some s') :
    Ledger s' := by
  cases effect_of_step hstep with
  | none => exact h
  | grant _ => exact h.addReservation fun _ hnone => by cases hnone
  | displace holdest _ =>
      apply h.addReservation
      intro task htask
      rw [← Option.some.inj htask]
      exact (oldestQueued_eq_some holdest).2.1
  | activate hopen hactivate _ _ => exact h.activate hopen hactivate
  | abort hmade hactivated haborted => exact h.abort (h.mem_open hmade hactivated haborted)
  | advance hadvances => exact h.advances hadvances

end Ledger

/-! ### The bound -/

def Runtime.waiting (s : Runtime) : List Nat :=
  s.pending.filter fun task => s.isQueued task && !(s.tasks task).overflowDropped &&
    decide (task ∉ s.reservedOverflowVictims)

structure Bounded (maxPending : Nat) (s : Runtime) : Prop where
  bound : s.waiting.length + s.reservations.length ≤ maxPending
  evictedOnce : s.evicted.Nodup
  victimFresh : ∀ reservation ∈ s.reservations, ∀ victim,
    reservation.overflowVictim = some victim → victim ∉ s.evicted

def freshVictim (maxPending : Nat) (s : Runtime) (a : Action) : Prop :=
  a = .reserve .dropOldest → s.isFull maxPending = true →
    ∀ victim, s.oldestQueued = some victim → (s.tasks victim).overflowDropped = false

instance (maxPending : Nat) (s : Runtime) (a : Action) : Decidable (freshVictim maxPending s a) := by
  unfold freshVictim
  cases s.oldestQueued with
  | none => exact .isTrue fun _ _ _ h => by cases h
  | some victim =>
      exact decidable_of_iff (a = .reserve .dropOldest → s.isFull maxPending = true →
          (s.tasks victim).overflowDropped = false)
        ⟨fun h ha hfull other hother => Option.some.inj hother ▸ h ha hfull,
          fun h ha hfull => h ha hfull victim rfl⟩

section Bounded

variable {s s' : Runtime} {maxPending : Nat} {reservation : TaskReservation} {victim : Nat}

theorem bounded_of_initial (h : initial s) : Bounded maxPending s := by
  obtain ⟨hpending, hopen, -, -, -, -, hevicted, -⟩ := h
  refine ⟨?_, ?_, ?_⟩
  · simp [Runtime.waiting, hpending, hopen]
  · simp [hevicted]
  · simp [hopen]

theorem waiting_length (s : Runtime) : s.waiting.length =
    s.pending.countP fun task => s.isQueued task && !(s.tasks task).overflowDropped &&
      decide (task ∉ s.reservedOverflowVictims) := by
  rw [List.countP_eq_length_filter, Runtime.waiting]

def Runtime.Waits (s : Runtime) (task : Nat) : Prop :=
  s.isQueued task = true ∧ (s.tasks task).overflowDropped = false ∧
    task ∉ s.reservedOverflowVictims

theorem waits_iff {task : Nat} : (s.isQueued task && !(s.tasks task).overflowDropped &&
    decide (task ∉ s.reservedOverflowVictims)) = true ↔ s.Waits task := by
  simp [Runtime.Waits, and_assoc]

theorem waiting_length_le (hpending : s'.pending.Sublist s.pending)
    (hwaits : ∀ task ∈ s'.pending, s'.Waits task → s.Waits task) :
    s'.waiting.length ≤ s.waiting.length := by
  rw [waiting_length, waiting_length]
  refine le_trans ?_ hpending.countP_le
  apply List.countP_mono_left
  intro task hmem htask
  exact waits_iff.mpr (hwaits task hmem (waits_iff.mp htask))

theorem waiting_length_lt (hnodup : s.pending.Nodup) (hpending : s'.pending = s.pending)
    (hmem : victim ∈ s.pending) (hbefore : s.Waits victim) (hafter : ¬ s'.Waits victim)
    (hwaits : ∀ task ∈ s'.pending, s'.Waits task → s.Waits task) :
    s'.waiting.length + 1 ≤ s.waiting.length := by
  have hsubset : s'.waiting ⊆ s.waiting.erase victim := by
    intro task htask
    rw [Runtime.waiting, List.mem_filter, waits_iff] at htask
    rw [Runtime.waiting, (hnodup.filter _).mem_erase_iff, List.mem_filter, waits_iff]
    refine ⟨?_, hpending ▸ htask.1, hwaits task htask.1 htask.2⟩
    rintro rfl
    exact hafter htask.2
  have hnodup' : s'.waiting.Nodup := by
    rw [Runtime.waiting, hpending]
    exact hnodup.filter _
  have hle := (hnodup'.subperm hsubset).length_le
  have hvictim : victim ∈ s.waiting := by
    rw [Runtime.waiting, List.mem_filter, waits_iff]
    exact ⟨hmem, hbefore⟩
  rw [List.length_erase_of_mem hvictim] at hle
  have hpos := List.length_pos_of_mem hvictim
  omega

theorem Bounded.addReservation (h : Bounded maxPending s) {marked : Option Nat}
    (hroom : (s.addReservation marked).waiting.length + s.reservations.length + 1 ≤ maxPending)
    (hfresh : ∀ task, marked = some task → task ∉ s.evicted) :
    Bounded maxPending (s.addReservation marked) := by
  refine ⟨?_, h.evictedOnce, ?_⟩
  · change _ + (s.reservations ++ [_]).length ≤ maxPending
    rw [List.length_append, List.length_singleton]
    omega
  · intro r hr task htask
    rcases List.mem_append.mp hr with hr | hr
    · exact h.victimFresh r hr task htask
    · rw [List.mem_singleton.mp hr] at htask
      exact hfresh task htask

theorem waits_of_addReservation (hledger : Ledger s) {marked : Option Nat} {task : Nat}
    (hmem : task ∈ s.pending) (h : (s.addReservation marked).Waits task) :
    s.Waits task ∧ marked ≠ some task := by
  have hne : task ≠ s.made.length := by
    rintro rfl
    apply Nat.lt_irrefl s.made.length
    exact hledger.doneMade _ (List.mem_append_left _ (hledger.pendingActivated _ hmem))
  obtain ⟨hqueued, hdropped, hmark⟩ := h
  simp only [Runtime.addReservation, Runtime.isQueued, Function.update_of_ne hne] at hqueued hdropped
  cases marked with
  | none => exact ⟨⟨hqueued, hdropped, hmark⟩, fun heq => by cases heq⟩
  | some victim =>
      change task ∉ insert victim s.reservedOverflowVictims at hmark
      rw [Finset.mem_insert, not_or] at hmark
      refine ⟨⟨hqueued, hdropped, hmark.2⟩, fun heq => ?_⟩
      exact hmark.1 (Option.some.inj heq).symm

theorem bounded_advances (h : Bounded maxPending s) (hadvances : Advances s s') :
    Bounded maxPending s' := by
  refine ⟨?_, ?_, ?_⟩
  · have hle : s'.waiting.length ≤ s.waiting.length := by
      apply waiting_length_le hadvances.pending
      rintro task - ⟨hqueued, hdropped, hmark⟩
      exact ⟨hadvances.queued task hqueued, hadvances.dropped task ▸ hdropped,
        hadvances.marks ▸ hmark⟩
    have hbound := h.bound
    rw [hadvances.reservations]
    omega
  · rw [hadvances.evicted]
    exact h.evictedOnce
  · rw [hadvances.reservations, hadvances.evicted]
    exact h.victimFresh

theorem mem_unmark_of_ne {marked : Option Nat} {task : Nat} (hne : marked ≠ some task) :
    task ∈ s.unmark marked ↔ task ∈ s.reservedOverflowVictims := by
  cases marked with
  | none => rfl
  | some victim =>
      change task ∈ s.reservedOverflowVictims.erase victim ↔ _
      rw [Finset.mem_erase]
      exact and_iff_right fun heq => hne (congrArg some heq.symm)

theorem bounded_activate (hledger : Ledger s) (h : Bounded maxPending s)
    (hopen : reservation ∈ s.reservations) (hactivate : s.activate reservation = .ok s') :
    Bounded maxPending s' := by
  obtain ⟨-, hactivated, haborted⟩ := (hledger.opened _).mp hopen
  have hlength := List.length_erase_of_mem hopen
  have hpos := List.length_pos_of_mem hopen
  rw [activate_eq hopen hactivated haborted hactivate]
  refine ⟨?_, ?_, ?_⟩
  · rw [waiting_length]
    change (s.pending ++ [reservation.taskId]).countP _ + (s.reservations.erase reservation).length ≤ _
    rw [List.countP_append, hlength]
    have hone := List.countP_le_length (l := [reservation.taskId]) (p := fun task =>
      decide ((s.drop (s.victimOf reservation) task).status = .queued) &&
        !(s.drop (s.victimOf reservation) task).overflowDropped &&
          decide (task ∉ s.unmark reservation.overflowVictim))
    have hold : s.pending.countP (fun task =>
        decide ((s.drop (s.victimOf reservation) task).status = .queued) &&
          !(s.drop (s.victimOf reservation) task).overflowDropped &&
            decide (task ∉ s.unmark reservation.overflowVictim)) ≤ s.waiting.length := by
      rw [waiting_length]
      apply List.countP_mono_left
      intro task hmem htask
      simp only [Bool.and_eq_true, decide_eq_true_eq, Bool.not_eq_true', isQueued_drop] at htask
      obtain ⟨⟨hqueued, hdropped⟩, hmark⟩ := htask
      rw [← Bool.not_eq_true, overflowDropped_drop, not_or] at hdropped
      have hne : reservation.overflowVictim ≠ some task := by
        intro hvictim
        apply hdropped.1
        exact victimOf_eq_some.mpr ⟨hvictim, by simpa [Runtime.isQueued] using hqueued, hmem⟩
      rw [mem_unmark_of_ne hne] at hmark
      exact waits_iff.mpr ⟨by simpa [Runtime.isQueued] using hqueued, by simpa using hdropped.2, hmark⟩
    have hbound := h.bound
    have hsingle : [reservation.taskId].length = 1 := rfl
    simp only [Runtime.isQueued] at hone hold ⊢
    omega
  · change (s.evicted ++ (s.victimOf reservation).toList).Nodup
    cases hvictim : s.victimOf reservation with
    | none => simpa using h.evictedOnce
    | some victim =>
        rw [Option.toList_some, List.nodup_append_comm]
        apply List.nodup_cons.mpr
        exact ⟨h.victimFresh reservation hopen victim (victimOf_eq_some.mp hvictim).1, h.evictedOnce⟩
  · intro r hr victim hvictim hmem
    have hr : r ∈ s.reservations.erase reservation := hr
    obtain ⟨hne, hr⟩ := hledger.openNodup.mem_erase_iff.mp hr
    rcases List.mem_append.mp hmem with hmem | hmem
    · exact h.victimFresh r hr victim hvictim hmem
    · rw [Option.mem_toList] at hmem
      exact hne (hledger.oneMark r hr reservation hopen victim hvictim (victimOf_eq_some.mp hmem).1)

theorem bounded_abort (hledger : Ledger s) (h : Bounded maxPending s)
    (hopen : reservation ∈ s.reservations) : Bounded maxPending (s.abortReservation reservation) := by
  obtain ⟨-, hactivated, haborted⟩ := (hledger.opened _).mp hopen
  have hlength := List.length_erase_of_mem hopen
  have hpos := List.length_pos_of_mem hopen
  have hbound := h.bound
  rw [abortReservation_eq hactivated haborted]
  refine ⟨?_, h.evictedOnce, fun r hr => h.victimFresh r (List.mem_of_mem_erase hr)⟩
  generalize hafter : Runtime.waiting _ = waiting
  -- at most the victim waits again
  have hsubset : waiting ⊆ reservation.overflowVictim.toList ++ s.waiting := by
    intro task htask
    rw [← hafter, Runtime.waiting, List.mem_filter, waits_iff] at htask
    obtain ⟨hmem, hqueued, hdropped, hmark⟩ := htask
    rw [List.mem_append, Option.mem_toList]
    by_cases heq : reservation.overflowVictim = some task
    · exact .inl heq
    · right
      rw [Runtime.waiting, List.mem_filter, waits_iff]
      exact ⟨hmem, hqueued, hdropped, fun hbefore => hmark ((mem_unmark_of_ne heq).mpr hbefore)⟩
  have hnodup : waiting.Nodup := by
    rw [← hafter]
    exact hledger.pendingNodup.filter _
  have hle := (hnodup.subperm hsubset).length_le
  have hone : reservation.overflowVictim.toList.length ≤ 1 := by
    cases reservation.overflowVictim <;> simp
  rw [List.length_append] at hle
  change waiting.length + (s.reservations.erase reservation).length ≤ maxPending
  omega

theorem bounded_step {a : Action} (hledger : Ledger s) (h : Bounded maxPending s)
    (hguard : freshVictim maxPending s a) (hstep : step maxPending s a = some s') :
    Bounded maxPending s' := by
  cases effect_of_step hstep with
  | none => exact h
  | grant hroom =>
      apply h.addReservation ?_ fun _ hnone => by cases hnone
      have hle : (s.addReservation none).waiting.length ≤ s.unmarked.length := by
        rw [waiting_length, Runtime.unmarked, ← List.countP_eq_length_filter]
        apply List.countP_mono_left
        intro task _ htask
        rw [Bool.and_eq_true] at htask
        exact htask.2
      have hlt : ¬ maxPending ≤ s.unmarked.length + s.reservations.length := by
        simpa [Runtime.isFull] using hroom
      omega
  | displace holdest hfull =>
      rename_i victim
      obtain ⟨hmem, hmark, hqueued⟩ := oldestQueued_eq_some holdest
      have hdropped := hguard rfl hfull victim holdest
      apply h.addReservation
      · have hlt : (s.addReservation (some victim)).waiting.length + 1 ≤ s.waiting.length := by
          refine waiting_length_lt hledger.pendingNodup rfl hmem ⟨hqueued, hdropped, hmark⟩ ?_ ?_
          · intro hwaits
            exact (waits_of_addReservation hledger hmem hwaits).2 rfl
          · intro task htask hwaits
            exact (waits_of_addReservation hledger htask hwaits).1
        have hbound := h.bound
        omega
      · intro task htask hevicted
        rw [← Option.some.inj htask, ← hledger.dropped, hdropped] at hevicted
        cases hevicted
  | activate hopen hactivate _ _ => exact bounded_activate hledger h hopen hactivate
  | abort hmade hactivated haborted =>
      exact bounded_abort hledger h (hledger.mem_open hmade hactivated haborted)
  | advance hadvances => exact bounded_advances h hadvances

theorem ledger_of_reach {guard : Runtime → Action → Prop}
    (h : Reach initial (step maxPending) guard s) : Ledger s := by
  apply h.invariant
  · intro s hs
    exact ledger_of_initial hs
  · intro s a s' hledger _ hstep
    exact ledger_step hledger hstep

theorem bounded_of_reach (h : Reach initial (step maxPending) (freshVictim maxPending) s) :
    Bounded maxPending s := by
  apply h.strengthen
  · intro s hs
    exact ledger_of_reach hs
  · intro s hs
    exact bounded_of_initial hs
  · intro s a s' hledger hbounded hguard hstep
    exact bounded_step hledger hbounded hguard hstep

end Bounded

end OpenStarry.Admission
