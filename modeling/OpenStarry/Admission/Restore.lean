import OpenStarry.Admission.Bound

/-!
# Aborting a reservation

A reservation that is aborted leaves no trace: the queue, the open reservations and the marks are
those of the same history without it.
-/

namespace OpenStarry.Admission

open Lib Session

def leaves (reservation : TaskReservation) : Action → Prop
  | .reserve _ => False
  | .activate other => other ≠ reservation
  | .abort other => other ≠ reservation
  | _ => True

/-- The second state is the first one with one more open reservation. -/
structure Carries (reservation : TaskReservation) (s t : Runtime) : Prop where
  tasks : ∀ task, task ≠ reservation.taskId → t.tasks task = s.tasks task
  pending : t.pending = s.pending
  fresh : reservation.taskId ∉ s.activated
  opened : reservation.taskId ∉ s.aborted
  queue : ∀ task ∈ s.pending, task ≠ reservation.taskId
  reservations : t.reservations.erase reservation = s.reservations
  marks : t.unmark reservation.overflowVictim = s.reservedOverflowVictims
  made : t.made = s.made ++ [reservation]
  activated : t.activated = s.activated
  aborted : t.aborted = s.aborted

section Carries

variable {reservation other : TaskReservation} {s t t' : Runtime} {maxPending : Nat}

theorem Carries.mem_made (h : Carries reservation s t) (hne : other ≠ reservation)
    (hmade : other ∈ t.made) : other ∈ s.made := by
  rw [h.made, List.mem_append, List.mem_singleton] at hmade
  exact hmade.resolve_right hne

theorem unmark_comm (t : Runtime) (first second : Option Nat) :
    Runtime.unmark { t with reservedOverflowVictims := t.unmark first } second =
      Runtime.unmark { t with reservedOverflowVictims := t.unmark second } first := by
  cases first with
  | none => cases second <;> rfl
  | some a =>
      cases second with
      | none => rfl
      | some b => exact Finset.erase_right_comm

theorem Carries.unmark (h : Carries reservation s t) (victim : Option Nat) :
    Runtime.unmark { t with reservedOverflowVictims := t.unmark victim } reservation.overflowVictim =
      s.unmark victim := by
  rw [unmark_comm, h.marks]
  rfl

theorem Carries.victimOf (h : Carries reservation s t) : t.victimOf other = s.victimOf other := by
  have hsame (task : Nat) : (t.isQueued task && decide (task ∈ t.pending)) =
      (s.isQueued task && decide (task ∈ s.pending)) := by
    rw [h.pending]
    by_cases hmem : task ∈ s.pending
    · rw [Runtime.isQueued, Runtime.isQueued, h.tasks task (h.queue task hmem)]
    · simp [hmem]
  rw [Runtime.victimOf, Runtime.victimOf]
  cases other.overflowVictim with
  | none => rfl
  | some task => rw [Option.filter_some, Option.filter_some, hsame]

theorem Carries.update (h : Carries reservation s t) {task : Nat} (hdriven : task ∈ s.activated)
    (after : RuntimeTask) {pending pending' : List Nat} (hpending : pending' = pending)
    (hqueue : ∀ task ∈ pending, task ∈ s.pending) :
    Carries reservation { s with tasks := Function.update s.tasks task after, pending := pending }
      { t with tasks := Function.update t.tasks task after, pending := pending' } := by
  refine ⟨fun other hne => ?_, hpending, h.fresh, h.opened,
    fun other hmem => h.queue other (hqueue other hmem), h.reservations, h.marks, h.made, h.activated,
    h.aborted⟩
  by_cases heq : other = task
  · subst heq
    simp
  · simp only [Function.update_of_ne heq]
    exact h.tasks other hne

theorem Carries.drop (h : Carries reservation s t) {victim : Option Nat}
    (hvictim : ∀ task, victim = some task → task ≠ reservation.taskId) (task : Nat)
    (hne : task ≠ reservation.taskId) : t.drop victim task = s.drop victim task := by
  cases victim with
  | none => exact h.tasks task hne
  | some dropped =>
      change Function.update t.tasks dropped _ task = Function.update s.tasks dropped _ task
      rw [h.tasks dropped (hvictim dropped rfl)]
      by_cases heq : task = dropped
      · subst heq
        simp
      · rw [Function.update_of_ne heq, Function.update_of_ne heq]
        exact h.tasks task hne

theorem Carries.abort (h : Carries reservation s t) (hid : other.taskId ≠ reservation.taskId) :
    Carries reservation (s.abortReservation other) (t.abortReservation other) := by
  unfold Runtime.abortReservation
  rw [h.activated, h.aborted]
  split_ifs
  · exact h
  · refine ⟨h.tasks, h.pending, h.fresh, ?_, h.queue, ?_, h.unmark _, h.made, rfl, rfl⟩
    · change _ ∉ s.aborted ++ [other.taskId]
      rw [List.mem_append, List.mem_singleton, not_or]
      exact ⟨h.opened, hid.symm⟩
    · change (t.reservations.erase other).erase reservation = s.reservations.erase other
      rw [List.erase_comm, h.reservations]

theorem Carries.mem_reservations (h : Carries reservation s t) (hne : other ≠ reservation) :
    other ∈ t.reservations ↔ other ∈ s.reservations := by
  rw [← h.reservations, List.mem_erase_of_ne hne]

theorem Carries.activate (h : Carries reservation s t) (hne : other ≠ reservation)
    (hid : other.taskId ≠ reservation.taskId) :
    Carries reservation (kept s (s.activate other)) (kept t (t.activate other)) := by
  unfold Runtime.activate
  rw [h.activated, h.aborted]
  by_cases haborted : other.taskId ∈ s.aborted
  · rw [if_pos haborted, if_pos haborted]
    exact h
  rw [if_neg haborted, if_neg haborted]
  by_cases hactivated : other.taskId ∈ s.activated
  · rw [if_pos hactivated, if_pos hactivated]
    exact h
  rw [if_neg hactivated, if_neg hactivated]
  by_cases hopen : other ∈ s.reservations
  · rw [if_neg (not_not.mpr hopen), if_neg (not_not.mpr ((h.mem_reservations hne).mpr hopen))]
    refine ⟨fun task htask => ?_, ?_, ?_, h.opened, ?_, ?_, h.unmark _, h.made, rfl, rfl⟩
    · change t.drop (t.victimOf other) task = s.drop (s.victimOf other) task
      rw [h.victimOf]
      refine h.drop (fun victim hvictim => ?_) task htask
      exact h.queue victim (victimOf_eq_some.mp hvictim).2.2
    · change t.pending ++ _ = s.pending ++ _
      rw [h.pending]
    · change _ ∉ s.activated ++ [other.taskId]
      rw [List.mem_append, List.mem_singleton, not_or]
      exact ⟨h.fresh, hid.symm⟩
    · intro task hmem
      rcases List.mem_append.mp hmem with hmem | hmem
      · exact h.queue task hmem
      · rw [List.mem_singleton.mp hmem]
        exact hid
    · change (t.reservations.erase other).erase reservation = s.reservations.erase other
      rw [List.erase_comm, h.reservations]
  · rw [if_pos hopen, if_pos fun hmem => hopen ((h.mem_reservations hne).mp hmem)]
    exact h

theorem Carries.step (hledger : Ledger t) (h : Carries reservation s t) {a : Action}
    (ha : leaves reservation a) (hstep : step maxPending t a = some t') :
    ∃ s', Admission.step maxPending s a = some s' ∧ Carries reservation s' t' := by
  have htask {task : Nat} (hmem : task ∈ s.activated) : t.tasks task = s.tasks task :=
    h.tasks task fun heq => h.fresh (heq ▸ hmem)
  have hid {other : TaskReservation} (hmade : other ∈ t.made) (hne : other ≠ reservation) :
      other.taskId ≠ reservation.taskId := by
    intro hid
    apply hne
    apply hledger.eq_of_taskId hmade ?_ hid
    rw [h.made]
    exact List.mem_append_right _ (List.mem_singleton_self _)
  cases a with
  | reserve policy => exact ha.elim
  | activate other =>
      rw [Admission.step] at hstep
      split_ifs at hstep with hmade
      rw [Option.some.injEq] at hstep
      subst hstep
      have hmem := h.mem_made ha hmade
      exact ⟨kept s (s.activate other), by rw [Admission.step, if_pos hmem],
        h.activate ha (hid hmade ha)⟩
  | abort other =>
      rw [Admission.step] at hstep
      split_ifs at hstep with hmade
      rw [Option.some.injEq] at hstep
      subst hstep
      have hmem := h.mem_made ha hmade
      exact ⟨s.abortReservation other, by rw [Admission.step, if_pos hmem], h.abort (hid hmade ha)⟩
  | start task =>
      rw [Admission.step, h.activated] at hstep
      split_ifs at hstep with hdriven
      rw [Option.some.injEq] at hstep
      subst hstep
      refine ⟨s.markRunning task, by rw [Admission.step, if_pos hdriven], ?_⟩
      unfold Runtime.markRunning
      rw [htask hdriven]
      split_ifs
      · exact h
      · apply h.update hdriven
        · rw [h.pending]
        · exact fun _ hmem => List.mem_of_mem_erase hmem
  | requestCancel task =>
      rw [Admission.step, h.activated] at hstep
      split_ifs at hstep with hdriven
      rw [Option.some.injEq] at hstep
      subst hstep
      refine ⟨s.requestCancel task, by rw [Admission.step, if_pos hdriven], ?_⟩
      unfold Runtime.requestCancel
      rw [htask hdriven]
      exact h.update hdriven _ h.pending fun _ hmem => hmem
  | markTerminal task status =>
      rw [Admission.step, h.activated] at hstep
      split_ifs at hstep with hguard
      rw [Option.some.injEq] at hstep
      subst hstep
      refine ⟨s.markTerminal task status, by rw [Admission.step, if_pos hguard], ?_⟩
      unfold Runtime.markTerminal
      rw [htask hguard.1]
      exact h.update hguard.1 _ h.pending fun _ hmem => hmem
  | settle task =>
      rw [Admission.step, h.activated] at hstep
      split_ifs at hstep with hguard
      rw [Option.some.injEq] at hstep
      subst hstep
      have hguard' : task ∈ s.activated ∧ (s.tasks task).status.isLive = false := by
        rw [← htask hguard.1]
        exact hguard
      refine ⟨s.settle task, by rw [Admission.step, if_pos hguard'], ?_⟩
      refine ⟨h.tasks, ?_, h.fresh, h.opened, fun other hmem => h.queue other (List.mem_of_mem_erase hmem),
        h.reservations, h.marks, h.made, h.activated, h.aborted⟩
      change t.pending.erase task = s.pending.erase task
      rw [h.pending]

theorem Carries.run (hledger : Ledger t) (h : Carries reservation s t) {actions : List Action}
    (hactions : ∀ a ∈ actions, leaves reservation a)
    (hrun : runActions (Admission.step maxPending) actions t = some t') :
    ∃ s', runActions (Admission.step maxPending) actions s = some s' ∧ Carries reservation s' t' := by
  induction actions generalizing s t with
  | nil =>
      rw [runActions_nil, Option.some.injEq] at hrun
      exact ⟨s, rfl, hrun ▸ h⟩
  | cons a rest ih =>
      obtain ⟨ha, hrest⟩ := List.forall_mem_cons.mp hactions
      rw [runActions_cons, Option.bind_eq_some_iff] at hrun
      obtain ⟨middle, hmiddle, hrun⟩ := hrun
      obtain ⟨s₁, hs₁, hcarries⟩ := h.step hledger ha hmiddle
      obtain ⟨s', hs', hcarries'⟩ := ih (ledger_step hledger hmiddle) hcarries hrest hrun
      exact ⟨s', by rw [runActions_cons, hs₁, Option.bind_some, hs'], hcarries'⟩

theorem Ledger.carries_addReservation (h : Ledger s) {victim : Option Nat}
    (hfresh : ∀ task, victim = some task → task ∉ s.reservedOverflowVictims) :
    Carries ⟨s.made.length, victim⟩ s (s.addReservation victim) := by
  have hnew : s.made.length ∉ s.activated :=
    fun hmem => Nat.lt_irrefl _ (h.doneMade _ (List.mem_append_left _ hmem))
  have hopen : s.made.length ∉ s.aborted :=
    fun hmem => Nat.lt_irrefl _ (h.doneMade _ (List.mem_append_right _ hmem))
  refine ⟨fun task hne => Function.update_of_ne hne _ _, rfl, hnew, hopen, ?_, ?_, ?_, rfl, rfl, rfl⟩
  · rintro task hmem rfl
    exact hnew (h.pendingActivated _ hmem)
  · have hnot : (⟨s.made.length, victim⟩ : TaskReservation) ∉ s.reservations := by
      intro hmem
      exact Nat.lt_irrefl _ (h.taskId_lt ((h.opened _).mp hmem).1)
    change (s.reservations ++ [_]).erase _ = s.reservations
    rw [List.erase_append_right _ hnot]
    simp
  · cases victim with
    | none => rfl
    | some task => exact Finset.erase_insert (hfresh task rfl)

theorem carries_of_reserve (h : Ledger s) {policy : PendingOverflowPolicy}
    (hstep : step maxPending s (.reserve policy) = some t) (hmade : t.made = s.made ++ [reservation]) :
    Carries reservation s t := by
  have hcarried {victim : Option Nat}
      (hfresh : ∀ task, victim = some task → task ∉ s.reservedOverflowVictims)
      (hmade : (s.addReservation victim).made = s.made ++ [reservation]) :
      Carries reservation s (s.addReservation victim) := by
    have heq : (⟨s.made.length, victim⟩ : TaskReservation) = reservation := by
      have hlast : [(⟨s.made.length, victim⟩ : TaskReservation)] = [reservation] :=
        List.append_cancel_left hmade
      exact (List.cons.inj hlast).1
    exact heq ▸ h.carries_addReservation hfresh
  have hstay (heq : s.made = s.made ++ [reservation]) : False := by
    have hlength := congrArg List.length heq
    rw [List.length_append, List.length_singleton] at hlength
    omega
  rw [step, Option.some.injEq] at hstep
  subst hstep
  unfold Runtime.reserve at hmade ⊢
  cases hfull : s.isFull maxPending with
  | false =>
      rw [hfull, if_neg Bool.false_ne_true] at hmade
      rw [if_neg Bool.false_ne_true]
      exact hcarried (fun _ hnone => by cases hnone) hmade
  | true =>
      rw [hfull, if_pos rfl] at hmade
      rw [if_pos rfl]
      cases policy with
      | rejectNewest => exact (hstay hmade).elim
      | dropOldest =>
          cases holdest : s.oldestQueued with
          | none =>
              rw [holdest] at hmade
              exact (hstay hmade).elim
          | some victim =>
              rw [holdest] at hmade
              refine hcarried (fun task htask => ?_) hmade
              rw [← Option.some.inj htask]
              exact (oldestQueued_eq_some holdest).2.1

theorem Carries.aborted_eq (h : Carries reservation s t) :
    (t.abortReservation reservation).pending = s.pending ∧
      (t.abortReservation reservation).reservations = s.reservations ∧
      (t.abortReservation reservation).reservedOverflowVictims = s.reservedOverflowVictims := by
  rw [abortReservation_eq (h.activated ▸ h.fresh) (h.aborted ▸ h.opened)]
  exact ⟨h.pending, h.reservations, h.marks⟩

end Carries

/-! ### Admission in every history -/

/-- What every state keeps. -/
structure Sound (maxPending : Nat) (s : Runtime) : Prop where
  bound : s.waiting.length + s.reservations.length ≤ maxPending
  oneMark : ∀ r ∈ s.reservations, ∀ r' ∈ s.reservations, ∀ victim,
    r.overflowVictim = some victim → r'.overflowVictim = some victim → r = r'
  evictedOnce : s.evicted.Nodup
  doneOnce : (s.activated ++ s.aborted).Nodup

def Evicts (s s' : Runtime) : Prop :=
  s'.evicted = s.evicted ∨ ∃ victim, s'.evicted = s.evicted ++ [victim] ∧ victim ∈ s.pending ∧
    s.isQueued victim = true

/-- However long a reservation was open, its abort leaves what the other actions would have left
without it. -/
def AbortRestores (maxPending : Nat) (s : Runtime) : Prop :=
  ∀ (policy : PendingOverflowPolicy) (reservation : TaskReservation) (t t' : Runtime)
    (actions : List Action), step maxPending s (.reserve policy) = some t →
      t.made = s.made ++ [reservation] → (∀ a ∈ actions, leaves reservation a) →
      runActions (step maxPending) actions t = some t' →
      ∃ s', runActions (step maxPending) actions s = some s' ∧
        (t'.abortReservation reservation).pending = s'.pending ∧
        (t'.abortReservation reservation).reservations = s'.reservations ∧
        (t'.abortReservation reservation).reservedOverflowVictims = s'.reservedOverflowVictims

section Histories

variable {s s' : Runtime} {maxPending : Nat} {a : Action}

theorem evicts_of_step (hstep : step maxPending s a = some s') : Evicts s s' := by
  cases effect_of_step hstep with
  | none => exact .inl rfl
  | grant _ => exact .inl rfl
  | displace _ _ => exact .inl rfl
  | activate hopen hactivate hactivated haborted =>
      rename_i reservation
      rw [activate_eq hopen hactivated haborted hactivate]
      cases hvictim : s.victimOf reservation with
      | none =>
          left
          simp
      | some victim => exact .inr ⟨victim, by simp, (victimOf_eq_some.mp hvictim).2.symm⟩
  | abort hmade hactivated haborted =>
      rw [abortReservation_eq hactivated haborted]
      exact .inl rfl
  | advance hadvances => exact .inl hadvances.evicted

theorem abortRestores_of_ledger (h : Ledger s) : AbortRestores maxPending s := by
  intro policy reservation t t' actions hreserve hmade hactions hrun
  have hcarries := carries_of_reserve h hreserve hmade
  have hledger := ledger_step h hreserve
  obtain ⟨s', hs', hcarries'⟩ := hcarries.run hledger hactions hrun
  exact ⟨s', hs', hcarries'.aborted_eq⟩

/-- While no full queue chooses an evicted task once more, admission stays within the limit. -/
theorem queue_admission_bound (maxPending : Nat) (s : Runtime)
    (hreach : Reach initial (step maxPending) (freshVictim maxPending) s) :
    Sound maxPending s ∧ AbortRestores maxPending s ∧
      ∀ (a : Action) (s' : Runtime), step maxPending s a = some s' → Evicts s s' := by
  have hledger := ledger_of_reach hreach
  have hbounded := bounded_of_reach hreach
  refine ⟨⟨hbounded.bound, hledger.oneMark, hbounded.evictedOnce, hledger.doneOnce⟩,
    abortRestores_of_ledger hledger, fun a s' hstep => evicts_of_step hstep⟩

end Histories

/-! ### An evicted task that is chosen again -/

def empty : Runtime :=
  ⟨fun _ => ⟨.queued, false, false⟩, [], [], ∅, [], [], [], []⟩

theorem initial_empty : initial empty :=
  ⟨rfl, rfl, rfl, rfl, rfl, rfl, rfl, fun _ => rfl⟩

def displacedTwice : List Action :=
  [.reserve .dropOldest, .activate ⟨0, none⟩, .reserve .dropOldest, .activate ⟨1, some 0⟩,
    .reserve .dropOldest]

theorem one_pending_bound :
    ∃ s, runActions (guardedStep (step 1) (freshVictim 1)) (displacedTwice.take 4) empty = some s ∧
      (Sound 1 s ∧ AbortRestores 1 s ∧
        ∀ (a : Action) (s' : Runtime), step 1 s a = some s' → Evicts s s') := by
  obtain ⟨s, hs⟩ : ∃ s, runActions (guardedStep (step 1) (freshVictim 1)) (displacedTwice.take 4)
      empty = some s := Option.isSome_iff_exists.mp (by decide +kernel)
  exact ⟨s, hs, queue_admission_bound 1 s ((Reach.start initial_empty).actions hs)⟩

theorem evicted_task_is_marked :
    ¬ ∀ (maxPending : Nat) (s : Runtime), Reach initial (step maxPending) anyStep s →
      s.waiting.length + s.reservations.length ≤ maxPending := by
  intro h
  obtain ⟨s, hs⟩ : ∃ s, runActions (guardedStep (step 1) anyStep) displacedTwice empty = some s :=
    Option.isSome_iff_exists.mp (by decide +kernel)
  have hcount : (runActions (guardedStep (step 1) anyStep) displacedTwice empty).map
      (fun s => s.waiting.length + s.reservations.length) = some 2 := by
    decide +kernel
  rw [hs, Option.map_some, Option.some.injEq] at hcount
  have hbound := h 1 s ((Reach.start initial_empty).actions hs)
  omega

end OpenStarry.Admission
