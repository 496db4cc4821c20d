import OpenStarry.Debounce.Invariant

/-!
# Debounced messages over whole runs

However scheduling, cancelling and timers interleave, a message is handed on in one batch at most and
in order, or its state was taken out by `cancel`; its callback runs once at most, when nothing can be
handed on with it any more.
-/

namespace OpenStarry.Debounce

open Lib Text

variable {str : Json → Str} {s s' : Coordinator} {log : List Event} {event : Event} {id : Nat}
  {st : DebounceState}

/-! ### Steps -/

theorem modify_self (hst : s.states[id]? = some st) (f : DebounceState → DebounceState) :
    (s.modify id f).states[id]? = some (f st) := by
  rw [Coordinator.modify, List.getElem?_modify_eq, hst]
  rfl

theorem modify_others (f : DebounceState → DebounceState) (other : Nat) (hother : other ≠ id) :
    (s.modify id f).states[other]? = s.states[other]? := by
  rw [Coordinator.modify, List.getElem?_modify_ne _ _ (Ne.symm hother)]

theorem numbers_append (first second : List Arrival) :
    numbers (first ++ second) = numbers first ++ numbers second := List.map_append

theorem StateInv.callback_sublist (number : Nat) (onSettled : Bool) :
    (if onSettled then [number] else []).Sublist [number] := by
  cases onSettled
  · exact List.nil_sublist _
  · exact List.Sublist.refl _

theorem Base.settled_lt (h : Base s log) {number : Nat} (hsettled : .settled number ∈ log) :
    number < s.arrivals := by
  obtain ⟨id, st, hst, hnumber, -⟩ := h.settled number hsettled
  have hstate := h.state id st hst
  obtain ⟨arrival, harrival, rfl⟩ := List.mem_map.mp (hstate.callbacks.subset hnumber)
  exact hstate.below arrival harrival

theorem Inv.scheduleStep (h : Inv s log) (key : Str) (message : IncomingMessage) (onSettled : Bool) :
    Inv (s.schedule key message onSettled).1 (log ++ [(s.schedule key message onSettled).2]) := by
  rw [Coordinator.schedule]
  cases hlookup : s.pending.lookup key with
  | some id =>
      have hpending := Keyed.mem_of_lookup hlookup
      obtain ⟨st, hst, hkey⟩ := h.base.pendingState key id hpending
      have hstate := h.base.state id st hst
      obtain ⟨hwaiting, hrequested, hunsettled⟩ := hstate.pending key hpending
      have hbelow : ∀ number ∈ numbers st.buffer, number < s.arrivals := by
        intro number hnumber
        obtain ⟨arrival, harrival, rfl⟩ := List.mem_map.mp hnumber
        exact hstate.below arrival harrival
      refine h.schedule rfl rfl (modify_self hst _) hkey
        (List.mem_append_right _ (List.mem_singleton_self _)) (modify_others _) ?_ ?_ ?_
        h.base.pendingKeys rfl ?_
      · intro old hold
        rw [hst, Option.some.injEq] at hold
        rw [← hold]
        exact ⟨rfl, List.subset_append_left _ _, List.subset_append_left _ _, fun h => h, fun h => h⟩
      · intro number hnumber
        rw [numbers_append, List.mem_append] at hnumber
        rcases hnumber with hnumber | hnumber
        · exact Or.inr ⟨st, hst, hpending, hnumber⟩
        · exact Or.inl (List.mem_singleton.mp hnumber)
      · intro other one
        constructor
        · exact Or.inl
        · rintro (hmem | ⟨rfl, rfl⟩)
          · exact hmem
          · exact hpending
      · refine ⟨?_, ?_, ?_, ?_, ?_, fun _ _ => ⟨hwaiting, hrequested, hunsettled⟩, ?_, ?_, ?_, ?_, ?_⟩
        · exact List.append_ne_nil_of_right_ne_nil _ (List.cons_ne_nil _ _)
        · intro arrival harrival
          show arrival.number < s.arrivals + 1
          rw [List.mem_append, List.mem_singleton] at harrival
          rcases harrival with harrival | rfl
          · exact (hstate.below arrival harrival).trans (Nat.lt_succ_self _)
          · exact Nat.lt_succ_self _
        · rw [numbers_append, List.pairwise_append]
          refine ⟨hstate.sorted, List.pairwise_singleton _ _, ?_⟩
          intro number hnumber later hlater
          rw [List.mem_singleton.mp hlater]
          exact hbelow number hnumber
        · intro arrival harrival
          rw [List.mem_append, List.mem_singleton] at harrival
          rcases harrival with harrival | rfl
          · exact List.mem_append_left _ (hstate.scheduled arrival harrival)
          · rw [← hkey]
            exact List.mem_append_right _ (List.mem_singleton_self _)
        · rw [numbers_append]
          exact hstate.callbacks.append (StateInv.callback_sublist _ _)
        · left
          show (st.sessionKey, id) ∈ s.pending
          rw [hkey]
          exact hpending
        · intro other batch combined hfired
          obtain ⟨-, -, hover, -⟩ := hstate.fired other batch combined
            (mem_append_singleton Event.noConfusion hfired)
          rw [hwaiting] at hover
          cases hover
        · intro hsettled
          exact absurd (hunsettled.symm.trans hsettled) Bool.false_ne_true
        · intro _ number hnumber hsettled
          have hbefore := mem_append_singleton Event.noConfusion hsettled
          rw [List.mem_append] at hnumber
          rcases hnumber with hnumber | hnumber
          · exact hstate.unsettled hunsettled number hnumber hbefore
          · have heq := List.mem_singleton.mp ((StateInv.callback_sublist _ _).subset hnumber)
            exact absurd (h.base.settled_lt hbefore) (heq ▸ lt_irrefl _)
        · intro settler index hlock
          exact absurd (hunsettled.symm.trans (hstate.locked settler index hlock).1)
            Bool.false_ne_true
  | none =>
      have hfresh : ∀ id, (key, id) ∉ s.pending := by
        intro id hmem
        exact Keyed.lookup_eq_none_iff.mp hlookup (List.mem_map_of_mem hmem)
      have hnone : s.states[s.states.length]? = none := List.getElem?_eq_none le_rfl
      refine h.schedule rfl rfl List.getElem?_concat_length rfl
        (List.mem_singleton_self _) ?_ ?_ ?_ ?_ ?_ rfl ?_
      · intro other hother
        show (s.states ++ [_])[other]? = _
        rcases Nat.lt_or_gt_of_ne hother with hlt | hgt
        · rw [List.getElem?_append_left hlt]
        · rw [List.getElem?_append_right hgt.le, List.getElem?_eq_none, List.getElem?_eq_none hgt.le]
          simp only [List.length_singleton]
          omega
      · intro old hold
        rw [hnone] at hold
        cases hold
      · intro number hnumber
        exact Or.inl (List.mem_singleton.mp hnumber)
      · intro other one
        show _ ∈ s.pending ++ [_] ↔ _
        rw [List.mem_append, List.mem_singleton, Prod.mk.injEq]
      · show ((s.pending ++ [_]).map Prod.fst).Nodup
        rw [List.map_append, List.nodup_append]
        refine ⟨h.base.pendingKeys, List.nodup_singleton _, ?_⟩
        intro one hone other hother heq
        rw [heq, List.mem_singleton.mp hother] at hone
        exact Keyed.lookup_eq_none_iff.mp hlookup hone
      · refine ⟨List.cons_ne_nil _ _, ?_, List.pairwise_singleton _ _, ?_,
          StateInv.callback_sublist _ _, fun _ _ => ⟨rfl, rfl, rfl⟩,
          Or.inl (List.mem_append_right _ (List.mem_singleton_self _)), ?_,
          fun hsettled => Bool.noConfusion hsettled, ?_, ?_⟩
        · intro arrival harrival
          rw [List.mem_singleton.mp harrival]
          exact Nat.lt_succ_self _
        · intro arrival harrival
          rw [List.mem_singleton.mp harrival]
          exact List.mem_append_right _ (List.mem_singleton_self _)
        · intro other batch combined hfired
          obtain ⟨st, hst⟩ := h.base.known _ other batch combined
            (mem_append_singleton Event.noConfusion hfired)
          rw [hnone] at hst
          cases hst
        · intro _ number hnumber hsettled
          have heq := List.mem_singleton.mp ((StateInv.callback_sublist _ _).subset hnumber)
          have hlt := h.base.settled_lt (mem_append_singleton Event.noConfusion hsettled)
          exact absurd hlt (heq ▸ lt_irrefl _)
        · intro _ _ hlock
          cases hlock

theorem Inv.moveTask (h : Inv s log) (hst : s.states[id]? = some st)
    (f : DebounceState → DebounceState) (hmoves : Moves event id st (f st))
    (hplace : ∀ key, (key, id) ∈ s.pending →
      (f st).task.waiting = true ∧ (f st).cancelRequested = false ∧ (f st).settled = false) :
    Inv (s.modify id f) (log ++ [event]) :=
  h.move hst (modify_self hst f) (modify_others f) hmoves rfl (Or.inl rfl) hplace
    fun _ _ hcall => Or.inl hcall

/-- The calls of `cancel` go on. -/
theorem Inv.moveCall (h : Inv s log) (hstates : s'.states = s.states)
    (hpending : s'.pending = s.pending) (harrivals : s'.arrivals = s.arrivals)
    (hcalls : ∀ (call other : Nat), s'.calls[call]? = some (.settling other) →
      s.calls[call]? = some (.settling other) ∨
        ∃ st : DebounceState, s.states[other]? = some st ∧ st.task = .done) :
    Inv s' (log ++ [.quiet]) := by
  have hold : ∀ {other : Event}, other ≠ Event.quiet → other ∈ log ++ [Event.quiet] → other ∈ log :=
    fun hother hmem => mem_append_singleton hother.symm hmem
  constructor
  · constructor
    · rw [hstates]
      intro one now hnow
      apply (h.base.state one now hnow).frame harrivals.ge
      · intro key
        rw [hpending]
      · exact fun _ _ _ => Event.noConfusion
      · exact fun _ => Event.noConfusion
    · rw [hstates, hpending]
      exact h.base.pendingState
    · rw [hpending]
      exact h.base.pendingKeys
    · rw [hstates]
      exact h.base.apart
    · rw [hstates]
      exact fun key arrival hmem => h.base.home key arrival (hold Event.noConfusion hmem)
    · rw [hstates]
      exact fun one key batch combined hmem =>
        h.base.known one key batch combined (hold Event.noConfusion hmem)
    · rw [hstates]
      exact fun number hmem => h.base.settled number (hold Event.noConfusion hmem)
    · rw [hstates]
      intro call other hcall
      rcases hcalls call other hcall with hcall | hdone
      · exact h.base.joined call other hcall
      · exact hdone
  · constructor
    · rw [scheduledNumbers_append, harrivals]
      exact (List.append_nil _).trans h.order.numbered
    · rw [firedNumbers_append]
      exact (List.append_nil _).symm ▸ h.order.once
    · intro key
      rw [sessionNumbers_append]
      exact (List.append_nil _).symm ▸ h.order.ordered key
    · rw [hstates, hpending]
      intro key one now hmem hnow
      have hquiet : sessionNumbers key [.quiet] = [] := rfl
      rw [sessionNumbers_append, hquiet, List.append_nil]
      exact h.order.behind key one now hmem hnow
    · rw [settledNumbers_append]
      exact (List.append_nil _).symm ▸ h.order.settledOnce
    · exact h.order.inTime.append (fun _ _ _ _ => Event.noConfusion) fun _ => Event.noConfusion

theorem running_eq_some {task : FireTask} (h : s.running id task = some st) :
    s.states[id]? = some st ∧ st.task = task ∧ st.cancelRequested = false := by
  rw [Coordinator.running] at h
  split at h
  · cases h
  · rename_i found hfound
    split_ifs at h with htask
    rw [Option.some.injEq] at h
    rw [← h]
    exact ⟨hfound, htask⟩

theorem Base.notPending (h : Base s log) (hst : s.states[id]? = some st)
    (hlookup : s.pending.lookup st.sessionKey ≠ some id) (key : Str) : (key, id) ∉ s.pending := by
  intro hmem
  obtain ⟨found, hfound, hkey⟩ := h.pendingState key id hmem
  rw [hst, Option.some.injEq] at hfound
  rw [← hfound] at hkey
  exact hlookup ((Keyed.lookup_eq_some_iff h.pendingKeys).mpr (hkey ▸ hmem))

theorem StateInv.notPending (h : StateInv s log id st) (hwaiting : st.task.waiting = false)
    (key : Str) : (key, id) ∉ s.pending := by
  intro hmem
  rw [(h.pending key hmem).1] at hwaiting
  cases hwaiting

theorem Moves.of_task {task : FireTask}
    (hwaiting : st.task.waiting = false → task.waiting = false)
    (hfiring : task ≠ .firing) (hdone : st.task ≠ .done)
    (hended : st.task ≠ .firing ∨ event = .ended id) (hsilent : event.silent = true)
    (requested : Bool) :
    Moves event id st { st with task, cancelRequested := requested } where
  kept := ⟨rfl, rfl, rfl, fun h => h, fun heq => absurd heq hdone⟩
  silent := hsilent
  waiting := hwaiting
  ended := fun heq => Or.inr (hended.resolve_left (not_not.mpr heq))
  notFiring := fun _ => hfiring
  lock := fun _ h => h

theorem Inv.acquireStep (h : Inv s log) (hrun : s.running id .acquiring = some st) :
    Inv (s.acquire str id st).1 (log ++ [(s.acquire str id st).2]) := by
  obtain ⟨hst, htask, hrequested⟩ := running_eq_some hrun
  have hstate := h.base.state id st hst
  rw [Coordinator.acquire]
  split_ifs with hlookup
  · cases hbuffer : st.buffer with
    | nil => exact absurd hbuffer hstate.nonempty
    | cons first rest =>
        have hfire := h.fire hst (Keyed.mem_of_lookup hlookup)
          (coalesce str first.message (st.buffer.map (·.message)))
        rw [hbuffer] at hfire
        exact hfire
  · have hmoves : Moves .quiet id st { st with task := .leaving } :=
      Moves.of_task (fun _ => rfl) FireTask.noConfusion (htask ▸ FireTask.noConfusion)
        (Or.inl (htask ▸ FireTask.noConfusion)) rfl st.cancelRequested
    exact h.moveTask hst _ hmoves fun key hmem => absurd hmem (h.base.notPending hst hlookup key)

theorem Inv.waitStep (h : Inv s log) {task task' : FireTask} (hrun : s.running id task = some st)
    (hwaiting : task.waiting = true) (hwaiting' : task'.waiting = true) :
    Inv (s.setTask id task') (log ++ [.quiet]) := by
  obtain ⟨hst, rfl, hrequested⟩ := running_eq_some hrun
  have hne : st.task ≠ .firing ∧ st.task ≠ .done := by
    constructor <;>
      · intro heq
        rw [heq] at hwaiting
        cases hwaiting
  have hne' : task' ≠ .firing := by
    intro heq
    rw [heq] at hwaiting'
    cases hwaiting'
  have hmoves : Moves .quiet id st { st with task := task' } :=
    Moves.of_task (fun heq => absurd (hwaiting.symm.trans heq) Bool.false_ne_true.symm) hne' hne.2
      (Or.inl hne.1) rfl st.cancelRequested
  apply h.moveTask hst _ hmoves
  intro key hmem
  exact ⟨hwaiting', ((h.base.state id st hst).pending key hmem).2⟩

theorem Inv.finishFiringStep (h : Inv s log) (hrun : s.running id .firing = some st) :
    Inv (s.setTask id .leaving) (log ++ [.ended id]) := by
  obtain ⟨hst, htask, -⟩ := running_eq_some hrun
  have hmoves : Moves (.ended id) id st { st with task := .leaving } :=
    Moves.of_task (fun _ => rfl) FireTask.noConfusion (htask ▸ FireTask.noConfusion) (Or.inr rfl) rfl
      st.cancelRequested
  apply h.moveTask hst _ hmoves
  intro key hmem
  exact absurd hmem ((h.base.state id st hst).notPending (htask ▸ rfl) key)

theorem Inv.leaveStep (h : Inv s log) (hrun : s.running id .leaving = some st) :
    Inv (s.leave id st) (log ++ [.quiet]) := by
  obtain ⟨hst, htask, -⟩ := running_eq_some hrun
  have hgone := (h.base.state id st hst).notPending (htask ▸ rfl)
  have hlookup : s.pending.lookup st.sessionKey ≠ some id :=
    fun heq => hgone st.sessionKey (Keyed.mem_of_lookup heq)
  have hmoves : Moves .quiet id st { st with task := .settling } :=
    Moves.of_task (fun _ => rfl) FireTask.noConfusion (htask ▸ FireTask.noConfusion)
      (Or.inl (htask ▸ FireTask.noConfusion)) rfl st.cancelRequested
  rw [Coordinator.leave, if_neg hlookup]
  exact h.moveTask hst _ hmoves fun key hmem => absurd hmem (hgone key)

theorem modify_modify (f g : DebounceState → DebounceState) :
    (s.modify id f).modify id g = s.modify id (g ∘ f) := by
  rw [Coordinator.modify, Coordinator.modify, Coordinator.modify, List.modify_modify_eq]

theorem Inv.interruptStep (h : Inv s log) (hst : s.states[id]? = some st)
    (hrequested : st.cancelRequested = true) : Inv (s.interrupt id st) (log ++ [.quiet]) := by
  have hstate := h.base.state id st hst
  have hgone : ∀ key, (key, id) ∉ s.pending := by
    intro key hmem
    rw [(hstate.pending key hmem).2.1] at hrequested
    cases hrequested
  have hclear : Moves .quiet id st { st with cancelRequested := false } :=
    ⟨⟨rfl, rfl, rfl, fun h => h, fun h => h⟩, rfl, fun h => h, Or.inl, hstate.notFiring, fun _ h => h⟩
  have hmove : ∀ task : FireTask, task.waiting = false → task ≠ .firing →
      (st.task ≠ .firing ∧ st.task ≠ .done) →
      Inv ((s.modify id fun st => { st with cancelRequested := false }).setTask id task)
        (log ++ [.quiet]) := by
    intro task hwaiting hfiring hpast
    rw [Coordinator.setTask, modify_modify]
    have hmoves : Moves .quiet id st { st with task, cancelRequested := false } :=
      Moves.of_task (fun _ => hwaiting) hfiring hpast.2 (Or.inl hpast.1) rfl false
    exact h.moveTask hst _ hmoves fun key hmem => absurd hmem (hgone key)
  have hcleared := h.moveTask hst (fun st => { st with cancelRequested := false }) hclear
    fun key hmem => absurd hmem (hgone key)
  rw [Coordinator.interrupt]
  cases htask : st.task with
  | created => exact hmove .done rfl FireTask.noConfusion (by rw [htask]; decide)
  | sleeping => exact hmove .leaving rfl FireTask.noConfusion (by rw [htask]; decide)
  | acquiring => exact hmove .leaving rfl FireTask.noConfusion (by rw [htask]; decide)
  | firing => exact hcleared
  | leaving => exact hmove .done rfl FireTask.noConfusion (by rw [htask]; decide)
  | settling =>
      dsimp only
      split_ifs
      · exact hcleared
      · exact hmove .done rfl FireTask.noConfusion (by rw [htask]; decide)
  | done => exact hcleared

/-! ### Cancelling -/

theorem getElem?_setCall {call other : Nat} {progress : CancelCall} {found : Nat}
    (h : (s.setCall call progress).calls[other]? = some (.settling found)) :
    s.calls[other]? = some (.settling found) ∨ progress = .settling found := by
  rw [Coordinator.setCall, List.getElem?_set] at h
  split_ifs at h
  · exact Or.inr (Option.some.inj h)
  · exact Or.inl h

theorem Inv.removeStep (h : Inv s log) (call : Nat) (key : Str) :
    Inv (s.remove call key).1 (log ++ [(s.remove call key).2]) := by
  rw [Coordinator.remove]
  cases hlookup : s.pending.lookup key with
  | none =>
      show Inv (s.setCall call .done) (log ++ [.quiet])
      refine h.moveCall rfl rfl rfl ?_
      intro other found hcall
      exact Or.inl ((getElem?_setCall hcall).resolve_right CancelCall.noConfusion)
  | some id =>
      obtain ⟨st, hst, hkey⟩ := h.base.pendingState key id (Keyed.mem_of_lookup hlookup)
      have hwaiting := ((h.base.state id st hst).pending key (Keyed.mem_of_lookup hlookup)).1
      have hne : st.task ≠ .done ∧ st.task ≠ .firing := by
        constructor <;>
          · intro heq
            rw [heq] at hwaiting
            cases hwaiting
      dsimp only
      rw [hst]
      dsimp only
      rw [if_neg hne.1]
      have hmoves : Moves (.removed id st.buffer) id st { st with cancelRequested := true } :=
        Moves.of_task (fun h => h) hne.2 hne.1 (Or.inl hne.2) rfl true
      refine h.move hst (modify_self hst _) (modify_others _) hmoves rfl (Or.inr ⟨rfl, rfl⟩) ?_ ?_
      · intro other hmem
        exact absurd rfl (of_decide_eq_true (List.mem_filter.mp hmem).2)
      · intro other found hcall
        exact Or.inl ((getElem?_setCall hcall).resolve_right CancelCall.noConfusion)

/-! ### Settling -/

/-- A coroutine settles a state whose task is past `on_fire`. -/
theorem settlerState_eq_some (h : Base s log) {settler : Settler}
    (hsettler : s.settlerState settler = some id) (hst : s.states[id]? = some st) :
    (settler = .fire id ∧ st.task = .settling) ∨ (∃ call, settler = .cancel call) ∧ st.task = .done := by
  cases settler with
  | fire other =>
      obtain ⟨found, hrun, rfl⟩ := Option.map_eq_some_iff.mp hsettler
      obtain ⟨hfound, htask, -⟩ := running_eq_some hrun
      rw [hst, Option.some.injEq] at hfound
      rw [hfound]
      exact Or.inl ⟨rfl, htask⟩
  | cancel call =>
      rw [Coordinator.settlerState] at hsettler
      split at hsettler
      · rename_i found hcall
        rw [Option.some.injEq] at hsettler
        obtain ⟨now, hnow, hdone⟩ := h.joined call found hcall
        rw [hsettler, hst, Option.some.injEq] at hnow
        rw [hnow]
        exact Or.inr ⟨⟨call, rfl⟩, hdone⟩
      · cases hsettler

theorem Inv.endSettleStep (h : Inv s log) {settler : Settler}
    (hsettler : s.settlerState settler = some id) (hst : s.states[id]? = some st)
    (f : DebounceState → DebounceState)
    (hf : ∃ settled lock, f st = { st with settled, settleLock := lock } ∧
      (st.settled = true → settled = true) ∧ ∀ held, lock = some held → st.settleLock = some held) :
    Inv ((s.modify id f).endSettle settler) (log ++ [.quiet]) := by
  have hstate := h.base.state id st hst
  obtain ⟨settled, lock, hfst, hsettled, hlock⟩ := hf
  rcases settlerState_eq_some h.base hsettler hst with ⟨rfl, htask⟩ | ⟨⟨call, rfl⟩, htask⟩
  · rw [Coordinator.endSettle, Coordinator.setTask, modify_modify]
    have hgone := hstate.notPending (htask ▸ rfl)
    have hmoves : Moves .quiet id st { f st with task := .done } := by
      rw [hfst]
      exact ⟨⟨rfl, rfl, rfl, hsettled, fun _ => rfl⟩, rfl, fun _ => rfl,
        fun heq => absurd (htask.symm.trans heq) FireTask.noConfusion,
        fun _ => FireTask.noConfusion, hlock⟩
    exact h.moveTask hst _ hmoves fun key hmem => absurd hmem (hgone key)
  · have hgone := hstate.notPending (htask ▸ rfl)
    have hmoves : Moves .quiet id st (f st) := by
      rw [hfst]
      exact ⟨⟨rfl, rfl, rfl, hsettled, fun h => h⟩, rfl, fun h => h, Or.inl,
        fun _ => htask ▸ FireTask.noConfusion, hlock⟩
    refine h.move hst (modify_self hst f) (modify_others f) hmoves rfl (Or.inl rfl)
      (fun key hmem => absurd hmem (hgone key)) ?_
    intro other found hcall
    exact Or.inl ((getElem?_setCall hcall).resolve_right CancelCall.noConfusion)

theorem Inv.callbackStep (h : Inv s log) {settler : Settler} {index : Nat}
    (hsettler : s.settlerState settler = some id) (hst : s.states[id]? = some st)
    (hturn : st.settled = false ∧ index = 0 ∨
      ∃ holder earlier, st.settleLock = some (holder, earlier) ∧ earlier < index) :
    Inv (s.callback settler id st index).1 (log ++ [(s.callback settler id st index).2]) := by
  rw [Coordinator.callback]
  cases hnumber : st.onSettled[index]? with
  | some number =>
      apply h.settle hst hnumber _ hturn
      rcases settlerState_eq_some h.base hsettler hst with ⟨-, htask⟩ | ⟨-, htask⟩
      · rw [htask]
        exact ⟨rfl, FireTask.noConfusion⟩
      · rw [htask]
        exact ⟨rfl, FireTask.noConfusion⟩
  | none =>
      apply h.endSettleStep hsettler hst
      refine ⟨true, none, rfl, fun _ => rfl, ?_⟩
      intro _ heq
      cases heq

theorem Inv.enterSettleStep (h : Inv s log) {settler : Settler}
    (hsettler : s.settlerState settler = some id) (hst : s.states[id]? = some st) :
    Inv (s.enterSettle settler id st).1 (log ++ [(s.enterSettle settler id st).2]) := by
  rw [Coordinator.enterSettle]
  split_ifs with hsettled
  · have hend := h.endSettleStep hsettler hst (fun st => st)
      ⟨st.settled, st.settleLock, rfl, fun h => h, fun _ h => h⟩
    have hsame : (s.modify id fun st => st) = s := by
      rw [Coordinator.modify]
      congr
      exact List.modify_id id s.states
    rw [hsame] at hend
    exact hend
  · exact h.callbackStep hsettler hst (Or.inl ⟨Bool.not_eq_true _ ▸ hsettled, rfl⟩)

theorem Inv.finishCallbackStep (h : Inv s log) {settler holder : Settler} {index : Nat}
    (hsettler : s.settlerState settler = some id) (hst : s.states[id]? = some st)
    (hlock : st.settleLock = some (holder, index)) (aborts : Bool) :
    Inv (s.finishCallback settler id st index aborts).1
      (log ++ [(s.finishCallback settler id st index aborts).2]) := by
  rw [Coordinator.finishCallback]
  split_ifs
  · apply h.endSettleStep hsettler hst
    refine ⟨st.settled, none, rfl, fun h => h, ?_⟩
    intro _ heq
    cases heq
  · exact h.callbackStep hsettler hst (Or.inr ⟨holder, index, hlock, Nat.lt_succ_self index⟩)

/-- New calls of `cancel` have done nothing yet. -/
theorem Inv.startCalls (h : Inv s log) (keys : List Str) :
    Inv { s with calls := s.calls ++ keys.map .starting } (log ++ [.quiet]) := by
  refine h.moveCall rfl rfl rfl ?_
  intro call other hcall
  rw [List.getElem?_append] at hcall
  split_ifs at hcall
  · exact Or.inl hcall
  · rw [List.getElem?_map, Option.map_eq_some_iff] at hcall
    obtain ⟨key, -, heq⟩ := hcall
    cases heq

theorem Inv.step {action : Action} (h : Inv s log) (hstep : s.step str action = some (s', event)) :
    Inv s' (log ++ [event]) := by
  cases action with
  | schedule key message onSettled =>
      have hinv := h.scheduleStep key message onSettled
      rw [Option.some.inj hstep] at hinv
      exact hinv
  | cancel key =>
      cases hstep
      exact h.startCalls [key]
  | cancelAll =>
      cases hstep
      have hinv := h.startCalls (s.pending.map Prod.fst)
      rw [List.map_map] at hinv
      exact hinv
  | start id =>
      obtain ⟨st, hrun, heq⟩ := Option.map_eq_some_iff.mp hstep
      cases heq
      exact h.waitStep hrun rfl rfl
  | wake id =>
      obtain ⟨st, hrun, heq⟩ := Option.map_eq_some_iff.mp hstep
      cases heq
      exact h.waitStep hrun rfl rfl
  | acquire id =>
      obtain ⟨st, hrun, heq⟩ := Option.map_eq_some_iff.mp hstep
      have hinv := @Inv.acquireStep str _ _ _ _ h hrun
      rw [heq] at hinv
      exact hinv
  | finishFiring id =>
      obtain ⟨st, hrun, heq⟩ := Option.map_eq_some_iff.mp hstep
      cases heq
      exact h.finishFiringStep hrun
  | leave id =>
      obtain ⟨st, hrun, heq⟩ := Option.map_eq_some_iff.mp hstep
      cases heq
      exact h.leaveStep hrun
  | interrupt id =>
      rw [Coordinator.step] at hstep
      split at hstep
      · cases hstep
      · rename_i st hst
        split_ifs at hstep with hrequested
        cases hstep
        exact h.interruptStep hst hrequested
  | remove call =>
      rw [Coordinator.step] at hstep
      split at hstep
      · rename_i key hcall
        have hinv := h.removeStep call key
        rw [Option.some.inj hstep] at hinv
        exact hinv
      · cases hstep
  | join call =>
      rw [Coordinator.step] at hstep
      split at hstep
      · rename_i id hcall
        split at hstep
        · cases hstep
        · rename_i st hst
          split_ifs at hstep with hdone
          cases hstep
          refine h.moveCall rfl rfl rfl ?_
          intro other found hfound
          rcases getElem?_setCall hfound with hfound | heq
          · exact Or.inl hfound
          · cases heq
            exact Or.inr ⟨st, hst, hdone⟩
      · cases hstep
  | enterSettle settler =>
      rw [Coordinator.step] at hstep
      split at hstep
      · cases hstep
      · rename_i id hsettler
        split at hstep
        · cases hstep
        · rename_i st hst
          split_ifs at hstep
          have hinv := h.enterSettleStep hsettler hst
          rw [Option.some.inj hstep] at hinv
          exact hinv
  | finishCallback settler aborts =>
      rw [Coordinator.step] at hstep
      split at hstep
      · cases hstep
      · rename_i id hsettler
        split at hstep
        · cases hstep
        · rename_i st hst
          split at hstep
          · cases hstep
          · rename_i holder index hlock
            split_ifs at hstep
            have hinv := h.finishCallbackStep hsettler hst hlock aborts
            rw [Option.some.inj hstep] at hinv
            exact hinv

theorem Run.inv (h : Run str s log) : Inv s log := by
  induction h with
  | start =>
      constructor
      · constructor
        · intro _ _ hst
          cases hst
        · exact fun _ _ hmem => absurd hmem List.not_mem_nil
        · exact List.nodup_nil
        · intro _ _ _ _ _ hst
          cases hst
        · exact fun _ _ hmem => absurd hmem List.not_mem_nil
        · exact fun _ _ _ _ hmem => absurd hmem List.not_mem_nil
        · exact fun _ hmem => absurd hmem List.not_mem_nil
        · intro _ _ hcall
          cases hcall
      · constructor
        · rfl
        · exact List.nodup_nil
        · exact fun _ => List.Pairwise.nil
        · exact fun _ _ _ hmem => absurd hmem List.not_mem_nil
        · exact List.nodup_nil
        · intro before after number heq
          cases before <;> cases heq
  | next hrun action hstep ih => exact ih.step hstep

/-- Every message is handed on in one batch at most and in order, unless `cancel` took its state out or
its timer still runs; its callback runs once at most and never too early. -/
theorem debounced_messages (h : Run str s log) : Delivered s log := h.inv.delivered

theorem debounced_pair : ∃ s log, Run (fun _ => []) s log ∧ firedNumbers log = [0, 1] ∧
    settledNumbers log = [0] ∧ Delivered s log := by
  let message : IncomingMessage := { senderId := ['s'], channelId := ['c'], content := ['m'] }
  have hstart : Run (fun _ => []) {} [] := .start
  have hfirst := hstart.next (.schedule ['k'] message true) rfl
  have hsecond := hfirst.next (.schedule ['k'] message false) rfl
  have hcalled := hsecond.next (.cancel ['k']) rfl
  have hstarted := hcalled.next (.start 0) rfl
  have hawake := hstarted.next (.wake 0) rfl
  have hfired := hawake.next (.acquire 0) rfl
  have hlate := hfired.next (.remove 0) rfl
  have hended := hlate.next (.finishFiring 0) rfl
  have hleft := hended.next (.leave 0) rfl
  have hsettled := hleft.next (.enterSettle (.fire 0)) rfl
  exact ⟨_, _, hsettled, by decide, by decide, debounced_messages hsettled⟩

end OpenStarry.Debounce
