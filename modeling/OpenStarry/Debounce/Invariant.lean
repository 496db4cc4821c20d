import Mathlib.Data.List.Nodup
import OpenStarry.Debounce.Coordinator
import OpenStarry.Lib.Keyed

/-!
# The coordinator and its log

What the log of a run says of the messages, and the invariant that ties it to the state objects. A step
touches one state object at most; what becomes of the invariant depends on whether it schedules, hands
on, runs a callback or does none of these.
-/

namespace OpenStarry.Debounce

open Lib Text

/-! ### What a log says -/

def numbers (batch : List Arrival) : List Nat := batch.map Arrival.number

def scheduledNumbers (log : List Event) : List Nat :=
  log.flatMap fun
    | .scheduled _ arrival => [arrival.number]
    | _ => []

/-- The messages that were passed to `on_fire`, batch by batch. -/
def firedNumbers (log : List Event) : List Nat :=
  log.flatMap fun
    | .fired _ _ batch _ => numbers batch
    | _ => []

/-- The messages of one session that were passed to `on_fire`, batch by batch. -/
def sessionNumbers (sessionKey : Str) (log : List Event) : List Nat :=
  log.flatMap fun
    | .fired _ key batch _ => if key = sessionKey then numbers batch else []
    | _ => []

def settledNumbers (log : List Event) : List Nat :=
  log.flatMap fun
    | .settled number => [number]
    | _ => []

/-- Every callback runs after `on_fire` has ended for its batch, or when it can no longer start. -/
def SettledInTime (log : List Event) : Prop :=
  ∀ before after number, log = before ++ .settled number :: after →
    (∀ id key batch combined, .fired id key batch combined ∈ after → number ∉ numbers batch) ∧
    ∀ id key batch combined, .fired id key batch combined ∈ before → number ∈ numbers batch →
      .ended id ∈ before

/-- What holds of every run, message by message. -/
structure Delivered (s : Coordinator) (log : List Event) : Prop where
  numbered : scheduledNumbers log = List.range s.arrivals
  scheduled : ∀ id key batch combined, .fired id key batch combined ∈ log →
    ∀ arrival ∈ batch, .scheduled key arrival ∈ log
  once : (firedNumbers log).Nodup
  ordered : ∀ key, (sessionNumbers key log).Pairwise (· < ·)
  /-- A message is in a batch, or its state was removed, or it waits for a timer that is running. -/
  accounted : ∀ key arrival, .scheduled key arrival ∈ log →
    (∃ id batch combined, .fired id key batch combined ∈ log ∧ arrival ∈ batch) ∨
    (∃ id batch, .removed id batch ∈ log ∧ arrival ∈ batch) ∨
    ∃ (id : Nat) (st : DebounceState), (key, id) ∈ s.pending ∧ s.states[id]? = some st ∧
      arrival ∈ st.buffer ∧ st.task.waiting = true ∧ st.cancelRequested = false
  settledOnce : (settledNumbers log).Nodup
  inTime : SettledInTime log

/-- A run of the coordinator with the events of its steps. -/
inductive Run (str : Json → Str) : Coordinator → List Event → Prop where
  | start : Run str {} []
  | next {s s' : Coordinator} {log : List Event} {event : Event} (hrun : Run str s log)
      (action : Action) (hstep : s.step str action = some (s', event)) :
      Run str s' (log ++ [event])

/-! ### The invariant -/

/-- One state object agrees with the table and the log. -/
structure StateInv (s : Coordinator) (log : List Event) (id : Nat) (st : DebounceState) : Prop where
  nonempty : st.buffer ≠ []
  below : ∀ arrival ∈ st.buffer, arrival.number < s.arrivals
  sorted : (numbers st.buffer).Pairwise (· < ·)
  scheduled : ∀ arrival ∈ st.buffer, .scheduled st.sessionKey arrival ∈ log
  callbacks : st.onSettled.Sublist (numbers st.buffer)
  pending : ∀ key, (key, id) ∈ s.pending →
    st.task.waiting = true ∧ st.cancelRequested = false ∧ st.settled = false
  outcome : (st.sessionKey, id) ∈ s.pending ∨
    (∃ combined, .fired id st.sessionKey st.buffer combined ∈ log) ∨ .removed id st.buffer ∈ log
  fired : ∀ key batch combined, .fired id key batch combined ∈ log →
    key = st.sessionKey ∧ batch = st.buffer ∧ st.task.waiting = false ∧
      (st.task = .firing ∨ .ended id ∈ log)
  notFiring : st.settled = true → st.task ≠ .firing
  unsettled : st.settled = false → ∀ number ∈ st.onSettled, .settled number ∉ log
  locked : ∀ settler index, st.settleLock = some (settler, index) → st.settled = true ∧
    ∀ later number, index < later → st.onSettled[later]? = some number → .settled number ∉ log

/-- The objects, the table and the calls. -/
structure Base (s : Coordinator) (log : List Event) : Prop where
  state : ∀ (id : Nat) (st : DebounceState), s.states[id]? = some st → StateInv s log id st
  pendingState : ∀ key id, (key, id) ∈ s.pending →
    ∃ st : DebounceState, s.states[id]? = some st ∧ st.sessionKey = key
  pendingKeys : (s.pending.map Prod.fst).Nodup
  apart : ∀ (id id' : Nat) (st st' : DebounceState), id ≠ id' →
    s.states[id]? = some st → s.states[id']? = some st' →
      ∀ number ∈ numbers st.buffer, number ∉ numbers st'.buffer
  home : ∀ key arrival, .scheduled key arrival ∈ log →
    ∃ (id : Nat) (st : DebounceState),
      s.states[id]? = some st ∧ st.sessionKey = key ∧ arrival ∈ st.buffer
  known : ∀ id key batch combined, .fired id key batch combined ∈ log →
    ∃ st : DebounceState, s.states[id]? = some st
  settled : ∀ number, .settled number ∈ log →
    ∃ (id : Nat) (st : DebounceState),
      s.states[id]? = some st ∧ number ∈ st.onSettled ∧ st.settled = true
  joined : ∀ (call id : Nat), s.calls[call]? = some (.settling id) →
    ∃ st : DebounceState, s.states[id]? = some st ∧ st.task = .done

/-- The log on its own, and next to the buffers that are still in the table. -/
structure Order (s : Coordinator) (log : List Event) : Prop where
  numbered : scheduledNumbers log = List.range s.arrivals
  once : (firedNumbers log).Nodup
  ordered : ∀ key, (sessionNumbers key log).Pairwise (· < ·)
  behind : ∀ key (id : Nat) (st : DebounceState), (key, id) ∈ s.pending → s.states[id]? = some st →
    ∀ number ∈ sessionNumbers key log, ∀ later ∈ numbers st.buffer, number < later
  settledOnce : (settledNumbers log).Nodup
  inTime : SettledInTime log

structure Inv (s : Coordinator) (log : List Event) : Prop where
  base : Base s log
  order : Order s log

variable {str : Json → Str} {s s' : Coordinator} {log : List Event} {event : Event} {id : Nat}
  {st st' : DebounceState}

theorem Inv.delivered (h : Inv s log) : Delivered s log where
  numbered := h.order.numbered
  scheduled := by
    intro id key batch combined hfired arrival harrival
    obtain ⟨st, hst⟩ := h.base.known id key batch combined hfired
    obtain ⟨hkey, hbatch, -, -⟩ := (h.base.state id st hst).fired key batch combined hfired
    rw [hbatch] at harrival
    rw [hkey]
    exact (h.base.state id st hst).scheduled arrival harrival
  once := h.order.once
  ordered := h.order.ordered
  accounted := by
    intro key arrival hscheduled
    obtain ⟨id, st, hst, hkey, harrival⟩ := h.base.home key arrival hscheduled
    have hstate := h.base.state id st hst
    rw [← hkey]
    rcases hstate.outcome with hpending | ⟨combined, hfired⟩ | hremoved
    · obtain ⟨hwaiting, hrequested, -⟩ := hstate.pending st.sessionKey hpending
      exact Or.inr (Or.inr ⟨id, st, hpending, hst, harrival, hwaiting, hrequested⟩)
    · exact Or.inl ⟨id, st.buffer, combined, hfired, harrival⟩
    · exact Or.inr (Or.inl ⟨id, st.buffer, hremoved, harrival⟩)
  settledOnce := h.order.settledOnce
  inTime := h.order.inTime

/-! ### A step that touches one state -/

/-- What no step changes in a state that is not pending any more, and what only grows. -/
structure Kept (st st' : DebounceState) : Prop where
  sessionKey : st'.sessionKey = st.sessionKey
  buffer : st'.buffer = st.buffer
  onSettled : st'.onSettled = st.onSettled
  settled : st.settled = true → st'.settled = true
  done : st.task = .done → st'.task = .done

/-- A step on the state `id` that schedules nothing. -/
structure Touches (s s' : Coordinator) (log : List Event) (event : Event) (id : Nat)
    (st st' : DebounceState) : Prop where
  before : s.states[id]? = some st
  after : s'.states[id]? = some st'
  others : ∀ other : Nat, other ≠ id → s'.states[other]? = s.states[other]?
  kept : Kept st st'
  arrivals : s'.arrivals = s.arrivals
  pending : s'.pending = s.pending ∨ s'.pending = s.pending.filter fun entry => entry.2 ≠ id
  calls : ∀ (call other : Nat), s'.calls[call]? = some (.settling other) →
    s.calls[call]? = some (.settling other) ∨ (other = id ∧ st'.task = .done)
  unscheduled : ∀ key arrival, event ≠ .scheduled key arrival
  fires : ∀ other key batch combined, event = .fired other key batch combined → other = id
  settles : ∀ number, event = .settled number → number ∈ st.onSettled ∧ st'.settled = true
  state : StateInv s' (log ++ [event]) id st'

theorem mem_append_singleton {event other : Event} (hne : event ≠ other)
    (h : other ∈ log ++ [event]) : other ∈ log := by
  rw [List.mem_append, List.mem_singleton] at h
  exact h.resolve_right fun heq => hne heq.symm

theorem mem_pending_of_touches (h : Touches s s' log event id st st') {key : Str} {other : Nat}
    (hpending : (key, other) ∈ s'.pending) : (key, other) ∈ s.pending := by
  rcases h.pending with heq | heq
  · rwa [heq] at hpending
  · rw [heq] at hpending
    exact (List.mem_filter.mp hpending).1

theorem StateInv.frame (h : StateInv s log id st) (harrivals : s.arrivals ≤ s'.arrivals)
    (hpending : ∀ key, (key, id) ∈ s'.pending ↔ (key, id) ∈ s.pending)
    (hfires : ∀ key batch combined, event ≠ .fired id key batch combined)
    (hsettles : ∀ number, event = .settled number → number ∉ st.onSettled) :
    StateInv s' (log ++ [event]) id st where
  nonempty := h.nonempty
  below := fun arrival harrival => (h.below arrival harrival).trans_le harrivals
  sorted := h.sorted
  scheduled := fun arrival harrival => List.mem_append_left _ (h.scheduled arrival harrival)
  callbacks := h.callbacks
  pending := fun key hmem => h.pending key ((hpending key).mp hmem)
  outcome := by
    rcases h.outcome with hmem | ⟨combined, hfired⟩ | hremoved
    · exact Or.inl ((hpending _).mpr hmem)
    · exact Or.inr (Or.inl ⟨combined, List.mem_append_left _ hfired⟩)
    · exact Or.inr (Or.inr (List.mem_append_left _ hremoved))
  fired := by
    intro key batch combined hfired
    obtain ⟨hkey, hbatch, hwaiting, hended⟩ := h.fired key batch combined
      (mem_append_singleton (hfires key batch combined) hfired)
    exact ⟨hkey, hbatch, hwaiting, hended.imp_right (List.mem_append_left _)⟩
  notFiring := h.notFiring
  unsettled := by
    intro hunsettled number hnumber hmem
    exact h.unsettled hunsettled number hnumber
      (mem_append_singleton (fun heq => hsettles number heq hnumber) hmem)
  locked := by
    intro settler index hlock
    obtain ⟨hsettled, hlater⟩ := h.locked settler index hlock
    refine ⟨hsettled, ?_⟩
    intro later number hindex hnumber hmem
    exact hlater later number hindex hnumber
      (mem_append_singleton (fun heq => hsettles number heq (List.mem_of_getElem? hnumber)) hmem)

theorem Base.touch (h : Base s log) (htouches : Touches s s' log event id st st') :
    Base s' (log ++ [event]) := by
  have hkept := htouches.kept
  -- every state is an old one with what is kept
  have hold : ∀ (other : Nat) now, s'.states[other]? = some now →
      ∃ old, s.states[other]? = some old ∧ Kept old now := by
    intro other now hnow
    by_cases hother : other = id
    · rw [hother, htouches.after, Option.some.injEq] at hnow
      rw [← hnow, hother]
      exact ⟨st, htouches.before, hkept⟩
    · rw [htouches.others other hother] at hnow
      exact ⟨now, hnow, rfl, rfl, rfl, fun h => h, fun h => h⟩
  have hnew : ∀ (other : Nat) old, s.states[other]? = some old →
      ∃ now, s'.states[other]? = some now ∧ Kept old now := by
    intro other old hbefore
    by_cases hother : other = id
    · rw [hother, htouches.before, Option.some.injEq] at hbefore
      rw [← hbefore, hother]
      exact ⟨st', htouches.after, hkept⟩
    · exact ⟨old, (htouches.others other hother).trans hbefore, rfl, rfl, rfl, fun h => h, fun h => h⟩
  constructor
  · intro other now hnow
    by_cases hother : other = id
    · rw [hother, htouches.after, Option.some.injEq] at hnow
      rw [← hnow, hother]
      exact htouches.state
    · rw [htouches.others other hother] at hnow
      have hpending : ∀ key, (key, other) ∈ s'.pending ↔ (key, other) ∈ s.pending := by
        intro key
        rcases htouches.pending with heq | heq
        · rw [heq]
        · rw [heq, List.mem_filter]
          exact and_iff_left (decide_eq_true hother)
      apply (h.state other now hnow).frame htouches.arrivals.ge hpending
        (fun key batch combined heq => hother (htouches.fires other key batch combined heq))
      intro number hevent hnumber
      have hmine := (h.state id st htouches.before).callbacks.subset (htouches.settles number hevent).1
      exact h.apart id other st now (Ne.symm hother) htouches.before hnow number hmine
        ((h.state other now hnow).callbacks.subset hnumber)
  · intro key other hpending
    obtain ⟨old, hbefore, hkey⟩ := h.pendingState key other (mem_pending_of_touches htouches hpending)
    obtain ⟨now, hnow, hold⟩ := hnew other old hbefore
    exact ⟨now, hnow, hold.sessionKey.trans hkey⟩
  · rcases htouches.pending with heq | heq
    · rw [heq]
      exact h.pendingKeys
    · rw [heq]
      exact h.pendingKeys.sublist (List.Sublist.map _ List.filter_sublist)
  · intro one other now now' hne hone hother number hnumber
    obtain ⟨old, hbefore, hold₁⟩ := hold one now hone
    obtain ⟨old', hbefore', hold₂⟩ := hold other now' hother
    rw [hold₁.buffer] at hnumber
    rw [hold₂.buffer]
    exact h.apart one other old old' hne hbefore hbefore' number hnumber
  · intro key arrival hscheduled
    obtain ⟨other, old, hbefore, hkey, harrival⟩ := h.home key arrival
      (mem_append_singleton (htouches.unscheduled key arrival) hscheduled)
    obtain ⟨now, hnow, hold⟩ := hnew other old hbefore
    exact ⟨other, now, hnow, hold.sessionKey.trans hkey, hold.buffer ▸ harrival⟩
  · intro other key batch combined hfired
    rw [List.mem_append, List.mem_singleton] at hfired
    rcases hfired with hfired | hfired
    · obtain ⟨old, hbefore⟩ := h.known other key batch combined hfired
      obtain ⟨now, hnow, -⟩ := hnew other old hbefore
      exact ⟨now, hnow⟩
    · rw [htouches.fires other key batch combined hfired.symm]
      exact ⟨st', htouches.after⟩
  · intro number hsettled
    rw [List.mem_append, List.mem_singleton] at hsettled
    rcases hsettled with hsettled | hsettled
    · obtain ⟨other, old, hbefore, hnumber, hold⟩ := h.settled number hsettled
      obtain ⟨now, hnow, hkeeps⟩ := hnew other old hbefore
      exact ⟨other, now, hnow, hkeeps.onSettled ▸ hnumber, hkeeps.settled hold⟩
    · obtain ⟨hnumber, hnow⟩ := htouches.settles number hsettled.symm
      exact ⟨id, st', htouches.after, hkept.onSettled ▸ hnumber, hnow⟩
  · intro call other hcall
    rcases htouches.calls call other hcall with hcall | ⟨rfl, hdone⟩
    · obtain ⟨old, hbefore, hdone⟩ := h.joined call other hcall
      obtain ⟨now, hnow, hkeeps⟩ := hnew other old hbefore
      exact ⟨now, hnow, hkeeps.done hdone⟩
    · exact ⟨st', htouches.after, hdone⟩

/-! ### A log that grows -/

theorem SettledInTime.append (h : SettledInTime log)
    (hfires : ∀ id key batch combined, event = .fired id key batch combined →
      ∀ number ∈ numbers batch, .settled number ∉ log)
    (hsettles : ∀ number, event = .settled number → ∀ id key batch combined,
      .fired id key batch combined ∈ log → number ∈ numbers batch → .ended id ∈ log) :
    SettledInTime (log ++ [event]) := by
  intro before after number heq
  rcases List.eq_nil_or_concat after with rfl | ⟨earlier, last, rfl⟩
  · obtain ⟨rfl, hevent⟩ := List.append_inj' heq rfl
    refine ⟨fun _ _ _ _ hmem => absurd hmem List.not_mem_nil, ?_⟩
    exact hsettles number (List.singleton_inj.mp hevent)
  · rw [List.concat_eq_append, ← List.cons_append, ← List.append_assoc] at heq
    obtain ⟨hlog, hevent⟩ := List.append_inj' heq rfl
    obtain ⟨hafter, hbefore⟩ := h before earlier number hlog
    refine ⟨?_, hbefore⟩
    intro id key batch combined hfired hnumber
    rw [List.concat_eq_append, List.mem_append, List.mem_singleton] at hfired
    rcases hfired with hfired | hfired
    · exact hafter id key batch combined hfired hnumber
    · apply hfires id key batch combined ((List.singleton_inj.mp hevent).trans hfired.symm) number
        hnumber
      rw [hlog]
      exact List.mem_append_right _ List.mem_cons_self

theorem firedNumbers_append (first second : List Event) :
    firedNumbers (first ++ second) = firedNumbers first ++ firedNumbers second :=
  List.flatMap_append

theorem sessionNumbers_append (key : Str) (first second : List Event) :
    sessionNumbers key (first ++ second) = sessionNumbers key first ++ sessionNumbers key second :=
  List.flatMap_append

theorem settledNumbers_append (first second : List Event) :
    settledNumbers (first ++ second) = settledNumbers first ++ settledNumbers second :=
  List.flatMap_append

theorem scheduledNumbers_append (first second : List Event) :
    scheduledNumbers (first ++ second) = scheduledNumbers first ++ scheduledNumbers second :=
  List.flatMap_append

theorem mem_settledNumbers {number : Nat} :
    number ∈ settledNumbers log ↔ .settled number ∈ log := by
  rw [settledNumbers, List.mem_flatMap]
  constructor
  · rintro ⟨event, hevent, hnumber⟩
    cases event with
    | settled other =>
        rw [List.mem_singleton.mp hnumber]
        exact hevent
    | _ => exact absurd hnumber List.not_mem_nil
  · intro h
    exact ⟨_, h, List.mem_singleton_self number⟩

theorem mem_sessionNumbers {key : Str} {number : Nat} (h : number ∈ sessionNumbers key log) :
    ∃ id batch combined, .fired id key batch combined ∈ log ∧ number ∈ numbers batch := by
  rw [sessionNumbers, List.mem_flatMap] at h
  obtain ⟨event, hevent, hnumber⟩ := h
  cases event with
  | fired id other batch combined =>
      dsimp only at hnumber
      split_ifs at hnumber with hkey
      · exact ⟨id, batch, combined, hkey ▸ hevent, hnumber⟩
      · exact absurd hnumber List.not_mem_nil
  | _ => exact absurd hnumber List.not_mem_nil

theorem mem_firedNumbers {number : Nat} (h : number ∈ firedNumbers log) :
    ∃ id key batch combined, .fired id key batch combined ∈ log ∧ number ∈ numbers batch := by
  rw [firedNumbers, List.mem_flatMap] at h
  obtain ⟨event, hevent, hnumber⟩ := h
  cases event with
  | fired id key batch combined => exact ⟨id, key, batch, combined, hevent, hnumber⟩
  | _ => exact absurd hnumber List.not_mem_nil

def Event.silent : Event → Bool
  | ended _ | removed _ _ | quiet => true
  | scheduled _ _ | fired _ _ _ _ | settled _ => false

theorem Order.silent (h : Order s log) (htouches : Touches s s' log event id st st')
    (hsilent : event.silent = true) : Order s' (log ++ [event]) := by
  have hscheduled : scheduledNumbers [event] = [] := by
    cases event <;> simp_all [Event.silent, scheduledNumbers]
  have hfired : firedNumbers [event] = [] := by
    cases event <;> simp_all [Event.silent, firedNumbers]
  have hsession : ∀ key, sessionNumbers key [event] = [] := by
    intro key
    cases event <;> simp_all [Event.silent, sessionNumbers]
  have hsettled : settledNumbers [event] = [] := by
    cases event <;> simp_all [Event.silent, settledNumbers]
  constructor
  · rw [scheduledNumbers_append, hscheduled, List.append_nil, htouches.arrivals]
    exact h.numbered
  · rw [firedNumbers_append, hfired, List.append_nil]
    exact h.once
  · intro key
    rw [sessionNumbers_append, hsession, List.append_nil]
    exact h.ordered key
  · intro key other now hpending hnow
    rw [sessionNumbers_append, hsession, List.append_nil]
    have hbefore := mem_pending_of_touches htouches hpending
    by_cases hother : other = id
    · rw [hother, htouches.after, Option.some.injEq] at hnow
      rw [← hnow, htouches.kept.buffer]
      exact h.behind key id st (hother ▸ hbefore) htouches.before
    · rw [htouches.others other hother] at hnow
      exact h.behind key other now hbefore hnow
  · rw [settledNumbers_append, hsettled, List.append_nil]
    exact h.settledOnce
  · apply h.inTime.append
    · intro other key batch combined hevent
      rw [hevent] at hsilent
      cases hsilent
    · intro number hevent
      rw [hevent] at hsilent
      cases hsilent

/-- What a step that neither schedules nor fires nor settles does to a state. -/
structure Moves (event : Event) (id : Nat) (st st' : DebounceState) : Prop where
  kept : Kept st st'
  silent : event.silent = true
  waiting : st.task.waiting = false → st'.task.waiting = false
  ended : st.task = .firing → st'.task = .firing ∨ event = .ended id
  notFiring : st'.settled = true → st'.task ≠ .firing
  lock : ∀ held, st'.settleLock = some held → st.settleLock = some held

theorem StateInv.move (h : StateInv s log id st) (hmoves : Moves event id st st')
    (harrivals : s'.arrivals = s.arrivals)
    (hpending : s'.pending = s.pending ∨ event = .removed id st.buffer)
    (hplace : ∀ key, (key, id) ∈ s'.pending →
      st'.task.waiting = true ∧ st'.cancelRequested = false ∧ st'.settled = false) :
    StateInv s' (log ++ [event]) id st' := by
  have hkept := hmoves.kept
  have hold : ∀ {other : Event}, other.silent = false → other ∈ log ++ [event] → other ∈ log := by
    intro other hother hmem
    apply mem_append_singleton _ hmem
    intro heq
    rw [← heq, hmoves.silent] at hother
    cases hother
  constructor
  · rw [hkept.buffer]
    exact h.nonempty
  · rw [hkept.buffer, harrivals]
    exact h.below
  · rw [hkept.buffer]
    exact h.sorted
  · rw [hkept.buffer, hkept.sessionKey]
    exact fun arrival harrival => List.mem_append_left _ (h.scheduled arrival harrival)
  · rw [hkept.buffer, hkept.onSettled]
    exact h.callbacks
  · exact hplace
  · rw [hkept.buffer, hkept.sessionKey]
    rcases hpending with heq | heq
    · rw [heq]
      apply h.outcome.imp_right
      exact Or.imp (fun ⟨combined, hfired⟩ => ⟨combined, List.mem_append_left _ hfired⟩)
        (List.mem_append_left _)
    · rw [heq]
      exact Or.inr (Or.inr (List.mem_append_right _ (List.mem_singleton_self _)))
  · intro key batch combined hfired
    obtain ⟨hkey, hbatch, hwaiting, hended⟩ := h.fired key batch combined (hold rfl hfired)
    refine ⟨hkey.trans hkept.sessionKey.symm, hbatch.trans hkept.buffer.symm,
      hmoves.waiting hwaiting, ?_⟩
    rcases hended with hfiring | hended
    · apply (hmoves.ended hfiring).imp_right
      intro heq
      rw [heq]
      exact List.mem_append_right _ (List.mem_singleton_self _)
    · exact Or.inr (List.mem_append_left _ hended)
  · exact hmoves.notFiring
  · intro hunsettled number hnumber hsettled
    have hbefore : st.settled = false := by
      cases heq : st.settled with
      | false => rfl
      | true => rw [hkept.settled heq] at hunsettled; cases hunsettled
    rw [hkept.onSettled] at hnumber
    exact h.unsettled hbefore number hnumber (hold rfl hsettled)
  · intro settler index hlock
    obtain ⟨hsettled, hlater⟩ := h.locked settler index (hmoves.lock _ hlock)
    refine ⟨hkept.settled hsettled, ?_⟩
    intro later number hindex hnumber hmem
    rw [hkept.onSettled] at hnumber
    exact hlater later number hindex hnumber (hold rfl hmem)

theorem Inv.move (h : Inv s log) (hst : s.states[id]? = some st)
    (hst' : s'.states[id]? = some st')
    (hothers : ∀ other : Nat, other ≠ id → s'.states[other]? = s.states[other]?)
    (hmoves : Moves event id st st') (harrivals : s'.arrivals = s.arrivals)
    (hpending : s'.pending = s.pending ∨ event = .removed id st.buffer ∧
      s'.pending = s.pending.filter fun entry => entry.2 ≠ id)
    (hplace : ∀ key, (key, id) ∈ s'.pending →
      st'.task.waiting = true ∧ st'.cancelRequested = false ∧ st'.settled = false)
    (hcalls : ∀ (call other : Nat), s'.calls[call]? = some (.settling other) →
      s.calls[call]? = some (.settling other) ∨ (other = id ∧ st'.task = .done)) :
    Inv s' (log ++ [event]) := by
  have hloud : ∀ {other : Event}, other.silent = false → event ≠ other := by
    intro other hother heq
    rw [← heq, hmoves.silent] at hother
    cases hother
  have htouches : Touches s s' log event id st st' :=
    { before := hst
      after := hst'
      others := hothers
      kept := hmoves.kept
      arrivals := harrivals
      pending := hpending.imp_right And.right
      calls := hcalls
      unscheduled := fun _ _ => hloud rfl
      fires := fun _ _ _ _ heq => absurd heq (hloud rfl)
      settles := fun _ heq => absurd heq (hloud rfl)
      state := (h.base.state id st hst).move hmoves harrivals (hpending.imp_right And.left) hplace }
  exact ⟨h.base.touch htouches, h.order.silent htouches hmoves.silent⟩

/-! ### Firing -/

theorem pending_unique (h : Base s log) {key : Str} {one other : Nat} (hone : (key, one) ∈ s.pending)
    (hother : (key, other) ∈ s.pending) : one = other :=
  congrArg Prod.snd (List.inj_on_of_nodup_map h.pendingKeys hone hother rfl)

theorem Inv.fire (h : Inv s log) (hst : s.states[id]? = some st) {key : Str}
    (hpending : (key, id) ∈ s.pending) (combined : Combined) :
    Inv ((s.popPending id).setTask id .firing)
      (log ++ [.fired id st.sessionKey st.buffer combined]) := by
  have hstate := h.base.state id st hst
  obtain ⟨hwaiting, -, hunsettled⟩ := hstate.pending key hpending
  have hkey : st.sessionKey = key := by
    obtain ⟨other, hother, hkey⟩ := h.base.pendingState key id hpending
    rw [hst, Option.some.injEq] at hother
    rw [hother]
    exact hkey
  have hnew : ∀ key batch combined, .fired id key batch combined ∉ log := by
    intro key batch combined hfired
    obtain ⟨-, -, hover, -⟩ := hstate.fired key batch combined hfired
    rw [hwaiting] at hover
    cases hover
  have hgone : ∀ key, (key, id) ∉ (s.popPending id).pending := by
    intro key hmem
    exact of_decide_eq_true (List.mem_filter.mp hmem).2 rfl
  have hmine : ∀ number ∈ numbers st.buffer, .settled number ∉ log := by
    intro number hnumber hsettled
    obtain ⟨other, now, hnow, honSettled, hnowSettled⟩ := h.base.settled number hsettled
    by_cases hother : other = id
    · rw [hother, hst, Option.some.injEq] at hnow
      rw [← hnow, hunsettled] at hnowSettled
      cases hnowSettled
    · exact h.base.apart other id now st hother hnow hst number
        ((h.base.state other now hnow).callbacks.subset honSettled) hnumber
  have htouches : Touches s ((s.popPending id).setTask id .firing) log
      (.fired id st.sessionKey st.buffer combined) id st { st with task := .firing } := by
    refine ⟨hst, ?_, ?_, ?_, rfl, Or.inr rfl, fun _ _ hcall => Or.inl hcall, ?_, ?_, ?_, ?_⟩
    · show (s.states.modify id _)[id]? = _
      rw [List.getElem?_modify_eq, hst]
      rfl
    · intro other hother
      show (s.states.modify id _)[other]? = _
      rw [List.getElem?_modify_ne _ _ (Ne.symm hother)]
    · refine ⟨rfl, rfl, rfl, fun h => h, ?_⟩
      intro hdone
      rw [hdone] at hwaiting
      cases hwaiting
    · intro _ _ heq
      cases heq
    · intro _ _ _ _ heq
      cases heq
      rfl
    · intro _ heq
      cases heq
    · refine ⟨hstate.nonempty, hstate.below, hstate.sorted,
        fun arrival harrival => List.mem_append_left _ (hstate.scheduled arrival harrival),
        hstate.callbacks, fun key hmem => absurd hmem (hgone key),
        Or.inr (Or.inl ⟨combined, List.mem_append_right _ (List.mem_singleton_self _)⟩), ?_, ?_, ?_, ?_⟩
      · intro key batch other hfired
        rw [List.mem_append, List.mem_singleton] at hfired
        rcases hfired with hfired | hfired
        · exact absurd hfired (hnew key batch other)
        · cases hfired
          exact ⟨rfl, rfl, rfl, Or.inl rfl⟩
      · intro hsettled
        exact absurd (hunsettled.symm.trans hsettled) Bool.false_ne_true
      · intro _ number hnumber hsettled
        exact hmine number (hstate.callbacks.subset hnumber)
          (mem_append_singleton Event.noConfusion hsettled)
      · intro settler index hlock
        exact absurd (hunsettled.symm.trans (hstate.locked settler index hlock).1) Bool.false_ne_true
  refine ⟨h.base.touch htouches, ?_⟩
  constructor
  · rw [scheduledNumbers_append]
    exact (List.append_nil _).trans h.order.numbered
  · have hnumbers : firedNumbers [.fired id st.sessionKey st.buffer combined] = numbers st.buffer :=
      List.append_nil _
    rw [firedNumbers_append, hnumbers, List.nodup_append]
    refine ⟨h.order.once, hstate.sorted.imp fun hlt => Nat.ne_of_lt hlt, ?_⟩
    intro number hnumber other hother heq
    obtain ⟨earlier, key', batch, combined', hfired, hbatch⟩ := mem_firedNumbers hnumber
    obtain ⟨now, hnow⟩ := h.base.known earlier key' batch combined' hfired
    have hne : earlier ≠ id := by
      intro heq
      rw [heq] at hfired
      exact hnew key' batch combined' hfired
    rw [((h.base.state earlier now hnow).fired key' batch combined' hfired).2.1] at hbatch
    rw [← heq] at hother
    exact h.base.apart earlier id now st hne hnow hst number hbatch hother
  · intro other
    rw [sessionNumbers_append, List.pairwise_append]
    have hnumbers : sessionNumbers other [.fired id st.sessionKey st.buffer combined] =
        if st.sessionKey = other then numbers st.buffer else [] := List.append_nil _
    rw [hnumbers]
    split_ifs with hother
    · refine ⟨h.order.ordered other, hstate.sorted, ?_⟩
      intro number hnumber later hlater
      rw [← hother, hkey] at hnumber
      exact h.order.behind key id st hpending hst number hnumber later hlater
    · exact ⟨h.order.ordered other, List.Pairwise.nil, fun _ _ _ hmem => absurd hmem List.not_mem_nil⟩
  · intro other one now hmem hnow number hnumber
    obtain ⟨hmem, hone⟩ := List.mem_filter.mp hmem
    have hone := of_decide_eq_true hone
    have hother : st.sessionKey ≠ other := by
      intro heq
      rw [hkey] at heq
      rw [← heq] at hmem
      exact hone (pending_unique h.base hmem hpending)
    rw [htouches.others one hone] at hnow
    have hnumbers : sessionNumbers other [.fired id st.sessionKey st.buffer combined] = [] := by
      simp [sessionNumbers, hother]
    rw [sessionNumbers_append, hnumbers, List.append_nil] at hnumber
    exact h.order.behind other one now hmem hnow number hnumber
  · rw [settledNumbers_append]
    exact (List.append_nil _).symm ▸ h.order.settledOnce
  · apply h.order.inTime.append
    · intro _ _ _ _ heq
      cases heq
      exact hmine
    · intro _ heq
      cases heq

/-! ### Settling -/

/-- A callback is run by the coroutine that has set `settled`, or goes on with the loop. -/
theorem Inv.settle (h : Inv s log) (hst : s.states[id]? = some st) {settler : Settler}
    {index number : Nat} (hnumber : st.onSettled[index]? = some number)
    (hover : st.task.waiting = false ∧ st.task ≠ .firing)
    (hturn : st.settled = false ∧ index = 0 ∨
      ∃ holder earlier, st.settleLock = some (holder, earlier) ∧ earlier < index) :
    Inv (s.modify id fun st => { st with settled := true, settleLock := some (settler, index) })
      (log ++ [.settled number]) := by
  have hstate := h.base.state id st hst
  have hnodup : st.onSettled.Nodup :=
    (hstate.sorted.imp fun hlt => Nat.ne_of_lt hlt).sublist hstate.callbacks
  have hmem := List.mem_of_getElem? hnumber
  have hnew : ∀ later other, index ≤ later → st.onSettled[later]? = some other →
      .settled other ∉ log := by
    intro later other hlater hother
    rcases hturn with ⟨hunsettled, -⟩ | ⟨holder, earlier, hlock, hearlier⟩
    · exact hstate.unsettled hunsettled other (List.mem_of_getElem? hother)
    · exact (hstate.locked holder earlier hlock).2 later other (hearlier.trans_le hlater) hother
  have hgone : ∀ key, (key, id) ∉ s.pending := by
    intro key hpending
    have hwaiting := (hstate.pending key hpending).1
    rw [hover.1] at hwaiting
    cases hwaiting
  have htouches : Touches s
      (s.modify id fun st => { st with settled := true, settleLock := some (settler, index) }) log
      (.settled number) id st { st with settled := true, settleLock := some (settler, index) } := by
    refine ⟨hst, ?_, ?_, ⟨rfl, rfl, rfl, fun _ => rfl, fun h => h⟩, rfl, Or.inl rfl,
      fun _ _ hcall => Or.inl hcall, ?_, ?_, ?_, ?_⟩
    · show (s.states.modify id _)[id]? = _
      rw [List.getElem?_modify_eq, hst]
      rfl
    · intro other hother
      show (s.states.modify id _)[other]? = _
      rw [List.getElem?_modify_ne _ _ (Ne.symm hother)]
    · intro _ _ heq
      cases heq
    · intro _ _ _ _ heq
      cases heq
    · intro _ heq
      cases heq
      exact ⟨hmem, rfl⟩
    · refine ⟨hstate.nonempty, hstate.below, hstate.sorted,
        fun arrival harrival => List.mem_append_left _ (hstate.scheduled arrival harrival),
        hstate.callbacks, fun key hmem => absurd hmem (hgone key), ?_, ?_, fun _ => hover.2,
        fun heq => Bool.noConfusion heq, ?_⟩
      · apply hstate.outcome.imp_right
        exact Or.imp (fun ⟨combined, hfired⟩ => ⟨combined, List.mem_append_left _ hfired⟩)
          (List.mem_append_left _)
      · intro key batch combined hfired
        obtain ⟨hkey, hbatch, hwaiting, hended⟩ := hstate.fired key batch combined
          (mem_append_singleton Event.noConfusion hfired)
        exact ⟨hkey, hbatch, hwaiting, hended.imp_right (List.mem_append_left _)⟩
      · intro holder held hlock
        cases hlock
        refine ⟨rfl, ?_⟩
        intro later other hlater hother hsettled
        rw [List.mem_append, List.mem_singleton] at hsettled
        rcases hsettled with hsettled | hsettled
        · exact hnew later other hlater.le hother hsettled
        · cases hsettled
          have heq := (List.getElem?_inj (List.getElem?_eq_some_iff.mp hnumber).1 hnodup).mp
            (hnumber.trans hother.symm)
          omega
  refine ⟨h.base.touch htouches, ?_⟩
  constructor
  · rw [scheduledNumbers_append]
    exact (List.append_nil _).trans h.order.numbered
  · rw [firedNumbers_append]
    exact (List.append_nil _).symm ▸ h.order.once
  · intro key
    rw [sessionNumbers_append]
    exact (List.append_nil _).symm ▸ h.order.ordered key
  · intro key one now hpending hnow later hlater
    rw [sessionNumbers_append] at hlater
    have hone : one ≠ id := fun heq => hgone key (heq ▸ hpending)
    have hnumbers : sessionNumbers key [.settled number] = [] := rfl
    rw [hnumbers, List.append_nil] at hlater
    rw [htouches.others one hone] at hnow
    exact h.order.behind key one now hpending hnow later hlater
  · have hnumbers : settledNumbers [.settled number] = [number] := rfl
    rw [settledNumbers_append, hnumbers, List.nodup_append]
    refine ⟨h.order.settledOnce, List.nodup_singleton number, ?_⟩
    intro one hone other hother heq
    rw [List.mem_singleton] at hother
    rw [heq, hother, mem_settledNumbers] at hone
    exact hnew index number le_rfl hnumber hone
  · apply h.order.inTime.append
    · intro _ _ _ _ heq
      cases heq
    · intro settled heq one key batch combined hfired hbatch
      cases heq
      obtain ⟨now, hnow⟩ := h.base.known one key batch combined hfired
      obtain ⟨-, rfl, -, hended⟩ := (h.base.state one now hnow).fired key batch combined hfired
      by_cases hone : one = id
      · rw [hone, hst, Option.some.injEq] at hnow
        rw [← hnow, hone] at hended
        rw [hone]
        exact hended.resolve_left hover.2
      · exact absurd (hstate.callbacks.subset hmem)
          (h.base.apart one id now st hone hnow hst number hbatch)

/-! ### Scheduling -/

/-- A message that is scheduled joins the state `id`, which is old or new. -/
theorem Inv.schedule (h : Inv s log) {key : Str} {arrival : Arrival}
    (hnumber : arrival.number = s.arrivals) (harrivals : s'.arrivals = s.arrivals + 1)
    (hst' : s'.states[id]? = some st') (hkey : st'.sessionKey = key) (hmem : arrival ∈ st'.buffer)
    (hothers : ∀ other : Nat, other ≠ id → s'.states[other]? = s.states[other]?)
    (hgrows : ∀ st, s.states[id]? = some st → st'.sessionKey = st.sessionKey ∧
      st.buffer ⊆ st'.buffer ∧ st.onSettled ⊆ st'.onSettled ∧
      (st.settled = true → st'.settled = true) ∧ (st.task = .done → st'.task = .done))
    (hbuffer : ∀ number ∈ numbers st'.buffer, number = s.arrivals ∨
      ∃ st, s.states[id]? = some st ∧ (key, id) ∈ s.pending ∧ number ∈ numbers st.buffer)
    (hpending : ∀ other one, (other, one) ∈ s'.pending ↔
      (other, one) ∈ s.pending ∨ other = key ∧ one = id)
    (hkeys : (s'.pending.map Prod.fst).Nodup) (hcalls : s'.calls = s.calls)
    (hstate : StateInv s' (log ++ [.scheduled key arrival]) id st') :
    Inv s' (log ++ [.scheduled key arrival]) := by
  have hbelow : ∀ (one : Nat) now, s.states[one]? = some now → ∀ number ∈ numbers now.buffer,
      number < s.arrivals := by
    intro one now hnow number hmem
    obtain ⟨arrival, harrival, rfl⟩ := List.mem_map.mp hmem
    exact (h.base.state one now hnow).below arrival harrival
  have hapart : ∀ (one : Nat) now, one ≠ id → s.states[one]? = some now →
      ∀ number ∈ numbers now.buffer, number ∉ numbers st'.buffer := by
    intro one now hone hnow number hmine hother
    rcases hbuffer number hother with heq | ⟨st, hst, -, hst_mem⟩
    · exact absurd (hbelow one now hnow number hmine) (heq ▸ lt_irrefl _)
    · exact h.base.apart one id now st hone hnow hst number hmine hst_mem
  have hnew : ∀ (one : Nat) old, s.states[one]? = some old → ∃ now, s'.states[one]? = some now ∧
      now.sessionKey = old.sessionKey ∧ old.buffer ⊆ now.buffer ∧ old.onSettled ⊆ now.onSettled ∧
      (old.settled = true → now.settled = true) ∧ (old.task = .done → now.task = .done) := by
    intro one old hold
    by_cases hone : one = id
    · rw [hone] at hold ⊢
      exact ⟨st', hst', hgrows old hold⟩
    · exact ⟨old, (hothers one hone).trans hold, rfl, fun _ h => h, fun _ h => h, fun h => h,
        fun h => h⟩
  have hold : ∀ {other : Event}, (∀ key arrival, other ≠ .scheduled key arrival) →
      other ∈ log ++ [.scheduled key arrival] → other ∈ log :=
    fun hother hmem => mem_append_singleton (hother key arrival).symm hmem
  constructor
  · constructor
    · intro one now hnow
      by_cases hone : one = id
      · rw [hone, hst', Option.some.injEq] at hnow
        rw [← hnow, hone]
        exact hstate
      · rw [hothers one hone] at hnow
        apply (h.base.state one now hnow).frame (by omega)
        · intro other
          rw [hpending]
          exact or_iff_left fun hsame => hone hsame.2
        · intro _ _ _ heq
          cases heq
        · intro _ heq
          cases heq
    · intro other one hmem
      rcases (hpending other one).mp hmem with hmem | ⟨rfl, rfl⟩
      · obtain ⟨old, hold, hother⟩ := h.base.pendingState other one hmem
        obtain ⟨now, hnow, hsession, -⟩ := hnew one old hold
        exact ⟨now, hnow, hsession.trans hother⟩
      · exact ⟨st', hst', hkey⟩
    · exact hkeys
    · intro one other now now' hne hnow hnow' number hnumber
      by_cases hone : one = id
      · rw [hone, hst', Option.some.injEq] at hnow
        rw [hothers other (fun heq => hne (hone.trans heq.symm))] at hnow'
        rw [← hnow] at hnumber
        intro hother
        exact hapart other now' (fun heq => hne (hone.trans heq.symm)) hnow' number hother hnumber
      · rw [hothers one hone] at hnow
        by_cases hother : other = id
        · rw [hother, hst', Option.some.injEq] at hnow'
          rw [← hnow']
          exact hapart one now hone hnow number hnumber
        · rw [hothers other hother] at hnow'
          exact h.base.apart one other now now' hne hnow hnow' number hnumber
    · intro other one hscheduled
      rw [List.mem_append, List.mem_singleton] at hscheduled
      rcases hscheduled with hscheduled | hscheduled
      · obtain ⟨earlier, old, hold, hother, hone⟩ := h.base.home other one hscheduled
        obtain ⟨now, hnow, hsession, hbuffers, -⟩ := hnew earlier old hold
        exact ⟨earlier, now, hnow, hsession.trans hother, hbuffers hone⟩
      · cases hscheduled
        exact ⟨id, st', hst', hkey, hmem⟩
    · intro one other batch combined hfired
      obtain ⟨old, hbefore⟩ := h.base.known one other batch combined
        (hold (fun _ _ heq => Event.noConfusion heq) hfired)
      obtain ⟨now, hnow, -⟩ := hnew one old hbefore
      exact ⟨now, hnow⟩
    · intro number hsettled
      obtain ⟨one, old, hbefore, honSettled, hsettledOld⟩ := h.base.settled number
        (hold (fun _ _ heq => Event.noConfusion heq) hsettled)
      obtain ⟨now, hnow, -, -, hcallbacks, hkeeps, -⟩ := hnew one old hbefore
      exact ⟨one, now, hnow, hcallbacks honSettled, hkeeps hsettledOld⟩
    · intro call one hcall
      rw [hcalls] at hcall
      obtain ⟨old, hbefore, hdone⟩ := h.base.joined call one hcall
      obtain ⟨now, hnow, -, -, -, -, hkeeps⟩ := hnew one old hbefore
      exact ⟨now, hnow, hkeeps hdone⟩
  · constructor
    · rw [scheduledNumbers_append, h.order.numbered, harrivals, List.range_succ, ← hnumber]
      rfl
    · rw [firedNumbers_append]
      exact (List.append_nil _).symm ▸ h.order.once
    · intro other
      rw [sessionNumbers_append]
      exact (List.append_nil _).symm ▸ h.order.ordered other
    · intro other one now hmem hnow number hsession later hlater
      have hnumbers : sessionNumbers other [.scheduled key arrival] = [] := rfl
      rw [sessionNumbers_append, hnumbers, List.append_nil] at hsession
      by_cases hone : one = id
      · rw [hone, hst', Option.some.injEq] at hnow
        rw [← hnow] at hlater
        rcases hbuffer later hlater with heq | ⟨st, hst, hmem', hlater⟩
        · obtain ⟨earlier, batch, combined, hfired, hbatch⟩ := mem_sessionNumbers hsession
          obtain ⟨old, hbefore⟩ := h.base.known earlier other batch combined hfired
          rw [((h.base.state earlier old hbefore).fired other batch combined hfired).2.1] at hbatch
          rw [heq]
          exact hbelow earlier old hbefore number hbatch
        · rw [hone] at hmem
          have hother : other = key := by
            rcases (hpending other id).mp hmem with hmem | ⟨rfl, -⟩
            · obtain ⟨now, hnow, hsame⟩ := h.base.pendingState other id hmem
              obtain ⟨now', hnow', hsame'⟩ := h.base.pendingState key id hmem'
              rw [hnow, Option.some.injEq] at hnow'
              rw [← hsame, ← hsame', hnow']
            · rfl
          rw [hother] at hsession
          exact h.order.behind key id st hmem' hst number hsession later hlater
      · rw [hothers one hone] at hnow
        have hbefore := ((hpending other one).mp hmem).resolve_right fun hsame => hone hsame.2
        exact h.order.behind other one now hbefore hnow number hsession later hlater
    · rw [settledNumbers_append]
      exact (List.append_nil _).symm ▸ h.order.settledOnce
    · apply h.order.inTime.append
      · intro _ _ _ _ heq
        cases heq
      · intro _ heq
        cases heq

end OpenStarry.Debounce
