import OpenStarry.MetaSkill.Dispatch

/-!
# Opened and closed step cards

A consumer sees the card of each step opened once and closed once, or never, in every run whose
steps stay away from the four branches of `cleanStep`. `LiveCards` follows the cards of one step
through the queue: what has been yielded and what is still queued together are the card events of
the phase its task has reached.
-/

namespace OpenStarry.MetaSkill

open OpenStarry.Lib

/-! ### Card events -/

inductive Card
  | start
  | result
  deriving DecidableEq, Repr

/-- The event opens or closes the card `meta-step:<id>`. -/
def cardFor (id : String) : AgentEvent → Option Card
  | .toolUseStart _ name => if name = metaStepName id then some .start else none
  | .toolResult _ name _ _ => if name = metaStepName id then some .result else none
  | _ => none

def isCard : AgentEvent → Bool
  | .toolUseStart _ name => isMetaStepName name
  | .toolResult _ name _ _ => isMetaStepName name
  | _ => false

theorem isMetaStepName_iff {name : String} :
    isMetaStepName name = true ↔ ∃ id, name = metaStepName id := by
  rw [isMetaStepName, List.isPrefixOf_iff_prefix]
  constructor
  · rintro ⟨rest, hrest⟩
    refine ⟨String.ofList rest, String.toList_injective ?_⟩
    simpa [metaStepName] using hrest.symm
  · rintro ⟨id, rfl⟩
    exact ⟨id.toList, by simp [metaStepName]⟩

theorem metaStepName_injective {id id' : String} : metaStepName id = metaStepName id' ↔ id = id' := by
  refine ⟨fun h => String.toList_injective ?_, fun h => h ▸ rfl⟩
  simpa [metaStepName] using congrArg String.toList h

theorem cardFor_of_not_isCard {ev : AgentEvent} (h : isCard ev = false) (id : String) :
    cardFor id ev = none := by
  cases ev with
  | toolUseStart useId name =>
      refine if_neg fun heq => ?_
      rw [isCard, isMetaStepName_iff.mpr ⟨id, heq⟩] at h
      simp at h
  | toolResult useId name result isError =>
      refine if_neg fun heq => ?_
      rw [isCard, isMetaStepName_iff.mpr ⟨id, heq⟩] at h
      simp at h
  | _ => rfl

@[simp] theorem cardFor_startEvent (id sid : String) :
    cardFor id (startEvent sid) = if sid = id then some .start else none := by
  simp [cardFor, startEvent, metaStepName_injective]

@[simp] theorem cardFor_resultEvent (id sid result : String) (isError : Bool) :
    cardFor id (resultEvent sid result isError) = if sid = id then some .result else none := by
  simp [cardFor, resultEvent, metaStepName_injective]

@[simp] theorem cardFor_stepState (id sid : String) (state : StepState) :
    cardFor id (.stepState sid state) = none := rfl

def Yielded.event? : Yielded → Option AgentEvent
  | .event ev => some ev
  | .result _ => none

/-- The card events of `id` that were yielded, in order. -/
def yieldedCards (id : String) (yielded : List Yielded) : List Card :=
  yielded.filterMap fun y => y.event?.bind (cardFor id)

def QueueItem.event? : QueueItem → Option AgentEvent
  | .event ev => some ev
  | _ => none

def queuedCards (id : String) (queue : List (String × QueueItem)) : List Card :=
  queue.filterMap fun entry => entry.2.event?.bind (cardFor id)

def Balanced (cards : List Card) : Prop := cards = [] ∨ cards = [.start, .result]

def BalancedTrace (s : State) : Prop := ∀ id, Balanced (yieldedCards id s.yielded)

/-! ### The branches that break the brackets -/

/-- The step stays away from the four branches that lose a bracket: a `when` expression or a route
that raises closes a card it never opened, a body may forward a card event of its own, a pause
leaves the open cards of the siblings, and a failure forwards queued results but drops the queued
starts before them. -/
def cleanStep (s : State) : Action → Bool
  | .evaluate _ (.raised _) => false
  | .emit _ ev => !isCard ev
  | .handle _ =>
      match s.queue with
      | (_, .paused stepId) :: _ => decide (s.seenStarts ⊆ {stepId})
      | _ => true
  | .drain => (queuedResults s.queue).all fun entry => decide (entry.1 ∈ s.seenStarts)
  | _ => true

/-! ### What a task adds to its card -/

/-- The card events a task puts on its way from one phase to another, and its terminal item. -/
inductive Advance : Phase → Phase → List Card → Option QueueItem → Prop
  | opens : Advance .created .opened [.start] none
  | skips : Advance .created .finished [.start, .result] (some (.stepDone "" .skipped))
  | stays {ph ph' : Phase} (hph : ph = .opened ∨ ph = .dispatched)
      (hph' : ph' = .opened ∨ ph' = .dispatched) : Advance ph ph' [] none
  | closes {ph : Phase} {item : QueueItem} (hph : ph = .opened ∨ ph = .dispatched)
      (hitem : item.terminal = true) (hpaused : ∀ sid, item ≠ .paused sid) :
      Advance ph .finished [.result] (some item)
  | pauses {ph : Phase} (sid : String) (hph : ph = .opened ∨ ph = .dispatched) :
      Advance ph .finished [] (some (.paused sid))
  | cancels {ph : Phase} (hidle : ph ≠ .idle) (hfinished : ph ≠ .finished) :
      Advance ph .finished [] none

structure CardEffect (s : State) (sid : String) (s' : State) (events : List AgentEvent)
    (last : Option QueueItem) (cards : List Card) : Prop where
  queue : s'.queue = s.queue ++ events.map (fun ev => (sid, .event ev)) ++
    last.toList.map (fun item => (sid, item))
  advance : Advance (s.phase sid) (s'.phase sid) cards last
  cards : ∀ id, events.filterMap (cardFor id) = if sid = id then cards else []
  yielded : s'.yielded = s.yielded
  seenStarts : s'.seenStarts = s.seenStarts
  cancelled : last = none → s'.phase sid = .finished → s.loop ≠ .looping

theorem TaskMove.cardEffect {steps : List MetaStep} {s s' : State} {sid : String} {a : Action}
    (h : TaskMove steps s sid a s') (hclean : cleanStep s a = true) :
    ∃ events last cards, CardEffect s sid s' events last cards := by
  cases h with
  | openCard st hmem hloop hphase =>
      refine ⟨[.stepState st.id .running, startEvent st.id], none, [.start], ?_, ?_, fun id => ?_,
        rfl, rfl, fun _ hfinished => ?_⟩
      · simp [openTask, State.put, State.setPhase]
      · rw [hphase]
        simpa [openTask, State.put, State.setPhase] using Advance.opens
      · by_cases hid : st.id = id <;> simp [hid, List.filterMap_cons]
      · simp [openTask, State.put, State.setPhase] at hfinished
  | skip st hmem hloop hphase hwhen =>
      refine ⟨[startEvent st.id, resultEvent st.id "skipped: condition evaluated false" false,
        .stepState st.id .skipped], some (.stepDone "" .skipped), [.start, .result], ?_, ?_,
        fun id => ?_, rfl, rfl, fun hnone => by simp at hnone⟩
      · simp [skipTask, State.put, State.setPhase]
      · rw [hphase]
        simpa [skipTask, State.put, State.setPhase] using Advance.skips
      · by_cases hid : st.id = id <;> simp [hid, List.filterMap_cons]
  | whenRaised st error hmem hloop hphase => simp [cleanStep] at hclean
  | dispatch sid hloop hphase =>
      refine ⟨[], none, [], by simp [State.setPhase], .stays (.inl hphase) (.inr ?_), by simp, rfl,
        rfl, fun _ hfinished => ?_⟩
      · simp [State.setPhase]
      · simp [State.setPhase] at hfinished
  | emit sid ev hloop hphase =>
      refine ⟨[ev], none, [], by simp [State.put], .stays hphase hphase, fun id => ?_, rfl, rfl,
        fun _ hfinished => ?_⟩
      · have hplain : isCard ev = false := by simpa [cleanStep] using hclean
        simp [cardFor_of_not_isCard hplain]
      · rcases hphase with h | h <;> simp [State.put, h] at hfinished
  | finish sid text hloop hphase =>
      refine ⟨[resultEvent sid (outputPreview text) false, .stepState sid .succeeded],
        some (.stepDone text .ok), [.result], ?_, ?_, fun id => ?_, rfl, rfl,
        fun hnone => by simp at hnone⟩
      · simp [finishTask, State.put, State.setPhase]
      · have hfinished : (finishTask s sid text).phase sid = .finished := by
          simp [finishTask, State.put, State.setPhase]
        rw [hfinished]
        exact .closes (.inr hphase) rfl (by simp)
      · by_cases hid : sid = id <;> simp [hid, List.filterMap_cons]
  | raise st error hmem hloop hphase =>
      refine ⟨[resultEvent st.id (publicStepError error) true, .stepState st.id .failed],
        some (if st.onFailure ≠ "" then .failoverTriggered st.id st.onFailure error
          else .exception error), [.result], ?_, ?_, fun id => ?_, rfl, rfl,
        fun hnone => by simp at hnone⟩
      · simp [failTask, State.put, State.setPhase]
      · have hfinished : (failTask s st error).phase st.id = .finished := by
          simp [failTask, State.put, State.setPhase]
        rw [hfinished]
        refine .closes hphase ?_ fun sid => ?_ <;> split_ifs <;> simp [QueueItem.terminal]
      · by_cases hid : st.id = id <;> simp [hid, List.filterMap_cons]
  | pause sid hloop hphase =>
      refine ⟨[], some (.paused sid), [], by simp [pauseTask, State.put, State.setPhase], ?_,
        by simp, rfl, rfl, fun hnone => by simp at hnone⟩
      have hfinished : (pauseTask s sid).phase sid = .finished := by
        simp [pauseTask, State.put, State.setPhase]
      rw [hfinished]
      exact .pauses sid (.inr hphase)
  | cancelled sid hloop hidle hfinished =>
      refine ⟨[], none, [], by simp [State.setPhase], ?_, by simp, rfl, rfl, fun _ _ hlooping => ?_⟩
      · simpa [State.setPhase] using Advance.cancels hidle hfinished
      · simp [hlooping, Loop.windingDown] at hloop

/-! ### The cards of a live run -/

/-- All card events of `id` so far: first what was yielded, then what waits on the queue. -/
def totalCards (s : State) (id : String) : List Card :=
  yieldedCards id s.yielded ++ queuedCards id s.queue

def Phase.puts : Phase → List Card → Prop
  | .idle, cards => cards = []
  | .created, cards => cards = []
  | .opened, cards => cards = [.start]
  | .dispatched, cards => cards = [.start]
  | .finished, cards => cards = [] ∨ cards = [.start] ∨ cards = [.start, .result]

def QueueItem.leaves : QueueItem → List Card → Prop
  | .event _, _ => True
  | .paused _, cards => cards = [.start]
  | _, cards => cards = [.start, .result]

structure LiveCards (s : State) : Prop where
  keyed : ∀ sid ev, (sid, .event ev) ∈ s.queue → ∀ id, id ≠ sid → cardFor id ev = none
  phase : ∀ id, (s.phase id).puts (totalCards s id)
  openRunning : s.loop = .looping → ∀ id, totalCards s id = [.start] → id ∈ s.running
  seen : s.loop ≠ .pausing → ∀ id, id ∈ s.seenStarts ↔ yieldedCards id s.yielded = [.start]
  last : s.queue.Pairwise fun a b => a.2.terminal = true → ∀ ev, b.2 = .event ev →
    cardFor a.1 ev = none
  leaves : ∀ sid item, (sid, item) ∈ s.queue → item.leaves (totalCards s sid)

/-- A run is balanced once it pauses, and cards are followed for as long as it has not ended. -/
structure BracketInv (s : State) : Prop where
  live : (∀ result, s.loop ≠ .ended result) → LiveCards s
  settled : s.loop = .pausing ∨ (∃ result, s.loop = .ended result) → BalancedTrace s

theorem yieldedCards_append (id : String) (first second : List Yielded) :
    yieldedCards id (first ++ second) = yieldedCards id first ++ yieldedCards id second :=
  List.filterMap_append

@[simp] theorem yieldedCards_nil (id : String) : yieldedCards id [] = [] := rfl

@[simp] theorem yieldedCards_events (id : String) (events : List AgentEvent) :
    yieldedCards id (events.map .event) = events.filterMap (cardFor id) := by
  simp [yieldedCards, List.filterMap_map, Yielded.event?]

@[simp] theorem yieldedCards_event (id : String) (ev : AgentEvent) (rest : List Yielded) :
    yieldedCards id (.event ev :: rest) = [ev].filterMap (cardFor id) ++ yieldedCards id rest := by
  rw [← List.singleton_append, yieldedCards_append, ← yieldedCards_events]
  rfl

@[simp] theorem yieldedCards_result (id : String) (result : MetaResult) :
    yieldedCards id [.result result] = [] := rfl

theorem queuedCards_append (id : String) (first second : List (String × QueueItem)) :
    queuedCards id (first ++ second) = queuedCards id first ++ queuedCards id second :=
  List.filterMap_append

theorem queuedCards_events (id sid : String) (events : List AgentEvent) :
    queuedCards id (events.map fun ev => (sid, .event ev)) = events.filterMap (cardFor id) := by
  simp [queuedCards, List.filterMap_map, QueueItem.event?]

theorem QueueItem.event?_of_terminal {item : QueueItem} (h : item.terminal = true) :
    item.event? = none := by
  cases item <;> simp_all [QueueItem.terminal, QueueItem.event?]

theorem Advance.last_terminal {ph ph' : Phase} {cards : List Card} {last : Option QueueItem}
    (h : Advance ph ph' cards last) : ∀ item ∈ last, item.terminal = true := by
  cases h <;> simp_all [QueueItem.terminal]

theorem totalCards_task {s s' : State} {sid : String} {events : List AgentEvent}
    {last : Option QueueItem} {cards : List Card} (h : CardEffect s sid s' events last cards)
    (id : String) : totalCards s' id = totalCards s id ++ if sid = id then cards else [] := by
  have hlast : queuedCards id (last.toList.map fun item => (sid, item)) = [] := by
    cases last with
    | none => rfl
    | some item =>
        simp [queuedCards, QueueItem.event?_of_terminal (h.advance.last_terminal item rfl)]
  rw [totalCards, h.yielded, h.queue, queuedCards_append, queuedCards_append, queuedCards_events,
    h.cards, hlast, List.append_nil, ← List.append_assoc]
  rfl

theorem Advance.puts {ph ph' : Phase} {cards : List Card} {last : Option QueueItem}
    (h : Advance ph ph' cards last) {before : List Card} (hbefore : ph.puts before) :
    ph'.puts (before ++ cards) ∧ ∀ item ∈ last, item.leaves (before ++ cards) := by
  cases h with
  | opens => simp_all [Phase.puts]
  | skips => simp_all [Phase.puts, QueueItem.leaves]
  | stays hph hph' => rcases hph with rfl | rfl <;> rcases hph' with rfl | rfl <;> simp_all [Phase.puts]
  | @closes _ item hph hitem hpaused =>
      have hleaves : item.leaves [.start, .result] := by
        cases item <;> simp_all [QueueItem.leaves]
      rcases hph with rfl | rfl <;> simp_all [Phase.puts]
  | pauses sid hph => rcases hph with rfl | rfl <;> simp_all [Phase.puts, QueueItem.leaves]
  | cancels hidle hfinished =>
      cases ph <;> simp_all [Phase.puts]

theorem Phase.puts_cases {ph : Phase} {cards : List Card} (h : ph.puts cards) :
    cards = [] ∨ cards = [.start] ∨ cards = [.start, .result] := by
  cases ph <;> simp_all [Phase.puts]

theorem start_iff_of_shape {before after : List Card} {card : Card}
    (h : before ++ [card] ++ after = [] ∨ before ++ [card] ++ after = [.start] ∨
      before ++ [card] ++ after = [.start, .result]) :
    card = .start ↔ before ++ [card] = [.start] := by
  rcases before with _ | ⟨first, _ | ⟨second, more⟩⟩ <;> cases card <;> simp_all

theorem balanced_of_prefix {yielded queued : List Card}
    (h : yielded ++ queued = [] ∨ yielded ++ queued = [.start] ∨
      yielded ++ queued = [.start, .result]) (hclosed : yielded ≠ [.start]) : Balanced yielded := by
  rcases yielded with _ | ⟨first, _ | ⟨second, more⟩⟩ <;> simp_all [Balanced]

theorem queuedCards_cons (id : String) (entry : String × QueueItem)
    (rest : List (String × QueueItem)) :
    queuedCards id (entry :: rest) =
      (entry.2.event?.bind (cardFor id)).toList ++ queuedCards id rest := by
  cases h : entry.2.event?.bind (cardFor id) <;> simp [queuedCards, h]

theorem queuedResults_filterMap (id : String) (queue : List (String × QueueItem)) :
    ((queuedResults queue).map (·.2)).filterMap (cardFor id) =
      (queuedCards id queue).filter (· = .result) := by
  fun_induction queuedResults queue with
  | case1 => rfl
  | case2 sid useId name result isError rest hname ih =>
      rw [queuedCards_cons, List.filter_append, ← ih]
      by_cases hid : name = metaStepName id <;> simp [QueueItem.event?, cardFor, hid]
  | case3 sid useId name result isError rest hname ih =>
      rw [queuedCards_cons, List.filter_append, ← ih]
      have hplain : cardFor id (.toolResult useId name result isError) = none :=
        cardFor_of_not_isCard (by simpa [isCard] using hname) id
      simp [QueueItem.event?, hplain]
  | case4 entry rest hother ih =>
      rw [queuedCards_cons, List.filter_append, ← ih]
      obtain ⟨sid, item⟩ := entry
      cases item with
      | event ev =>
          cases ev with
          | toolResult useId name result isError => exact absurd rfl (hother sid useId name result isError)
          | toolUseStart useId name =>
              by_cases hid : name = metaStepName id <;> simp [QueueItem.event?, cardFor, hid]
          | _ => simp [QueueItem.event?, cardFor]
      | _ => simp [QueueItem.event?]

theorem mem_queuedResults {entry : String × AgentEvent} {queue : List (String × QueueItem)}
    (h : entry ∈ queuedResults queue) : (entry.1, .event entry.2) ∈ queue ∧
      ∃ useId name result isError, entry.2 = .toolResult useId name result isError := by
  fun_induction queuedResults queue with
  | case1 => simp at h
  | case2 sid useId name result isError rest hname ih =>
      rcases List.mem_cons.mp h with rfl | h
      · exact ⟨List.mem_cons_self, useId, name, result, isError, rfl⟩
      · exact ⟨List.mem_cons_of_mem _ (ih h).1, (ih h).2⟩
  | case3 sid useId name result isError rest hname ih =>
      exact ⟨List.mem_cons_of_mem _ (ih h).1, (ih h).2⟩
  | case4 entry' rest hother ih => exact ⟨List.mem_cons_of_mem _ (ih h).1, (ih h).2⟩

theorem mem_queuedResults_card {id : String} {queue : List (String × QueueItem)} :
    (∃ entry ∈ queuedResults queue, cardFor id entry.2 = some .result) ↔
      .result ∈ queuedCards id queue := by
  have hmem : Card.result ∈ (queuedCards id queue).filter (· = .result) ↔
      .result ∈ queuedCards id queue := by simp
  rw [← hmem, ← queuedResults_filterMap, List.filterMap_map, List.mem_filterMap]
  rfl

theorem cancelledCards {ids : List String} (hnodup : ids.Nodup) (id : String) :
    ids.filterMap (cardFor id ∘ cancelledResult) = if id ∈ ids then [.result] else [] := by
  induction ids with
  | nil => rfl
  | cons first rest ih =>
      obtain ⟨hnot, hrest⟩ := List.nodup_cons.mp hnodup
      by_cases hid : first = id
      · subst hid
        simp [cancelledResult, ih hrest, hnot]
      · simp [cancelledResult, ih hrest, hid, Ne.symm hid]

theorem drained_balanced {yielded queued : List Card}
    (h : yielded ++ queued = [] ∨ yielded ++ queued = [.start] ∨
      yielded ++ queued = [.start, .result])
    (hopened : .result ∈ queued → yielded = [.start]) :
    Balanced (yielded ++ queued.filter (· = .result) ++
      if yielded = [.start] ∧ .result ∉ queued then [.result] else []) := by
  rcases yielded with _ | ⟨first, _ | ⟨second, more⟩⟩
  · rcases h with h | h | h <;> simp_all [Balanced]
  · rcases h with h | h | h <;> simp_all [Balanced]
  · rcases h with h | h | h <;> simp_all [Balanced]

/-- A card event queued under `sid` alone is the card of `sid`. -/
theorem metaStepName_owner {sid name : String} {ev : AgentEvent} (hname : isMetaStepName name = true)
    (hcard : ∀ id, name = metaStepName id → cardFor id ev ≠ none)
    (hkeyed : ∀ id, id ≠ sid → cardFor id ev = none) : name = metaStepName sid := by
  obtain ⟨id, rfl⟩ := isMetaStepName_iff.mp hname
  by_contra hne
  exact hcard id rfl (hkeyed id fun heq => hne (heq ▸ rfl))

/-- `_track_yielded` follows the card of the step whose event is forwarded. -/
theorem mem_trackYielded {sid : String} {ev : AgentEvent}
    (hkeyed : ∀ id, id ≠ sid → cardFor id ev = none) (seen : Finset String) (id : String) :
    id ∈ trackYielded sid ev seen ↔
      cardFor id ev = some .start ∨ cardFor id ev = none ∧ id ∈ seen := by
  cases hcard : isCard ev with
  | false =>
      rw [cardFor_of_not_isCard hcard]
      cases ev <;> simp_all [trackYielded, isCard]
  | true =>
      cases ev with
      | toolUseStart useId name =>
          obtain rfl := metaStepName_owner hcard (by simp [cardFor]) hkeyed
          by_cases hid : sid = id
          · simp_all [trackYielded, cardFor, isCard]
          · simp_all [trackYielded, cardFor, isCard, metaStepName_injective, Ne.symm hid]
      | toolResult useId name result isError =>
          obtain rfl := metaStepName_owner hcard (by simp [cardFor]) hkeyed
          by_cases hid : sid = id
          · simp_all [trackYielded, cardFor, isCard]
          · simp_all [trackYielded, cardFor, isCard, metaStepName_injective, Ne.symm hid]
      | _ => simp [isCard] at hcard

theorem mem_foldl_trackYielded {entries : List (String × AgentEvent)} {seen : Finset String}
    {id : String} (hkeyed : ∀ entry ∈ entries, ∀ id, id ≠ entry.1 → cardFor id entry.2 = none)
    (hresults : ∀ entry ∈ entries, cardFor id entry.2 ≠ some .start) :
    id ∈ entries.foldl (fun seen entry => trackYielded entry.1 entry.2 seen) seen ↔
      id ∈ seen ∧ ∀ entry ∈ entries, cardFor id entry.2 ≠ some .result := by
  induction entries generalizing seen with
  | nil => simp
  | cons entry rest ih =>
      rw [List.foldl_cons, ih (fun e he => hkeyed e (List.mem_cons_of_mem _ he))
        (fun e he => hresults e (List.mem_cons_of_mem _ he)),
        mem_trackYielded (hkeyed entry List.mem_cons_self)]
      have hstart := hresults entry List.mem_cons_self
      rw [List.forall_mem_cons]
      cases hcard : cardFor id entry.2 with
      | none => simp
      | some card => cases card <;> simp_all

theorem totalCards_pop {s : State} {sid : String} {item : QueueItem}
    {rest : List (String × QueueItem)} (hqueue : s.queue = (sid, item) :: rest)
    (hterminal : item.terminal = true) (id : String) :
    totalCards { s with queue := rest } id = totalCards s id := by
  simp [totalCards, hqueue, queuedCards, QueueItem.event?_of_terminal hterminal]

namespace LiveCards

variable {cfg : Config} {s s' : State} {sid : String}

theorem task (ht : Tables cfg s) (h : LiveCards s) (he : TaskEffect cfg.steps s sid s')
    {events : List AgentEvent} {last : Option QueueItem} {cards : List Card}
    (hc : CardEffect s sid s' events last cards) : LiveCards s' := by
  obtain ⟨ph, -, hphase⟩ := he.phase
  have hother : ∀ id, id ≠ sid → s'.phase id = s.phase id := fun id hid => by
    rw [hphase, Function.update_of_ne hid]
  have htotal : ∀ id, id ≠ sid → totalCards s' id = totalCards s id := fun id hid => by
    rw [totalCards_task hc, if_neg (Ne.symm hid), List.append_nil]
  have hself : totalCards s' sid = totalCards s sid ++ cards := by
    rw [totalCards_task hc, if_pos rfl]
  obtain ⟨hputs, hleaves⟩ := hc.advance.puts (h.phase sid)
  have hforeign : ∀ ev ∈ events, ∀ id, id ≠ sid → cardFor id ev = none := by
    intro ev hev id hid
    have hnone := hc.cards id
    rw [if_neg (Ne.symm hid), List.filterMap_eq_nil_iff] at hnone
    exact hnone ev hev
  have hnew : ∀ entry ∈ events.map (fun ev => (sid, QueueItem.event ev)) ++
      last.toList.map (fun item => (sid, item)),
      (∃ ev ∈ events, entry = (sid, .event ev)) ∨ ∃ item ∈ last, entry = (sid, item) := by
    intro entry hentry
    rcases List.mem_append.mp hentry with hentry | hentry
    · obtain ⟨ev, hev, rfl⟩ := List.mem_map.mp hentry
      exact .inl ⟨ev, hev, rfl⟩
    · obtain ⟨item, hitem, rfl⟩ := List.mem_map.mp hentry
      exact .inr ⟨item, Option.mem_toList.mp hitem, rfl⟩
  have hqueue : s'.queue = s.queue ++ (events.map (fun ev => (sid, QueueItem.event ev)) ++
      last.toList.map (fun item => (sid, item))) := by
    rw [hc.queue, List.append_assoc]
  refine ⟨fun owner ev hev id hid => ?_, fun id => ?_, fun hloop id hopen => ?_,
    fun hloop id => ?_, ?_, fun owner item hitem => ?_⟩
  · rw [hqueue, List.mem_append] at hev
    rcases hev with hold | hev
    · exact h.keyed owner ev hold id hid
    · rcases hnew _ hev with ⟨ev', hev', heq⟩ | ⟨item, hitem, heq⟩
      · obtain ⟨rfl, hsame⟩ := Prod.mk.inj heq
        exact QueueItem.event.inj hsame ▸ hforeign ev' hev' id hid
      · obtain ⟨-, rfl⟩ := Prod.mk.inj heq
        simpa [QueueItem.terminal] using hc.advance.last_terminal _ hitem
  · by_cases hid : id = sid
    · rw [hid, hself]
      exact hputs
    · rw [hother id hid, htotal id hid]
      exact h.phase id
  · rw [he.running]
    by_cases hid : id = sid
    · exact hid ▸ ht.activeRunning sid he.notIdle he.notFinished
    · exact h.openRunning (he.loop ▸ hloop) id (htotal id hid ▸ hopen)
  · rw [hc.seenStarts, hc.yielded]
    exact h.seen (he.loop ▸ hloop) id
  · rw [hqueue]
    refine List.pairwise_append.mpr ⟨h.last, ?_, fun a ha b hb hterminal ev heq => ?_⟩
    · refine List.pairwise_append.mpr ⟨?_, ?_, fun a ha b hb hterminal ev heq => ?_⟩
      · refine List.pairwise_map.mpr (.imp ?_ (List.pairwise_of_forall fun _ _ => trivial))
        simp [QueueItem.terminal]
      · cases last <;> simp
      · obtain ⟨ev', -, rfl⟩ := List.mem_map.mp ha
        simp [QueueItem.terminal] at hterminal
    · have hne : a.1 ≠ sid := fun hid => he.notFinished
        (hid ▸ (ht.terminalSound a.1 a.2 ha hterminal).1)
      rcases hnew b hb with ⟨ev', hev', rfl⟩ | ⟨item, hitem, rfl⟩
      · exact QueueItem.event.inj heq ▸ hforeign ev' hev' a.1 hne
      · simp only at heq
        subst heq
        simpa [QueueItem.terminal] using hc.advance.last_terminal _ hitem
  · rw [hqueue, List.mem_append] at hitem
    rcases hitem with hold | hitem
    · cases hterminal : item.terminal with
      | false =>
          cases item <;> simp_all [QueueItem.terminal, QueueItem.leaves]
      | true =>
          have hne : owner ≠ sid := fun hid => he.notFinished
            (hid ▸ (ht.terminalSound owner item hold hterminal).1)
          rw [htotal owner hne]
          exact h.leaves owner item hold
    · rcases hnew _ hitem with ⟨ev, -, heq⟩ | ⟨item', hitem', heq⟩
      · obtain ⟨-, rfl⟩ := Prod.mk.inj heq
        trivial
      · obtain ⟨rfl, rfl⟩ := Prod.mk.inj heq
        exact hself ▸ hleaves item hitem'

theorem showEvent (h : LiveCards s) {ev : AgentEvent} {rest : List (String × QueueItem)}
    (hloop : s.loop ≠ .pausing) (hqueue : s.queue = (sid, .event ev) :: rest) :
    LiveCards (onEvent sid ev { s with queue := rest }) := by
  have hkeyed := h.keyed sid ev (hqueue ▸ List.mem_cons_self)
  have hyielded : ∀ id, yieldedCards id (s.yielded ++ [.event ev]) =
      yieldedCards id s.yielded ++ (cardFor id ev).toList := fun id => by
    rw [yieldedCards_append]
    cases hcard : cardFor id ev <;> simp [yieldedCards, Yielded.event?, hcard]
  have htotal : ∀ id, totalCards (onEvent sid ev { s with queue := rest }) id = totalCards s id := by
    intro id
    have hhead : queuedCards id s.queue = (cardFor id ev).toList ++ queuedCards id rest := by
      rw [hqueue]
      cases hcard : cardFor id ev <;> simp [queuedCards, QueueItem.event?, hcard]
    simp only [totalCards, onEvent, State.yield, List.map_cons, List.map_nil, hyielded, hhead,
      List.append_assoc]
  refine ⟨fun owner ev' hev => h.keyed owner ev' (hqueue ▸ List.mem_cons_of_mem _ hev), fun id => ?_,
    fun hlooping id hopen => h.openRunning hlooping id (htotal id ▸ hopen), fun _ id => ?_,
    ?_, fun owner item hitem => ?_⟩
  · rw [htotal]
    exact h.phase id
  · simp only [onEvent, State.yield, List.map_cons, List.map_nil]
    rw [mem_trackYielded hkeyed, h.seen hloop, hyielded]
    have hshape := Phase.puts_cases (htotal id ▸ h.phase id)
    simp only [totalCards, onEvent, State.yield, List.map_cons, List.map_nil, hyielded] at hshape
    cases hcard : cardFor id ev with
    | none => simp
    | some card =>
        rw [hcard] at hshape
        simpa using start_iff_of_shape hshape
  · have hlast := h.last
    rw [hqueue] at hlast
    exact hlast.tail
  · rw [htotal]
    exact h.leaves owner item (hqueue ▸ List.mem_cons_of_mem _ hitem)

theorem congr (h : LiveCards s) (hqueue : s'.queue = s.queue) (hphase : s'.phase = s.phase)
    (hyielded : s'.yielded = s.yielded) (hseen : s'.seenStarts = s.seenStarts)
    (hpausing : s'.loop ≠ .pausing → s.loop ≠ .pausing)
    (hlooping : s'.loop = .looping → s.loop = .looping ∧
      ∀ id, totalCards s id = [.start] → id ∈ s.running → id ∈ s'.running) : LiveCards s' := by
  have htotal : ∀ id, totalCards s' id = totalCards s id := fun id => by
    rw [totalCards, hyielded, hqueue]
    rfl
  refine ⟨hqueue ▸ h.keyed, fun id => ?_, fun hloop id hopen => ?_, fun hloop id => ?_,
    hqueue ▸ h.last, fun owner item hitem => ?_⟩
  · rw [hphase, htotal]
    exact h.phase id
  · obtain ⟨hloop', hkept⟩ := hlooping hloop
    rw [htotal] at hopen
    exact hkept id hopen (h.openRunning hloop' id hopen)
  · rw [hseen, hyielded]
    exact h.seen (hpausing hloop) id
  · rw [htotal]
    exact h.leaves owner item (hqueue ▸ hitem)

theorem pop (h : LiveCards s) {item : QueueItem} {rest : List (String × QueueItem)}
    (hqueue : s.queue = (sid, item) :: rest) (hterminal : item.terminal = true) :
    LiveCards { s with queue := rest } := by
  have htotal := totalCards_pop hqueue hterminal
  refine ⟨fun owner ev hev => h.keyed owner ev (hqueue ▸ List.mem_cons_of_mem _ hev),
    fun id => htotal id ▸ h.phase id, fun hloop id hopen => h.openRunning hloop id (htotal id ▸ hopen),
    h.seen, ?_, fun owner later hlater => ?_⟩
  · have hlast := h.last
    rw [hqueue] at hlast
    exact hlast.tail
  · rw [htotal]
    exact h.leaves owner later (hqueue ▸ List.mem_cons_of_mem _ hlater)

theorem yielded_of_head (h : LiveCards s) {item : QueueItem} {rest : List (String × QueueItem)}
    (hqueue : s.queue = (sid, item) :: rest) (hterminal : item.terminal = true) :
    yieldedCards sid s.yielded = totalCards s sid ∧ queuedCards sid rest = [] := by
  have hlast := h.last
  rw [hqueue, List.pairwise_cons] at hlast
  have hrest : queuedCards sid rest = [] := by
    refine List.filterMap_eq_nil_iff.mpr fun entry hentry => ?_
    cases hev : entry.2 with
    | event ev => exact hlast.1 entry hentry hterminal ev hev
    | _ => rfl
  refine ⟨?_, hrest⟩
  rw [← totalCards_pop hqueue hterminal, totalCards]
  simp [hrest]

theorem put_plain (h : LiveCards s) {ev : AgentEvent} (hplain : ∀ id, cardFor id ev = none) :
    LiveCards (s.put sid [.event ev]) := by
  have htotal : ∀ id, totalCards (s.put sid [.event ev]) id = totalCards s id := fun id => by
    simp [totalCards, State.put, queuedCards, QueueItem.event?, hplain]
  refine ⟨fun owner ev' hev id hid => ?_, fun id => htotal id ▸ h.phase id,
    fun hloop id hopen => h.openRunning hloop id (htotal id ▸ hopen), h.seen, ?_,
    fun owner item hitem => ?_⟩
  · rcases List.mem_append.mp hev with hold | hnew
    · exact h.keyed owner ev' hold id hid
    · obtain ⟨-, heq⟩ := Prod.mk.inj (List.mem_singleton.mp hnew)
      exact QueueItem.event.inj heq ▸ hplain id
  · refine List.pairwise_append.mpr ⟨h.last, by simp, fun a _ b hb _ ev' heq => ?_⟩
    obtain rfl := List.mem_singleton.mp hb
    exact QueueItem.event.inj heq ▸ hplain a.1
  · rw [htotal]
    rcases List.mem_append.mp hitem with hold | hnew
    · exact h.leaves owner item hold
    · obtain ⟨-, rfl⟩ := Prod.mk.inj (List.mem_singleton.mp hnew)
      trivial

theorem spawn (h : LiveCards s) (hidle : s.phase sid = .idle) : LiveCards (s.spawn sid) := by
  refine ⟨h.keyed, fun id => ?_, fun hloop id hopen =>
    Finset.mem_insert_of_mem (h.openRunning hloop id hopen), h.seen, h.last, h.leaves⟩
  by_cases hid : id = sid
  · subst hid
    have hputs := h.phase id
    have hcreated : (s.spawn id).phase id = .created := by simp [State.spawn]
    rw [hidle] at hputs
    rw [hcreated]
    exact hputs
  · have hsame : (s.spawn sid).phase id = s.phase id := by simp [State.spawn, hid]
    rw [hsame]
    exact h.phase id

theorem spawned (h : LiveCards s) (ht : Tables cfg s) {order : List String} (hnodup : order.Nodup)
    (horder : order.toFinset = s.unstarted) (cap : Option Int) :
    LiveCards (spawnReady cap order s) :=
  (spawnReady_preserves (P := fun s => Tables cfg s ∧ LiveCards s)
    (fun _ _ hs hsid _ _ => ⟨hs.1.spawn hsid, hs.2.spawn (hs.1.unstartedIdle _ hsid)⟩)
    hnodup (mem_of_order horder) ⟨ht, h⟩).2

theorem stepDone (h : LiveCards s) {text : String} {status : DoneStatus}
    {rest : List (String × QueueItem)} (hqueue : s.queue = (sid, .stepDone text status) :: rest)
    (steps : List MetaStep) :
    LiveCards (onStepDone steps sid text status { s with queue := rest }) := by
  obtain ⟨mirrored, released, he⟩ := onStepDone_effect steps sid text status
    { s with queue := rest }
  have hclosed : totalCards s sid = [.start, .result] :=
    h.leaves sid (.stepDone text status) (hqueue ▸ List.mem_cons_self)
  refine (h.pop hqueue rfl).congr he.queue he.phase he.yielded he.seenStarts
    (fun hloop => he.loop ▸ hloop) fun hloop => ⟨he.loop ▸ hloop, fun id hopen hid => ?_⟩
  rw [he.running]
  refine Finset.mem_erase.mpr ⟨fun heq => ?_, hid⟩
  rw [totalCards_pop hqueue rfl, heq, hclosed] at hopen
  simp at hopen

theorem failover (h : LiveCards s) {failedId substituteId error : String}
    {rest : List (String × QueueItem)}
    (hqueue : s.queue = (sid, .failoverTriggered failedId substituteId error) :: rest)
    (hsid : failedId = sid) (steps : List MetaStep) :
    LiveCards (onFailover steps failedId substituteId { s with queue := rest }) := by
  have hclosed : totalCards s sid = [.start, .result] :=
    h.leaves sid (.failoverTriggered failedId substituteId error) (hqueue ▸ List.mem_cons_self)
  have hput : LiveCards (State.put { s with queue := rest, running := s.running.erase failedId }
      substituteId [.event (.stepState substituteId .substituted)]) := by
    refine put_plain ?_ fun _ => rfl
    refine (h.pop hqueue rfl).congr rfl rfl rfl rfl id fun hloop => ⟨hloop, fun id hopen hid => ?_⟩
    refine Finset.mem_erase.mpr ⟨fun heq => ?_, hid⟩
    rw [totalCards_pop hqueue rfl, heq, hsid, hclosed] at hopen
    simp at hopen
  dsimp only [onFailover]
  split <;> exact hput.congr rfl rfl rfl rfl id fun hloop => ⟨hloop, fun _ _ hid => hid⟩

theorem exception (h : LiveCards s) {error : String} {rest : List (String × QueueItem)}
    (hloop : s.loop ≠ .pausing) (hqueue : s.queue = (sid, .exception error) :: rest) :
    LiveCards (onException sid error { s with queue := rest }) := by
  have hclosed : totalCards s sid = [.start, .result] :=
    h.leaves sid (.exception error) (hqueue ▸ List.mem_cons_self)
  have hseen : sid ∉ s.seenStarts := by
    rw [h.seen hloop, (h.yielded_of_head hqueue rfl).1, hclosed]
    simp
  refine (h.pop hqueue rfl).congr rfl rfl rfl ?_ (fun _ => hloop) fun hlooping => ?_
  · exact Finset.erase_eq_of_notMem hseen
  · simp [onException] at hlooping

theorem yieldedCards_onPaused (rest : List (String × QueueItem)) (id : String) :
    yieldedCards id (onPaused sid { s with queue := rest }).yielded =
      yieldedCards id s.yielded ++ if sid = id then [.result] else [] := by
  by_cases hid : sid = id <;>
    simp [onPaused, State.yield, yieldedCards_append, hid]

theorem paused (h : LiveCards s) {rest : List (String × QueueItem)}
    (hqueue : s.queue = (sid, .paused sid) :: rest)
    (honce : ∀ id later, (id, later) ∈ rest → later.terminal = true → id ≠ sid)
    (hfinished : s.phase sid = .finished) :
    LiveCards (onPaused sid { s with queue := rest }) := by
  have hopen : totalCards s sid = [.start] :=
    h.leaves sid (.paused sid) (hqueue ▸ List.mem_cons_self)
  obtain ⟨hyielded, hrest⟩ := h.yielded_of_head hqueue rfl
  have hpop := h.pop hqueue rfl
  have hself : totalCards (onPaused sid { s with queue := rest }) sid = [.start, .result] := by
    rw [totalCards, yieldedCards_onPaused, hyielded, hopen, if_pos rfl]
    exact congrArg _ hrest
  have hother : ∀ id, id ≠ sid →
      totalCards (onPaused sid { s with queue := rest }) id = totalCards s id := fun id hid => by
    rw [totalCards, yieldedCards_onPaused, if_neg (Ne.symm hid), List.append_nil,
      ← totalCards_pop hqueue rfl]
    rfl
  refine ⟨hpop.keyed, fun id => ?_, fun hlooping => ?_, fun hpausing => absurd rfl hpausing,
    hpop.last, fun owner item hitem => ?_⟩
  · by_cases hid : id = sid
    · rw [hid, hself]
      exact (congrArg (Phase.puts · [.start, .result]) hfinished).mpr (.inr (.inr rfl))
    · rw [hother id hid]
      exact h.phase id
  · simp [onPaused] at hlooping
  · cases hterminal : item.terminal with
    | false => cases item <;> simp_all [QueueItem.terminal, QueueItem.leaves]
    | true =>
        rw [hother owner (honce owner item hitem hterminal), ← totalCards_pop hqueue rfl]
        exact hpop.leaves owner item hitem

theorem paused_balanced (h : LiveCards s) {rest : List (String × QueueItem)}
    (hloop : s.loop ≠ .pausing) (hqueue : s.queue = (sid, .paused sid) :: rest)
    (hopen : s.seenStarts ⊆ {sid}) : BalancedTrace (onPaused sid { s with queue := rest }) := by
  intro id
  rw [yieldedCards_onPaused]
  by_cases hid : sid = id
  · subst hid
    have hstart : totalCards s sid = [.start] :=
      h.leaves sid (.paused sid) (hqueue ▸ List.mem_cons_self)
    rw [(h.yielded_of_head hqueue rfl).1, hstart, if_pos rfl]
    exact .inr rfl
  · rw [if_neg hid, List.append_nil]
    have hclosed : yieldedCards id s.yielded ≠ [.start] := fun hstart =>
      hid (Finset.mem_singleton.mp (hopen ((h.seen hloop id).mpr hstart))).symm
    exact balanced_of_prefix (Phase.puts_cases (h.phase id)) hclosed

theorem rest_balanced (h : LiveCards s) (hloop : s.loop = .looping) (hrunning : s.running = ∅)
    (hqueue : s.queue = []) : BalancedTrace s := by
  intro id
  have htotal : totalCards s id = yieldedCards id s.yielded := by
    simp [totalCards, hqueue, queuedCards]
  rcases Phase.puts_cases (h.phase id) with hnone | hopen | hclosed
  · exact .inl (htotal ▸ hnone)
  · simpa [hrunning] using h.openRunning hloop id hopen
  · exact .inr (htotal ▸ hclosed)

theorem drain_balanced (h : LiveCards s) (hloop : s.loop ≠ .pausing)
    (hclean : ∀ entry ∈ queuedResults s.queue, entry.1 ∈ s.seenStarts) :
    BalancedTrace (drainQueue s) := by
  intro id
  have hopened : .result ∈ queuedCards id s.queue → yieldedCards id s.yielded = [.start] := by
    intro hresult
    rw [← mem_queuedResults_card] at hresult
    obtain ⟨entry, hentry, hcard⟩ := hresult
    have howner : id = entry.1 := by
      by_contra hne
      rw [h.keyed entry.1 entry.2 (mem_queuedResults hentry).1 id hne] at hcard
      simp at hcard
    exact (h.seen hloop id).mp (howner ▸ hclean entry hentry)
  have hleft : id ∈ drainedStarts s ↔
      yieldedCards id s.yielded = [.start] ∧ .result ∉ queuedCards id s.queue := by
    rw [drainedStarts, mem_foldl_trackYielded, h.seen hloop, ← mem_queuedResults_card]
    · simp only [not_exists, not_and]
    · exact fun entry hentry => h.keyed entry.1 entry.2 (mem_queuedResults hentry).1
    · intro entry hentry
      obtain ⟨-, useId, name, result, isError, heq⟩ := mem_queuedResults hentry
      rw [heq, cardFor]
      split_ifs <;> simp
  have hcancelled : (((drainedStarts s).sort (· ≤ ·)).map cancelledResult).filterMap (cardFor id) =
      if id ∈ drainedStarts s then [.result] else [] := by
    rw [List.filterMap_map, cancelledCards (Finset.sort_nodup _ _)]
    simp only [Finset.mem_sort]
  rw [drainQueue_eq]
  simp only [yieldedCards_append]
  rw [show ((queuedResults s.queue).map fun entry => Yielded.event entry.2) =
      ((queuedResults s.queue).map (·.2)).map .event by simp, yieldedCards_events,
    queuedResults_filterMap,
    show (((drainedStarts s).sort (· ≤ ·)).map fun id => Yielded.event (cancelledResult id)) =
      (((drainedStarts s).sort (· ≤ ·)).map cancelledResult).map .event by simp,
    yieldedCards_events, hcancelled]
  simp only [hleft]
  exact drained_balanced (Phase.puts_cases (h.phase id)) hopened

end LiveCards

theorem filterMap_plain {events : List AgentEvent} (hplain : ∀ ev ∈ events, isCard ev = false)
    (id : String) : events.filterMap (cardFor id) = [] :=
  List.filterMap_eq_nil_iff.mpr fun ev hev => cardFor_of_not_isCard (hplain ev hev) id

theorem yieldedCards_finish (s : State) (events : List AgentEvent) (result : MetaResult)
    (id : String) : yieldedCards id ((s.yield events).finish result).yielded =
      yieldedCards id s.yielded ++ events.filterMap (cardFor id) := by
  simp [State.yield, State.finish, yieldedCards_append]

theorem balancedTrace_finish {s : State} (h : BalancedTrace s) {events : List AgentEvent}
    (hplain : ∀ ev ∈ events, isCard ev = false) (result : MetaResult) :
    BalancedTrace ((s.yield events).finish result) := by
  intro id
  rw [yieldedCards_finish, filterMap_plain hplain, List.append_nil]
  exact h id

theorem openingEvents_plain (cfg : Config) (steps : List MetaStep) :
    ∀ ev ∈ openingEvents cfg steps, isCard ev = false := by
  intro ev hev
  simp only [openingEvents, List.mem_append, List.mem_singleton, List.mem_map] at hev
  rcases hev with (hev | rfl) | ⟨st, -, rfl⟩
  · split at hev <;> simp_all [isCard]
  · rfl
  · rfl

theorem initial_liveCards (cfg : Config) {events : List AgentEvent}
    (hplain : ∀ ev ∈ events, isCard ev = false) :
    LiveCards ((initialState cfg cfg.steps).yield events) := by
  have hyielded : ∀ id, yieldedCards id ((initialState cfg cfg.steps).yield events).yielded = [] :=
    fun id => by
      simp only [State.yield, initialState, List.nil_append, yieldedCards_events]
      exact filterMap_plain hplain id
  have htotal : ∀ id, totalCards ((initialState cfg cfg.steps).yield events) id = [] := fun id => by
    rw [totalCards, hyielded]
    rfl
  refine ⟨by simp [State.yield, initialState], fun id => htotal id, fun _ id hopen => ?_,
    fun _ id => ?_, by simp [State.yield, initialState], by simp [State.yield, initialState]⟩
  · simp [htotal] at hopen
  · rw [hyielded]
    simp [State.yield, initialState]

theorem BracketInv.of_live {s : State} (h : LiveCards s)
    (hloop : s.loop = .looping ∨ ∃ sid error, s.loop = .failing sid error) : BracketInv s := by
  refine ⟨fun _ => h, fun hstopped => ?_⟩
  rcases hloop with hloop | ⟨sid, error, hloop⟩ <;> simp [hloop] at hstopped

theorem BracketInv.of_ended {s : State} {result : MetaResult} (hloop : s.loop = .ended result)
    (h : BalancedTrace s) : BracketInv s :=
  ⟨fun hlive => absurd hloop (hlive result), fun _ => h⟩

theorem starts_bracketInv {cfg : Config} (hwf : WellFormed cfg.steps) {s : State}
    (h : Starts cfg s) : BracketInv s := by
  rcases starts_cases h with ⟨events, result, rfl, -, hpreflight⟩ |
    ⟨-, order, t, hnodup, horder, rfl, hs⟩
  · refine .of_ended rfl (balancedTrace_finish (fun _ => .inl rfl) (fun ev hev => ?_) result)
    obtain ⟨canSkip, rfl⟩ := hpreflight ev hev
    rfl
  · have hlive := (initial_liveCards cfg (openingEvents_plain cfg cfg.steps)).spawned
      ((initialState_tables hwf).yield _) hnodup horder cfg.maxParallelism
    rcases hs with ⟨hrunning, rfl⟩ | ⟨-, rfl⟩
    · refine .of_ended rfl (balancedTrace_finish ?_ (by simp [completionEvent, isCard]) _)
      refine hlive.rest_balanced ?_ hrunning ?_
      · rw [(spawnReady_same _ _ _).loop]
        rfl
      · rw [(spawnReady_same _ _ _).queue]
        rfl
    · refine .of_live hlive (.inl ?_)
      rw [(spawnReady_same _ _ _).loop]
      rfl

theorem step_bracketInv {cfg : Config} {s s' : State} {a : Action} (ht : Tables cfg s)
    (hwf : WellFormed cfg.steps) (h : BracketInv s) (hclean : cleanStep s a = true)
    (hstep : cfg.step s a = some s') : BracketInv s' := by
  rcases step_move hstep with ⟨sid, hmove⟩ | hmove
  · have he := hmove.effect ht.failedFinished
    obtain ⟨events, last, cards, hc⟩ := hmove.cardEffect hclean
    refine ⟨fun hlive => (h.live (he.loop ▸ hlive)).task ht he hc, fun hstopped id => ?_⟩
    rw [hc.yielded]
    exact h.settled (he.loop ▸ hstopped) id
  · have hlive := h.live hmove.not_ended
    cases hmove with
    | showEvent order sid ev rest hloop hqueue =>
        exact .of_live (hlive.showEvent (by simp [hloop]) hqueue) (.inl hloop)
    | stepDone order sid text status rest hloop hqueue hnodup horder =>
        obtain ⟨hfinished, hrunning, -, hlast⟩ := ht.head hqueue rfl
        obtain ⟨mirrored, released, he⟩ := onStepDone_effect cfg.steps sid text status
          { s with queue := rest }
        have htables := (ht.tail hqueue).stepDone hwf he hfinished hrunning hlast
        refine .of_live ((hlive.stepDone hqueue cfg.steps).spawned htables hnodup horder _) (.inl ?_)
        rw [(spawnReady_same _ _ _).loop, he.loop]
        exact hloop
    | failover order sid failedId substituteId error rest hloop hqueue hnodup horder =>
        obtain ⟨-, hrunning, ⟨rfl, hfailed, st, hst, rfl, rfl, hsub⟩, hlast⟩ := ht.head hqueue rfl
        have he := (ht.tail hqueue).failover_effect hwf hst hsub hfailed hrunning
        refine .of_live ((hlive.failover hqueue rfl cfg.steps).spawned
          ((ht.tail hqueue).failover hwf he hlast) hnodup horder _) (.inl ?_)
        rw [(spawnReady_same _ _ _).loop, he.eq]
        exact hloop
    | paused order sid stepId rest hloop hqueue =>
        obtain ⟨hfinished, -, rfl, hlast⟩ := ht.head hqueue rfl
        refine ⟨fun _ => hlive.paused hqueue hlast hfinished, fun _ => ?_⟩
        refine hlive.paused_balanced (by simp [hloop]) hqueue ?_
        simpa [cleanStep, hqueue] using hclean
    | exception order sid error rest hloop hqueue =>
        exact .of_live (hlive.exception (by simp [hloop]) hqueue) (.inr ⟨sid, error, rfl⟩)
    | conclude hloop hrunning hqueue =>
        exact .of_ended rfl (balancedTrace_finish (hlive.rest_balanced hloop hrunning hqueue)
          (by simp [completionEvent, isCard]) _)
    | drain failedStepId error hloop hdone =>
        refine .of_ended rfl (balancedTrace_finish (hlive.drain_balanced (by simp [hloop]) ?_)
          (by simp [completionEvent, isCard]) _)
        simpa [cleanStep] using hclean
    | endPause hloop hdone =>
        exact .of_ended rfl (balancedTrace_finish (h.settled (.inl hloop))
          (by simp [completionEvent, isCard]) _)

/-- In a run of clean steps no card is closed before it is opened, none is opened or closed twice,
and every opened card is closed when the terminal result is yielded. -/
theorem run_brackets {pyStr : Raw → String} {spec : SkillSpec} {cfg : Config}
    (hparse : parseMetaPlan pyStr spec = .ok (some cfg.plan)) {s : State}
    (hrun : RunsTo cfg (fun s a => cleanStep s a = true) s) :
    (∀ id, yieldedCards id s.yielded <+: [.start, .result]) ∧
      ∀ result, s.loop = .ended result → BalancedTrace s := by
  have hwf := (parseMetaPlan_accepted hparse).wellFormed
  have h : BracketInv s := hrun.strengthen (fun _ => run_tables hwf)
    (fun _ => starts_bracketInv hwf) fun _ _ _ ht hI hclean hstep =>
      step_bracketInv ht hwf hI hclean hstep
  refine ⟨fun id => ?_, fun result hend => h.settled (.inr ⟨result, hend⟩)⟩
  by_cases hended : ∃ result, s.loop = .ended result
  · rcases h.settled (.inr hended) id with hnone | hclosed
    · simp [hnone]
    · simp [hclosed]
  · have hlive := h.live fun result hloop => hended ⟨result, hloop⟩
    have hpre : yieldedCards id s.yielded <+: totalCards s id := List.prefix_append _ _
    rcases Phase.puts_cases (hlive.phase id) with hnone | hopen | hclosed
    · exact hpre.trans (by simp [hnone])
    · exact hpre.trans (by simp [hopen])
    · exact hpre.trans (by simp [hclosed])

/-! ### A pause next to an open card -/

/-- `ask` pauses for the user while `research` runs. -/
def surveySpec : SkillSpec :=
  metaSpec [rawStep "research" [] [],
    .dict [("id", .str "ask"), ("kind", .str "user_input"),
      ("clarify", .dict [("fields", .list [.dict [("name", .str "topic"),
        ("type", .str "string"), ("prompt", .str "Which topic?")]])])]]

def surveyConfig : Config where
  plan :=
    { name := "report"
      steps := [chatStep "research", { id := "ask", skill := "ask", kind := .userInput }] }

def endedPaused (s : State) : Bool :=
  match s.loop with
  | .ended result => result.paused
  | _ => false

theorem survey_pause_leaves_card_open :
    parseMetaPlan (fun _ => "") surveySpec = .ok (some surveyConfig.plan) ∧
      ∃ s result, RunsTo surveyConfig anyStep s ∧ s.loop = .ended result ∧ result.paused = true ∧
        ¬ BalancedTrace s := by
  refine ⟨by rfl, ?_⟩
  obtain ⟨s, hrun, hs⟩ : ∃ s, RunsTo surveyConfig anyStep s ∧
      (endedPaused s && decide (yieldedCards "research" s.yielded = [.start])) = true :=
    exists_run (by rfl) ["research", "ask"]
      [.evaluate "research" .proceed, .dispatch "research", .evaluate "ask" .proceed,
        .dispatch "ask", .pause "ask", .handle [], .handle [], .handle [], .handle [],
        .handle [], .cancelled "research", .endPause] (by decide)
  rw [Bool.and_eq_true, decide_eq_true_eq] at hs
  obtain ⟨hpaused, hopen⟩ := hs
  unfold endedPaused at hpaused
  split at hpaused
  · rename_i result hloop
    refine ⟨s, result, hrun, hloop, hpaused, fun hbalanced => ?_⟩
    rcases hbalanced "research" with hnone | hclosed
    · simp [hnone] at hopen
    · simp [hclosed] at hopen
  · simp at hpaused

theorem fallback_run_brackets : ∃ s, RunsTo fallbackConfig (fun s a => cleanStep s a = true) s ∧
    (∀ id, yieldedCards id s.yielded <+: [.start, .result]) ∧
      ∀ result, s.loop = .ended result → BalancedTrace s := by
  obtain ⟨s, hrun, -⟩ : ∃ s, RunsTo fallbackConfig (fun s a => cleanStep s a = true) s ∧
      decide (yieldedCards "polish" s.yielded = [.start, .result]) = true :=
    exists_run (by rfl) ["draft", "polish"]
      (draftSucceeds ++ [.evaluate "polish" .proceed, .dispatch "polish", .finish "polish" "done",
        .handle [], .handle [], .handle [], .handle [], .handle [], .conclude]) (by decide)
  exact ⟨s, hrun, run_brackets fallbackSpec_accepted hrun⟩

end OpenStarry.MetaSkill
