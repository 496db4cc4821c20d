import OpenStarry.Usage.Closing

/-!
# The ledger of a scope

Every call of a scope has a generator of its own and an event id made of the number of the call.
Whatever order the generators run in, each row is closed once, as long as the receipts of the events
that are to close a row normalize. A receipt that does not leaves its row open.
-/

namespace OpenStarry.Usage

open Lib Text

variable {V : Type} {values : Values V} {code : V → ErrorCode} {uuid5 : Str → Str}

/-! ### What a closed row is -/

/-- How a generator has dealt with its row. -/
structure Closed (values : Values V) (stream : Stream V) : Prop where
  barrier : stream.providerStarted = true → stream.committed = true
  once : stream.issued.length ≤ 1
  opened : stream.issued ≠ [] → stream.committed = true
  exits : stream.phase = .exited → stream.committed = true → stream.issued.length = 1
  finalizes : (∃ result, .finalize result ∈ stream.issued) ↔
    ∃ event ∈ stream.received, isTerminal values event = true
  finalizesFirst : ∀ result, .finalize result ∈ stream.issued →
    ∃ event, stream.received.find? (isTerminal values) = some event ∧
      receiptOf values stream.call event = .ok result
  unchanged : stream.passed.map (·.fields) <+: stream.received.map (·.fields)
  passes : stream.phase = .streaming ∨ stream.phase = .yielded →
    stream.passed.map (·.fields) = stream.received.map (·.fields)

namespace Stream

variable {s s' : Stream V}

theorem OpenPhase.issued (h : s.OpenPhase) :
    s.issued = [] ∨ s.committed = true ∧ ∃ reason, s.issued = [.markUnknown reason] := by
  unfold OpenPhase at h
  split at h
  · exact .inl h.2
  · exact .inl h.2
  · exact .inl h.2
  · exact .inl h.2
  · exact .inr h
  · exact .inr h
  · exact .inr h
  · exact h.elim
  · exact h.elim
  · exact h.imp And.right id

theorem OpenPhase.exited (h : s.OpenPhase) (hphase : s.phase = .exited)
    (hcommitted : s.committed = true) : s.issued.length = 1 := by
  unfold OpenPhase at h
  rw [hphase] at h
  obtain ⟨hclosed, -⟩ | ⟨-, reason, hissued⟩ := h
  · rw [hcommitted] at hclosed
    cases hclosed
  · rw [hissued]
    rfl

theorem Accounted.passes (h : Accounted values s)
    (hphase : s.phase = .streaming ∨ s.phase = .yielded) :
    s.passed.map (·.fields) = s.received.map (·.fields) := by
  have hpassing := h.passing
  unfold PassedPhase at hpassing
  obtain hphase | hphase := hphase
  · rwa [hphase] at hpassing
  · rwa [hphase] at hpassing

theorem Accounted.closed_of_open (h : Accounted values s) (hterminal : s.terminal = false) :
    Closed values s := by
  obtain ⟨hfind, hopen⟩ := h.unclosed hterminal
  have hissued := hopen.issued
  have hunfinalized : ∀ result, .finalize result ∉ s.issued := by
    intro result hmem
    obtain hnone | ⟨-, reason, hone⟩ := hissued
    · rw [hnone] at hmem
      cases hmem
    · rw [hone, List.mem_singleton] at hmem
      cases hmem
  refine ⟨h.started, ?_, ?_, hopen.exited, ?_, ?_, h.passing.prefix, h.passes⟩
  · obtain hnone | ⟨-, reason, hone⟩ := hissued
    · simp [hnone]
    · simp [hone]
  · intro hne
    obtain hnone | ⟨hcommitted, -⟩ := hissued
    · exact absurd hnone hne
    · exact hcommitted
  · constructor
    · rintro ⟨result, hmem⟩
      exact absurd hmem (hunfinalized result)
    · rintro ⟨event, hevent, hkind⟩
      exact absurd hkind (List.find?_eq_none.mp hfind event hevent)
  · intro result hmem
    exact absurd hmem (hunfinalized result)

theorem Accounted.closed_of_terminal (h : Accounted values s) (hterminal : s.terminal = true) :
    Closed values s := by
  obtain ⟨hcommitted, -, event, result, hfind, hresult, hissued⟩ := h.terminated hterminal
  refine ⟨h.started, ?_, fun _ => hcommitted, fun _ _ => ?_, ?_, ?_, h.passing.prefix, h.passes⟩
  · simp [hissued]
  · simp [hissued]
  · constructor
    · intro _
      exact ⟨event, List.mem_of_find?_eq_some hfind, List.find?_some hfind⟩
    · intro _
      exact ⟨result, by rw [hissued]; exact List.mem_singleton_self _⟩
  · intro other hmem
    rw [hissued, List.mem_singleton] at hmem
    cases hmem
    exact ⟨event, hfind, hresult⟩

theorem Accounted.closed (h : Accounted values s) : Closed values s := by
  cases hterminal : s.terminal with
  | true => exact h.closed_of_terminal hterminal
  | false => exact h.closed_of_open hterminal

/-! ### The call of a generator -/

@[simp] theorem call_exit : s.exit.call = s.call := rfl

@[simp] theorem call_pass (event : Event V) : (s.pass event).call = s.call := rfl

@[simp] theorem call_unwind (cancelled : Bool) (reason : Str) :
    (s.unwind values cancelled reason).call = s.call := by
  unfold Stream.unwind
  split_ifs <;> rfl

@[simp] theorem call_finalize (event : Event V) : (s.finalize values event).call = s.call := by
  unfold Stream.finalize
  dsimp only
  split
  · rfl
  · exact call_unwind _ _

@[simp] theorem call_receive (event : Event V) : (s.receive values code event).call = s.call := by
  unfold Stream.receive
  dsimp only
  split_ifs <;> simp

@[simp] theorem call_startEnds (outcome : Outcome) : (s.startEnds outcome).call = s.call := by
  cases outcome <;> rfl

@[simp] theorem call_resolveStart (outcome : Outcome) : (s.resolveStart outcome).call = s.call := by
  cases outcome <;> rfl

@[simp] theorem call_finalizeEnds (event : Event V) (outcome : Outcome) :
    (s.finalizeEnds values event outcome).call = s.call := by
  cases outcome <;> simp [Stream.finalizeEnds]

theorem call_step {action : StreamAction V} (hstep : s.step values code action = some s') :
    s'.call = s.call := by
  cases action <;> unfold Stream.step at hstep <;> dsimp only at hstep <;> split at hstep <;>
    cases hstep <;> simp

end Stream

/-! ### Scopes -/

def Scope.Normalizes (values : Values V) (s : Scope V) : Action V → Prop
  | .newCall .. => True
  | .act i action => ∀ stream ∈ s.streams[i]?, stream.Normalizes values action

structure Scope.Kept (values : Values V) (uuid5 : Str → Str) (s : Scope V) : Prop where
  accounted : ∀ stream ∈ s.streams, stream.Accounted values
  counted : s.callIndex = s.streams.length
  named : s.streams.map (·.call.eventId) =
    (List.range s.callIndex).map fun i => uuid5 (callName s.context.executionId (i + 1))

variable {s s' : Scope V}

theorem Scope.Kept.initial (h : s.initial) : s.Kept values uuid5 := by
  obtain ⟨hcount, hstreams⟩ := h
  refine ⟨?_, ?_, ?_⟩
  · rw [hstreams]
    exact fun _ hmem => nomatch hmem
  · rw [hcount, hstreams]
    rfl
  · rw [hcount, hstreams]
    rfl

theorem Scope.Kept.newCall (h : s.Kept values uuid5) {provider model : Str} {startedAtMs : Int}
    (hstep : s.step values code uuid5 (.newCall provider model startedAtMs) = some s') :
    s'.Kept values uuid5 := by
  cases Option.some.inj hstep
  refine ⟨?_, ?_, ?_⟩
  · intro stream hmem
    obtain hmem | hmem := List.mem_append.mp hmem
    · exact h.accounted stream hmem
    · rw [List.mem_singleton.mp hmem]
      exact Stream.accounted_opened _
  · show s.callIndex + 1 = (s.streams ++ [_]).length
    rw [List.length_append, h.counted]
    rfl
  · show (s.streams ++ [_]).map _ = (List.range (s.callIndex + 1)).map _
    rw [List.map_append, h.named, List.range_succ, List.map_append]
    rfl

theorem Scope.Kept.act (h : s.Kept values uuid5) {i : Nat} {action : StreamAction V}
    (hnormalizes : s.Normalizes values (.act i action))
    (hstep : s.step values code uuid5 (.act i action) = some s') : s'.Kept values uuid5 := by
  obtain ⟨stream', hstream, rfl⟩ := Option.map_eq_some_iff.mp hstep
  obtain ⟨stream, hget, hstream⟩ := Option.bind_eq_some_iff.mp hstream
  have haccounted := h.accounted stream (List.mem_of_getElem? hget)
  have hcall := Stream.call_step hstream
  refine ⟨?_, ?_, ?_⟩
  · intro other hmem
    obtain hmem | rfl := List.mem_or_eq_of_mem_set hmem
    · exact h.accounted other hmem
    · exact haccounted.step (hnormalizes stream hget) hstream
  · show s.callIndex = (s.streams.set i stream').length
    rw [List.length_set, h.counted]
  · show (s.streams.set i stream').map (·.call.eventId) = _
    obtain ⟨hi, rfl⟩ := List.getElem?_eq_some_iff.mp hget
    have hset : (s.streams.set i stream').map (·.call.eventId) =
        (s.streams.set i s.streams[i]).map (·.call.eventId) := by
      rw [List.map_set, List.map_set, hcall]
    rw [hset, List.set_getElem_self, h.named]

theorem Scope.Kept.step (h : s.Kept values uuid5) {action : Action V}
    (hnormalizes : s.Normalizes values action)
    (hstep : s.step values code uuid5 action = some s') : s'.Kept values uuid5 := by
  cases action with
  | newCall provider model startedAtMs => exact h.newCall hstep
  | act i action => exact h.act hnormalizes hstep

theorem callName_injective (executionId : Str) : Function.Injective (callName executionId) := by
  intro i j hname
  unfold callName at hname
  have hdecimal := List.append_cancel_left hname
  rw [← intOf_decimal i, hdecimal, intOf_decimal]

theorem Scope.Kept.nodup_eventId (h : s.Kept values uuid5)
    (hfresh : Set.InjOn uuid5 (callName s.context.executionId '' Set.Icc 1 s.callIndex)) :
    (s.streams.map (·.call.eventId)).Nodup := by
  rw [h.named]
  apply List.Nodup.map_on _ List.nodup_range
  intro i hi j hj heq
  have hmem : ∀ k ∈ List.range s.callIndex,
      callName s.context.executionId (k + 1) ∈
        callName s.context.executionId '' Set.Icc 1 s.callIndex := by
    intro k hk
    rw [List.mem_range] at hk
    exact ⟨k + 1, ⟨by omega, hk⟩, rfl⟩
  have hname := hfresh (hmem i hi) (hmem j hj) heq
  exact Nat.succ.inj (callName_injective _ hname)

/-! ### Every run -/

/-- Where receipts normalize, every row is closed once in any run of a scope. No two calls share an
event id, unless two of their names collide. -/
theorem provider_call_is_closed_once (values : Values V) (code : V → ErrorCode) (uuid5 : Str → Str)
    {s : Scope V}
    (hreach : Reach Scope.initial (Scope.step values code uuid5) (Scope.Normalizes values) s) :
    (∀ stream ∈ s.streams, Closed values stream) ∧
      (Set.InjOn uuid5 (callName s.context.executionId '' Set.Icc 1 s.callIndex) →
        (s.streams.map (·.call.eventId)).Nodup) := by
  have hkept : s.Kept values uuid5 :=
    hreach.invariant (fun _ => Scope.Kept.initial) fun _ _ _ h hguard hstep => h.step hguard hstep
  exact ⟨fun stream hmem => (hkept.accounted stream hmem).closed, hkept.nodup_eventId⟩

/-! ### Runs -/

instance (s : Stream V) (action : StreamAction V) : Decidable (s.Normalizes values action) :=
  match action with
  | .providerEvent event => inferInstanceAs (Decidable (s.terminal = false →
      isTerminal values event = true → (receiptOf values s.call event).isOk = true))
  | .sinkEnds _ | .cancel | .providerEnds | .providerRaises | .providerCancelled | .graceEnds
  | .resume | .close | .throwException | .throwCancellation => .isTrue trivial

instance (s : Scope V) (action : Action V) : Decidable (s.Normalizes values action) :=
  match action with
  | .newCall .. => .isTrue trivial
  | .act i action => inferInstanceAs
      (Decidable (∀ stream ∈ s.streams[i]?, stream.Normalizes values action))

/-- Values that are `None` or an integer. -/
def sampleValues : Values (Option Nat) where
  none := .none
  zero := some 0
  one := some 1
  isNone := Option.isNone
  truthy value := value.any (· ≠ 0)
  str value := value.elim "None".toList decimal
  decimal value := value.elim .invalid fun n => .amount ⟨n, 0⟩
  int value := value.map Int.ofNat
  float value := value.elim .invalid fun n => .amount ⟨n, 0⟩
  integer value := value.map Int.ofNat
  mapping _ := .none
  receipt _ := .none
  lower := id
  upper := id
  estimate _ _ _ _ _ _ := .ok (.amount ⟨0, 0⟩, "free".toList, "sample".toList)

def sampleEvent (kind : String) (tokens billed : Nat) : Event (Option Nat) where
  fields :=
    { kind := kind.toList
      code := none
      inputTokens := some tokens
      outputTokens := some tokens
      reasoningTokens := none
      cachedTokens := none
      cacheWriteTokens := none
      billedCost := some billed
      costSource := none
      billingReceipt := none
      provider := none
      model := none
      usageMissingCount := none
      modelUsageBreakdown := none }
  deployment := none

def sampleScope : Scope (Option Nat) where
  context := ⟨"e".toList, "a".toList, none, none, none, 0, "main".toList, "turn".toList⟩
  callIndex := 0
  streams := []

theorem sampleScope_initial : sampleScope.initial := ⟨rfl, rfl⟩

abbrev sampleStep := Scope.step sampleValues (fun _ => .other) id

def sampleRun : List (Action (Option Nat)) :=
  [.newCall "p".toList "m".toList 0, .newCall "p".toList "m".toList 0,
    .act 0 (.sinkEnds .completed), .act 1 .cancel,
    .act 0 (.providerEvent (sampleEvent "delta" 0 0)), .act 0 .resume,
    .act 1 (.sinkEnds .completed), .act 1 (.sinkEnds .raised),
    .act 0 (.providerEvent (sampleEvent "done" 3 2)), .act 0 (.sinkEnds .raised), .act 0 .resume,
    .act 0 (.providerEvent (sampleEvent "done" 0 0)), .act 0 .close]

theorem second_done_is_passed_on : ∃ s,
    runActions (guardedStep sampleStep (Scope.Normalizes sampleValues)) sampleRun sampleScope =
        some s ∧
      (∀ stream ∈ s.streams, Closed sampleValues stream) ∧
      (s.streams.map (·.call.eventId)).Nodup := by
  obtain ⟨s, hs⟩ : ∃ s, runActions
      (guardedStep sampleStep (Scope.Normalizes sampleValues)) sampleRun sampleScope = some s :=
    Option.isSome_iff_exists.mp (by decide +kernel)
  have hreach := (Reach.start sampleScope_initial).actions hs
  have hclosed := provider_call_is_closed_once sampleValues (fun _ => .other) id hreach
  exact ⟨s, hs, hclosed.1, hclosed.2 fun _ _ _ _ h => h⟩

/-- A call whose done event bills `10 ^ 19` dollars. -/
def hugeBillRun : List (Action (Option Nat)) :=
  [.newCall "p".toList "m".toList 0, .act 0 (.sinkEnds .completed),
    .act 0 (.providerEvent (sampleEvent "done" 3 (10 ^ 19)))]

/-- The row of that call is left open. -/
theorem huge_bill_is_left_open : ¬ ∀ s, Reach Scope.initial sampleStep anyStep s →
    ∀ stream ∈ s.streams, Closed sampleValues stream := by
  intro h
  have hrun : (runActions (guardedStep sampleStep anyStep) hugeBillRun sampleScope).any (fun s =>
      s.streams.any fun stream => stream.phase matches .exited && stream.committed &&
        stream.issued.isEmpty) = true := by decide +kernel
  obtain ⟨s, hs, hstreams⟩ := (Option.any_eq_true _ _).mp hrun
  obtain ⟨stream, hmem, hstream⟩ := List.any_eq_true.mp hstreams
  have hreach := (Reach.start sampleScope_initial).actions hs
  simp only [Bool.and_eq_true, List.isEmpty_iff] at hstream
  obtain ⟨⟨hphase, hcommitted⟩, hissued⟩ := hstream
  have hexited : stream.phase = .exited := by
    split at hphase
    · assumption
    · cases hphase
  have hlength := (h s hreach stream hmem).exits hexited hcommitted
  rw [hissued] at hlength
  cases hlength

end OpenStarry.Usage
