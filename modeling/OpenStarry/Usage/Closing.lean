import OpenStarry.Usage.Streams

/-!
# A row of the ledger is closed once

While the receipts of terminal events normalize, a generator hands the sink one terminal operation
for a row that it has opened: the first terminal event finalizes it, and an exit without one marks
it unknown.
-/

namespace OpenStarry.Usage

open Lib Text

variable {V : Type} (values : Values V)

def isTerminal (event : Event V) : Bool :=
  event.fields.kind = "done".toList ||
    decide (event.fields.kind = "error".toList) && hasKnownProviderUsageReceipt values event.fields

def receiptOf (call : UsageCallStart) (event : Event V) : Except UsageError UsageCallResult :=
  normalizeProviderUsage values event.fields call.provider call.model

namespace Stream

variable {values}

def OpenPhase (s : Stream V) : Prop :=
  match s.phase with
  | .starting | .resolvingStart => s.committed = false ∧ s.issued = []
  | .streaming | .yielded => s.committed = true ∧ s.issued = []
  | .closingStart | .marking | .markingAfterCancellation =>
      s.committed = true ∧ ∃ reason, s.issued = [.markUnknown reason]
  | .finalizing _ | .resolvingFinalize => False
  | .exited => s.committed = false ∧ s.issued = [] ∨
      s.committed = true ∧ ∃ reason, s.issued = [.markUnknown reason]

def TerminalPhase (s : Stream V) : Prop :=
  match s.phase with
  | .streaming | .yielded | .finalizing _ | .resolvingFinalize | .exited => True
  | _ => False

def PassedPhase (s : Stream V) : Prop :=
  match s.phase with
  | .starting | .streaming | .yielded => s.passed.map (·.fields) = s.received.map (·.fields)
  | .finalizing event => s.passed.map (·.fields) ++ [event.fields] = s.received.map (·.fields)
  | _ => s.passed.map (·.fields) <+: s.received.map (·.fields)

variable (values) in
structure Accounted (s : Stream V) : Prop where
  started : s.providerStarted = true → s.committed = true
  unclosed : s.terminal = false → s.received.find? (isTerminal values) = none ∧ s.OpenPhase
  terminated : s.terminal = true → s.committed = true ∧ s.TerminalPhase ∧
    ∃ event result, s.received.find? (isTerminal values) = some event ∧
      receiptOf values s.call event = .ok result ∧ s.issued = [.finalize result]
  passing : s.PassedPhase

variable {code : V → ErrorCode} {s s' : Stream V}

theorem accounted_opened (call : UsageCallStart) : Accounted values (opened call : Stream V) where
  started := fun h => by cases h
  unclosed := fun _ => ⟨rfl, rfl, rfl⟩
  terminated := fun h => by cases h
  passing := rfl

theorem PassedPhase.prefix (h : s.PassedPhase) :
    s.passed.map (·.fields) <+: s.received.map (·.fields) := by
  unfold PassedPhase at h
  split at h
  · exact h ▸ List.prefix_refl _
  · exact h ▸ List.prefix_refl _
  · exact h ▸ List.prefix_refl _
  · rw [← h]
    exact List.prefix_append _ _
  · exact h

theorem Accounted.exit (h : Accounted values s)
    (hphase : s.phase ≠ .streaming ∧ s.phase ≠ .yielded) : Accounted values s.exit where
  started := h.started
  unclosed := by
    intro hterminal
    obtain ⟨hfind, hopen⟩ := h.unclosed hterminal
    refine ⟨hfind, ?_⟩
    unfold OpenPhase at hopen
    split at hopen
    · exact .inl hopen
    · exact .inl hopen
    · exact absurd ‹_› hphase.1
    · exact absurd ‹_› hphase.2
    · exact .inr hopen
    · exact .inr hopen
    · exact .inr hopen
    · exact hopen.elim
    · exact hopen.elim
    · exact hopen
  terminated := by
    intro hterminal
    obtain ⟨hcommitted, -, hrest⟩ := h.terminated hterminal
    exact ⟨hcommitted, trivial, hrest⟩
  passing := h.passing.prefix

/-- The `finally` of a generator that has received a terminal event. -/
theorem Accounted.unwind_terminal (h : Accounted values s) (hterminal : s.terminal = true)
    (cancelled : Bool) (reason : Str) : Accounted values (s.unwind values cancelled reason) := by
  unfold Stream.unwind
  rw [if_pos hterminal]
  obtain ⟨hcommitted, -, hrest⟩ := h.terminated hterminal
  refine ⟨h.started, fun hfalse => ?_, fun _ => ⟨hcommitted, trivial, hrest⟩, h.passing.prefix⟩
  exact absurd hterminal (by rw [show s.terminal = false from hfalse]; decide)

/-- The `finally` from a phase in which the row is still to be closed unless it is terminal. -/
theorem Accounted.unwind (h : Accounted values s)
    (hphase : s.phase = .streaming ∨ s.phase = .yielded) (cancelled : Bool) (reason : Str) :
    Accounted values (s.unwind values cancelled reason) := by
  cases hterminal : s.terminal with
  | true => exact h.unwind_terminal hterminal cancelled reason
  | false =>
      unfold Stream.unwind
      rw [if_neg (by simp [hterminal])]
      obtain ⟨hfind, hopen⟩ := h.unclosed hterminal
      obtain ⟨hcommitted, hissued⟩ : s.committed = true ∧ s.issued = [] := by
        unfold OpenPhase at hopen
        obtain hstreaming | hyielded := hphase
        · rwa [hstreaming] at hopen
        · rwa [hyielded] at hopen
      refine ⟨h.started, fun _ => ⟨hfind, ?_⟩, fun htrue => ?_, ?_⟩
      · unfold OpenPhase
        cases cancelled <;> exact ⟨hcommitted, _, by rw [hissued]; rfl⟩
      · exact absurd hterminal (by rw [show s.terminal = true from htrue]; decide)
      · unfold PassedPhase
        cases cancelled <;> exact h.passing.prefix

/-! ### The events of the provider -/

theorem Accounted.reasoned (h : Accounted values s) (reason : Str) :
    Accounted values { s with unknownReason := reason } :=
  ⟨h.started, h.unclosed, h.terminated, h.passing⟩

theorem Accounted.streaming (h : Accounted values s) (hphase : s.phase = .streaming)
    (hterminal : s.terminal = false) :
    s.received.find? (isTerminal values) = none ∧ s.committed = true ∧ s.issued = [] := by
  obtain ⟨hfind, hopen⟩ := h.unclosed hterminal
  unfold OpenPhase at hopen
  rw [hphase] at hopen
  exact ⟨hfind, hopen⟩

theorem Accounted.all_passed (h : Accounted values s) (hphase : s.phase = .streaming) :
    s.passed.map (·.fields) = s.received.map (·.fields) := by
  have hpassing := h.passing
  unfold PassedPhase at hpassing
  rwa [hphase] at hpassing

theorem Accounted.pass (h : Accounted values s) (hphase : s.phase = .streaming) {event : Event V}
    (hlater : isTerminal values event = true → s.terminal = true) :
    Accounted values ({ s with received := s.received ++ [event] }.pass event) where
  started := h.started
  unclosed := by
    intro hterminal
    obtain ⟨hfind, hopen⟩ := h.streaming hphase hterminal
    have hevent : isTerminal values event = false := by
      cases hkind : isTerminal values event with
      | true => exact absurd (hlater hkind) (by rw [show s.terminal = false from hterminal]; decide)
      | false => rfl
    refine ⟨?_, hopen⟩
    show (s.received ++ [event]).find? (isTerminal values) = none
    rw [List.find?_append, hfind, Option.none_or, List.find?_singleton, hevent]
    rfl
  terminated := by
    intro hterminal
    obtain ⟨hcommitted, -, first, result, hfind, hresult, hissued⟩ := h.terminated hterminal
    refine ⟨hcommitted, trivial, first, result, ?_, hresult, hissued⟩
    show (s.received ++ [event]).find? (isTerminal values) = some first
    rw [List.find?_append, hfind, Option.some_or]
  passing := by
    show (s.passed ++ [event]).map (·.fields) = (s.received ++ [event]).map (·.fields)
    rw [List.map_append, List.map_append, h.all_passed hphase]

theorem Accounted.finalize (h : Accounted values s) (hphase : s.phase = .streaming)
    (hterminal : s.terminal = false) {event noted : Event V} (hfields : noted.fields = event.fields)
    (hkind : isTerminal values event = true) {result : UsageCallResult}
    (hresult : receiptOf values s.call event = .ok result) :
    Accounted values ({ s with received := s.received ++ [event] }.finalize values noted) := by
  obtain ⟨hfind, hcommitted, hissued⟩ := h.streaming hphase hterminal
  have hnoted : normalizeProviderUsage values noted.fields s.call.provider s.call.model =
      .ok result := by
    rw [hfields]
    exact hresult
  unfold Stream.finalize
  dsimp only
  rw [hnoted]
  refine ⟨h.started, fun hfalse => (by cases hfalse), fun _ => ⟨hcommitted, trivial, ?_⟩, ?_⟩
  · refine ⟨event, result, ?_, hresult, ?_⟩
    · show (s.received ++ [event]).find? (isTerminal values) = some event
      rw [List.find?_append, hfind, Option.none_or, List.find?_singleton, hkind]
      rfl
    · show s.issued ++ [.finalize result] = [.finalize result]
      rw [hissued, List.nil_append]
  · show s.passed.map (·.fields) ++ [noted.fields] = (s.received ++ [event]).map (·.fields)
    rw [List.map_append, h.all_passed hphase, hfields]
    rfl

def Normalizes (values : Values V) (s : Stream V) : StreamAction V → Prop
  | .providerEvent event => s.terminal = false → isTerminal values event = true →
      (receiptOf values s.call event).isOk = true
  | _ => True

theorem isTerminal_iff {event : Event V} : isTerminal values event = true ↔
    event.fields.kind = "done".toList ∨ event.fields.kind = "error".toList ∧
      hasKnownProviderUsageReceipt values event.fields = true := by
  unfold isTerminal
  rw [Bool.or_eq_true, Bool.and_eq_true, decide_eq_true_eq, decide_eq_true_eq]

theorem Accounted.receive (h : Accounted values s) (hphase : s.phase = .streaming)
    {event : Event V} (hnormalizes : Normalizes values s (.providerEvent event)) :
    Accounted values (s.receive values code event) := by
  have hreasoned := h.reasoned (providerErrorUsageReason values.lower (code event.fields.code))
  unfold Stream.receive
  dsimp only
  split_ifs with hdone herror hreceipt
  · have hkind : isTerminal values event = true := isTerminal_iff.mpr (.inl hdone.1)
    obtain ⟨result, hresult⟩ := exists_of_isOk (hnormalizes hdone.2 hkind)
    exact h.finalize hphase hdone.2 rfl hkind hresult
  · have hkind : isTerminal values event = true :=
      isTerminal_iff.mpr (.inr ⟨herror, hreceipt.1⟩)
    obtain ⟨result, hresult⟩ := exists_of_isOk (hnormalizes hreceipt.2 hkind)
    exact hreasoned.finalize hphase hreceipt.2 rfl hkind hresult
  · apply hreasoned.pass hphase
    intro hkind
    by_contra hterminal
    rw [Bool.not_eq_true] at hterminal
    obtain hkind | hkind := isTerminal_iff.mp hkind
    · exact hdone ⟨hkind, hterminal⟩
    · exact hreceipt ⟨hkind.2, hterminal⟩
  · apply h.pass hphase
    intro hkind
    by_contra hterminal
    rw [Bool.not_eq_true] at hterminal
    obtain hkind | hkind := isTerminal_iff.mp hkind
    · exact hdone ⟨hkind, hterminal⟩
    · exact herror hkind.1

/-! ### The operations of the sink -/

theorem Accounted.starting (h : Accounted values s)
    (hphase : s.phase = .starting ∨ s.phase = .resolvingStart) :
    s.terminal = false ∧ s.received.find? (isTerminal values) = none ∧ s.committed = false ∧
      s.issued = [] := by
  cases hterminal : s.terminal with
  | true =>
      obtain ⟨-, hwhere, -⟩ := h.terminated hterminal
      unfold TerminalPhase at hwhere
      obtain hphase | hphase := hphase
      · rw [hphase] at hwhere
        exact hwhere.elim
      · rw [hphase] at hwhere
        exact hwhere.elim
  | false =>
      obtain ⟨hfind, hopen⟩ := h.unclosed hterminal
      unfold OpenPhase at hopen
      obtain hphase | hphase := hphase
      · rw [hphase] at hopen
        exact ⟨rfl, hfind, hopen⟩
      · rw [hphase] at hopen
        exact ⟨rfl, hfind, hopen⟩

theorem Accounted.abandon (h : Accounted values s)
    (hphase : s.phase = .starting ∨ s.phase = .resolvingStart) : Accounted values s.exit := by
  apply h.exit
  obtain hphase | hphase := hphase <;> rw [hphase] <;> exact ⟨by simp, by simp⟩

theorem Accounted.startEnds (h : Accounted values s) (hphase : s.phase = .starting)
    (outcome : Outcome) : Accounted values (s.startEnds outcome) := by
  obtain ⟨hterminal, hfind, -, hissued⟩ := h.starting (.inl hphase)
  have hpassing := h.passing
  unfold PassedPhase at hpassing
  rw [hphase] at hpassing
  cases outcome with
  | completed =>
      refine ⟨fun _ => rfl, fun _ => ⟨hfind, rfl, hissued⟩, fun htrue => ?_, hpassing⟩
      exact absurd hterminal (by rw [show s.terminal = true from htrue]; decide)
  | raised => exact h.abandon (.inl hphase)
  | cancelled => exact h.abandon (.inl hphase)

theorem Accounted.resolveStart (h : Accounted values s) (hphase : s.phase = .resolvingStart)
    (outcome : Outcome) : Accounted values (s.resolveStart outcome) := by
  obtain ⟨hterminal, hfind, -, hissued⟩ := h.starting (.inr hphase)
  cases outcome with
  | completed =>
      refine ⟨fun _ => rfl, fun _ => ⟨hfind, rfl, ?_⟩, fun htrue => ?_, h.passing.prefix⟩
      · refine ⟨"cancelled_before_provider_request".toList, ?_⟩
        show s.issued ++ [_] = [_]
        rw [hissued, List.nil_append]
      · exact absurd hterminal (by rw [show s.terminal = true from htrue]; decide)
  | raised => exact h.abandon (.inr hphase)
  | cancelled => exact h.abandon (.inr hphase)

/-- A generator that waits for `sink.finalize` has received a terminal event. -/
theorem Accounted.terminal_of_finalizing (h : Accounted values s)
    (hphase : (∃ event, s.phase = .finalizing event) ∨ s.phase = .resolvingFinalize) :
    s.terminal = true := by
  by_contra hterminal
  rw [Bool.not_eq_true] at hterminal
  obtain ⟨-, hopen⟩ := h.unclosed hterminal
  unfold OpenPhase at hopen
  obtain ⟨event, hphase⟩ | hphase := hphase
  · rw [hphase] at hopen
    exact hopen
  · rw [hphase] at hopen
    exact hopen

theorem Accounted.finalizeEnds (h : Accounted values s) {event : Event V}
    (hphase : s.phase = .finalizing event) (outcome : Outcome) :
    Accounted values (s.finalizeEnds values event outcome) := by
  have hterminal := h.terminal_of_finalizing (.inl ⟨event, hphase⟩)
  have hpassed : Accounted values (Stream.pass s event) := by
    obtain ⟨hcommitted, -, hrest⟩ := h.terminated hterminal
    refine ⟨h.started, fun hfalse => ?_, fun _ => ⟨hcommitted, trivial, hrest⟩, ?_⟩
    · exact absurd hterminal (by rw [show s.terminal = false from hfalse]; decide)
    · have hpassing := h.passing
      unfold PassedPhase at hpassing
      rw [hphase] at hpassing
      show (s.passed ++ [event]).map (·.fields) = s.received.map (·.fields)
      rw [List.map_append]
      exact hpassing
  cases outcome with
  | completed => exact hpassed
  | raised => exact hpassed
  | cancelled => exact h.unwind_terminal hterminal true _

/-- Cancelled behind the shield of `sink.finalize`. -/
theorem Accounted.resolvingFinalize (h : Accounted values s)
    (hterminal : s.terminal = true) : Accounted values { s with phase := .resolvingFinalize } := by
  obtain ⟨hcommitted, -, hrest⟩ := h.terminated hterminal
  refine ⟨h.started, fun hfalse => ?_, fun _ => ⟨hcommitted, trivial, hrest⟩, h.passing.prefix⟩
  exact absurd hterminal (by rw [show s.terminal = false from hfalse]; decide)

theorem Accounted.resolvingStart (h : Accounted values s) (hphase : s.phase = .starting) :
    Accounted values { s with phase := .resolvingStart } := by
  obtain ⟨hterminal, hfind, hcommitted, hissued⟩ := h.starting (.inl hphase)
  refine ⟨h.started, fun _ => ⟨hfind, hcommitted, hissued⟩, fun htrue => ?_, h.passing.prefix⟩
  exact absurd hterminal (by rw [show s.terminal = true from htrue]; decide)

theorem Accounted.resume (h : Accounted values s) (hphase : s.phase = .yielded) :
    Accounted values { s with phase := .streaming } := by
  have hpassing := h.passing
  unfold PassedPhase at hpassing
  rw [hphase] at hpassing
  refine ⟨h.started, fun hterminal => ?_, fun hterminal => ?_, hpassing⟩
  · obtain ⟨hfind, hopen⟩ := h.unclosed hterminal
    unfold OpenPhase at hopen
    rw [hphase] at hopen
    exact ⟨hfind, hopen⟩
  · obtain ⟨hcommitted, -, hrest⟩ := h.terminated hterminal
    exact ⟨hcommitted, trivial, hrest⟩

theorem Accounted.sinkEnds (h : Accounted values s) {outcome : Outcome}
    (hstep : s.step values code (.sinkEnds outcome) = some s') : Accounted values s' := by
  unfold Stream.step at hstep
  dsimp only at hstep
  split at hstep
  · exact Option.some.inj hstep ▸ h.startEnds ‹_› outcome
  · exact Option.some.inj hstep ▸ h.resolveStart ‹_› outcome
  · exact Option.some.inj hstep ▸ h.exit (by simp [*])
  · exact Option.some.inj hstep ▸ h.finalizeEnds ‹_› outcome
  · have hterminal := h.terminal_of_finalizing (.inr ‹_›)
    exact Option.some.inj hstep ▸ h.unwind_terminal hterminal true _
  · exact Option.some.inj hstep ▸ h.exit (by simp [*])
  · exact Option.some.inj hstep ▸ h.exit (by simp [*])
  · cases hstep

theorem Accounted.cancel (h : Accounted values s)
    (hstep : s.step values code .cancel = some s') : Accounted values s' := by
  unfold Stream.step at hstep
  dsimp only at hstep
  split at hstep
  · exact Option.some.inj hstep ▸ h.resolvingStart ‹_›
  · have hterminal := h.terminal_of_finalizing (.inl ⟨_, ‹_›⟩)
    exact Option.some.inj hstep ▸ h.resolvingFinalize hterminal
  · exact Option.some.inj hstep ▸ h.exit (by simp [*])
  · exact Option.some.inj hstep ▸ h.exit (by simp [*])
  · exact Option.some.inj hstep ▸ h
  · exact Option.some.inj hstep ▸ h
  · exact Option.some.inj hstep ▸ h
  · exact Option.some.inj hstep ▸ h
  · cases hstep
  · cases hstep

theorem Accounted.step (h : Accounted values s) {action : StreamAction V}
    (hnormalizes : Normalizes values s action) (hstep : s.step values code action = some s') :
    Accounted values s' := by
  cases action with
  | sinkEnds outcome => exact h.sinkEnds hstep
  | cancel => exact h.cancel hstep
  | providerEvent event =>
      unfold Stream.step at hstep
      dsimp only at hstep
      split at hstep
      · exact Option.some.inj hstep ▸ h.receive ‹_› hnormalizes
      · cases hstep
  | resume =>
      unfold Stream.step at hstep
      dsimp only at hstep
      split at hstep
      · exact Option.some.inj hstep ▸ h.resume ‹_›
      · cases hstep
  | graceEnds =>
      unfold Stream.step at hstep
      dsimp only at hstep
      split at hstep
      · exact Option.some.inj hstep ▸ h.exit (by simp [*])
      · cases hstep
  | providerEnds | providerRaises | providerCancelled =>
      unfold Stream.step at hstep
      dsimp only at hstep
      split at hstep
      · exact Option.some.inj hstep ▸ h.unwind (.inl ‹_›) _ _
      · cases hstep
  | close | throwException | throwCancellation =>
      unfold Stream.step at hstep
      dsimp only at hstep
      split at hstep
      · exact Option.some.inj hstep ▸ h.unwind (.inr ‹_›) _ _
      · cases hstep

end Stream

end OpenStarry.Usage
