import OpenStarry.TextTools.Candidates

/-!
# Envelopes that are cut

A stream ends anywhere. What is left of an envelope is incomplete, unless the cut falls into the
name or the rest of an opening tag: the parser knows no tag begun but its first characters up to the
name.
-/

namespace OpenStarry.TextTools

open Lib Lib.Text

variable {normal : Number → Number} {u : Unicode}

/-! ### Where a cut falls -/

def CutsIn {α : Type} (render : α → Str) (cuts : α → Nat → Prop) : List α → Nat → Prop
  | [], _ => False
  | x :: xs, n =>
      n < (render x).length ∧ cuts x n ∨
        (render x).length ≤ n ∧ CutsIn render cuts xs (n - (render x).length)

def Parameter.Cut (p : Parameter normal) (n : Nat) : Prop :=
  p.space.length + parameterHead.length < n ∧ n < p.space.length + p.opening.length

def Invoke.Cut (v : Invoke normal) (n : Nat) : Prop :=
  v.space.length + invokeHead.length < n ∧ n < v.space.length + v.opening.length ∨
    v.space.length + v.opening.length ≤ n ∧
      CutsIn Parameter.render Parameter.Cut v.parameters (n - (v.space.length + v.opening.length))

/-- The cut of an envelope falls behind the `name="` of an opening tag and in front of its end. -/
def Envelope.CutInTag (env : Envelope normal) (n : Nat) : Prop :=
  CutsIn Invoke.render Invoke.Cut env.invokes (n - toolCallsOpen.length)

/-! ### Tokens that are cut -/

theorem take_append_of_lt {front back : Str} {n : Nat} (h : n < front.length) :
    (front ++ back).take n = front.take n := List.take_append_of_le_length (Nat.le_of_lt h)

theorem take_append_of_le {front back : Str} {n : Nat} (h : front.length ≤ n) :
    (front ++ back).take n = front ++ back.take (n - front.length) := by
  rw [List.take_append, List.take_of_length_le h]

theorem not_prefix_take {token text : Str} {n : Nat} (h : n < token.length) :
    ¬ token <+: text.take n := by
  intro hprefix
  have hlength := hprefix.length_le
  rw [List.length_take] at hlength
  omega

theorem skip_take {space token : Str} (h : Blank space) (htoken : ∃ rest, token = '<' :: rest)
    (n : Nat) : skipDsmlWhitespace ((space ++ token).take n) = token.take (n - space.length) := by
  obtain ⟨rest, rfl⟩ := htoken
  rw [List.take_append]
  cases hm : n - space.length with
  | zero =>
      rw [List.take_zero, List.append_nil]
      apply skip_eq_nil
      intro c hc
      exact h c (List.mem_of_mem_take hc)
  | succ m =>
      rw [List.take_of_length_le (by omega), List.take_succ_cons]
      exact skip_append h _

theorem expected_take_iff {head back close : Str} (hclose : ¬ head <+: close) {m : Nat}
    (hm : m ≤ (head ++ back).length) :
    dsmlExpectedTokenReason ((head ++ back).take m) [head, close] = .dsmlIncomplete ↔
      m ≤ head.length := by
  by_cases hle : m ≤ head.length
  · refine iff_of_true (if_pos (Or.inr ⟨head, by simp, ?_⟩)) hle
    rw [List.take_append_of_le_length hle]
    exact List.take_prefix m head
  · refine iff_of_false ?_ hle
    rw [Nat.not_le] at hle
    have hhead : head <+: (head ++ back).take m := by
      rw [take_append_of_le (Nat.le_of_lt hle)]
      exact List.prefix_append _ _
    have hlength : ((head ++ back).take m).length = m := by
      rw [List.length_take, Nat.min_eq_left hm]
    have hnot : ¬ ((head ++ back).take m = [] ∨
        ∃ token ∈ [head, close], (head ++ back).take m <+: token) := by
      rintro (hnil | ⟨token, hmem, hprefix⟩)
      · rw [hnil, List.length_nil] at hlength
        omega
      · cases List.mem_pair.1 hmem with
        | inl heq =>
            have hshort := hprefix.length_le
            rw [hlength, heq] at hshort
            omega
        | inr heq => exact hclose (hhead.trans (heq ▸ hprefix))
    rw [dsmlExpectedTokenReason, if_neg hnot]
    simp

/-! ### Cut parameters -/

theorem parameterOpen_take_eq_none (p : Parameter normal) {m : Nat} (hm : m < p.opening.length) :
    parameterOpen (p.opening.take m) = none := by
  cases h : parameterOpen (p.opening.take m) with
  | none => rfl
  | some found =>
      obtain ⟨name, isString, rest⟩ := found
      obtain ⟨tagName, rfl, htake⟩ := exists_of_parameterOpen h
      have hread := parameterOpen_append tagName isString (rest ++ p.opening.drop m)
      rw [← List.append_assoc, ← htake, List.take_append_drop] at hread
      have hwhole := parameterOpen_append p.name p.isString []
      rw [List.append_nil] at hwhole
      have heq := hread.symm.trans hwhole
      have hnil : rest ++ p.opening.drop m = [] := by
        injection heq with heq
        injection heq with _ heq
        injection heq
      have hlength := congrArg List.length hnil
      rw [List.length_append, List.length_drop, List.length_nil] at hlength
      omega

theorem invokeOpen_take_eq_none (v : Invoke normal) {m : Nat} (hm : m < v.opening.length) :
    invokeOpen (v.opening.take m) = none := by
  cases h : invokeOpen (v.opening.take m) with
  | none => rfl
  | some found =>
      obtain ⟨name, rest⟩ := found
      obtain ⟨tagName, rfl, htake⟩ := exists_of_invokeOpen h
      have hread := invokeOpen_append tagName (rest ++ v.opening.drop m)
      rw [← List.append_assoc, ← htake, List.take_append_drop] at hread
      have hwhole := invokeOpen_append v.name []
      rw [List.append_nil] at hwhole
      have heq := hread.symm.trans hwhole
      have hnil : rest ++ v.opening.drop m = [] := by
        injection heq with heq
        injection heq
      have hlength := congrArg List.length hnil
      rw [List.length_append, List.length_drop, List.length_nil] at hlength
      omega

theorem find_take_eq_none {raw : Str} (hraw : ¬ parameterClose <:+: raw) {m : Nat}
    (hm : m < (raw ++ parameterClose).length) :
    find parameterClose ((raw ++ parameterClose).take m) = none := by
  rw [find_eq_none_iff (by decide)]
  intro i hoccurs
  have hfits := hoccurs.add_length_le (by decide)
  rw [List.length_take] at hfits
  rw [List.length_append] at hm
  apply @not_occursAt_of_lt raw [] hraw i (by omega)
  rw [List.append_nil, OccursAt, ← List.take_append_drop m (raw ++ parameterClose), List.drop_append]
  exact List.IsPrefix.trans hoccurs (List.prefix_append _ _)

section

variable {arguments : Dict} {fuel : Nat}

theorem parseParameters_cutClose {space : Str} (h : Blank space) {n : Nat}
    (hn : n < (space ++ invokeClose).length) :
    parseParameters normal (fuel + 1) ((space ++ invokeClose).take n) arguments =
      .error .dsmlIncomplete := by
  rw [List.length_append] at hn
  have hopen : parameterOpen (invokeClose.take (n - space.length)) = none := by
    cases hfound : parameterOpen (invokeClose.take (n - space.length)) with
    | none => rfl
    | some found =>
        obtain ⟨name, isString, rest⟩ := found
        obtain ⟨tagName, -, htake⟩ := exists_of_parameterOpen hfound
        have hprefix : parameterHead <+: invokeClose := by
          apply List.IsPrefix.trans _ (List.take_prefix (n - space.length) invokeClose)
          rw [htake, List.append_assoc, List.append_assoc]
          exact List.prefix_append _ _
        exact absurd hprefix (by decide)
  have hreason : dsmlExpectedTokenReason (invokeClose.take (n - space.length))
      [parameterHead, invokeClose] = .dsmlIncomplete :=
    if_pos (Or.inr ⟨invokeClose, by simp, List.take_prefix _ _⟩)
  have hskip : skipDsmlWhitespace ((space ++ invokeClose).take n) =
      invokeClose.take (n - space.length) := skip_take h ⟨_, rfl⟩ n
  have hpos : 0 < invokeClose.length := by decide
  rw [parseParameters, hskip, if_neg (not_prefix_take (by omega)), hopen]
  dsimp only
  rw [hreason]

theorem parseParameters_cutOpening (p : Parameter normal) {n : Nat}
    (hn : n < p.space.length + p.opening.length) :
    parseParameters normal (fuel + 1) ((p.space ++ p.opening).take n) arguments =
      .error (dsmlExpectedTokenReason (p.opening.take (n - p.space.length))
        [parameterHead, invokeClose]) := by
  have hclose : ¬ invokeClose <+: p.opening.take (n - p.space.length) := by
    intro hprefix
    have hwhole := hprefix.trans (List.take_prefix _ _)
    rw [Parameter.opening, List.append_assoc] at hwhole
    exact not_invokeClose_prefix _ hwhole
  have hskip : skipDsmlWhitespace ((p.space ++ p.opening).take n) =
      p.opening.take (n - p.space.length) := skip_take p.blank ⟨_, rfl⟩ n
  have hpos : 0 < p.opening.length := by
    have hhead : 0 < parameterHead.length := by decide
    rw [Parameter.opening, List.length_append, List.length_append]
    omega
  rw [parseParameters, hskip, if_neg hclose, parameterOpen_take_eq_none p (by omega)]

theorem parseParameters_cutValue (p : Parameter normal)
    (hnew : arguments.lookup p.name.text = none) {m : Nat}
    (hm : m < (p.raw ++ parameterClose).length) :
    parseParameters normal (fuel + 1) (p.space ++ p.opening ++ (p.raw ++ parameterClose).take m)
      arguments = .error .dsmlIncomplete := by
  have hskip : skipDsmlWhitespace (p.space ++ p.opening ++ (p.raw ++ parameterClose).take m) =
      p.opening ++ (p.raw ++ parameterClose).take m := by
    rw [List.append_assoc]
    exact skip_append p.blank _
  have hclose : ¬ invokeClose <+: p.opening ++ (p.raw ++ parameterClose).take m := by
    rw [Parameter.opening, List.append_assoc, List.append_assoc]
    exact not_invokeClose_prefix _
  have hopen : parameterOpen (p.opening ++ (p.raw ++ parameterClose).take m) =
      some (p.name.text, p.isString, (p.raw ++ parameterClose).take m) :=
    parameterOpen_append p.name p.isString _
  rw [parseParameters, hskip, if_neg hclose, hopen]
  dsimp only
  rw [hnew, Option.isSome_none, if_neg (by simp), find_take_eq_none p.raw_plain hm]

theorem parseParameters_cut {params : List (Parameter normal)} {space : Str} (h : Blank space)
    (hdistinct : (params.map fun p => p.name.text).Nodup) :
    ∀ {arguments : Dict} {fuel n : Nat}, (∀ p ∈ params, arguments.lookup p.name.text = none) →
      n < fuel → n < (params.flatMap Parameter.render ++ (space ++ invokeClose)).length →
      ∃ reason, parseParameters normal fuel
          ((params.flatMap Parameter.render ++ (space ++ invokeClose)).take n) arguments =
            .error reason ∧
        (reason = .dsmlIncomplete ↔ ¬ CutsIn Parameter.render Parameter.Cut params n) := by
  induction params with
  | nil =>
      intro arguments fuel n _ hfuel hn
      obtain ⟨fuel, rfl⟩ := Nat.exists_eq_succ_of_ne_zero (Nat.ne_of_gt (Nat.lt_of_le_of_lt
        (Nat.zero_le n) hfuel))
      exact ⟨.dsmlIncomplete, parseParameters_cutClose h hn, by simp [CutsIn]⟩
  | cons p params ih =>
      intro arguments fuel n hnew hfuel hn
      obtain ⟨fuel, rfl⟩ := Nat.exists_eq_succ_of_ne_zero (Nat.ne_of_gt (Nat.lt_of_le_of_lt
        (Nat.zero_le n) hfuel))
      rw [List.map_cons, List.nodup_cons] at hdistinct
      generalize hrest : params.flatMap Parameter.render ++ (space ++ invokeClose) = rest
      have htext : (p :: params).flatMap Parameter.render ++ (space ++ invokeClose) =
          p.render ++ rest := by
        rw [List.flatMap_cons, List.append_assoc, hrest]
      have hrender : p.render = p.space ++ p.opening ++ (p.raw ++ parameterClose) :=
        List.append_assoc _ _ _
      have hlength : p.render.length =
          p.space.length + p.opening.length + (p.raw ++ parameterClose).length := by
        rw [hrender, List.length_append, List.length_append]
      rw [htext] at hn ⊢
      rw [List.length_append] at hn
      unfold CutsIn
      by_cases hopening : n < p.space.length + p.opening.length
      · refine ⟨dsmlExpectedTokenReason (p.opening.take (n - p.space.length))
            [parameterHead, invokeClose], ?_, ?_⟩
        · rw [hrender, List.append_assoc, take_append_of_lt (by rw [List.length_append]; omega)]
          exact parseParameters_cutOpening p hopening
        · have hwhole : p.opening = parameterHead ++ (p.name.text ++ parameterTail p.isString) :=
            List.append_assoc _ _ _
          rw [hwhole, expected_take_iff (by decide) (by rw [← hwhole]; omega)]
          unfold Parameter.Cut
          omega
      rw [Nat.not_lt] at hopening
      by_cases hvalue : n < p.render.length
      · refine ⟨.dsmlIncomplete, ?_, ?_⟩
        · rw [take_append_of_lt hvalue, hrender,
            take_append_of_le (by rw [List.length_append]; omega), List.length_append]
          exact parseParameters_cutValue p (hnew p List.mem_cons_self) (by omega)
        · unfold Parameter.Cut
          refine iff_of_true rfl ?_
          omega
      · rw [Nat.not_lt] at hvalue
        have hpos : 0 < parameterClose.length := by decide
        have hnew' : ∀ q ∈ params, (arguments ++ [p.argument]).lookup q.name.text = none :=
          lookup_argument_eq_none hdistinct.1 fun q hq => hnew q (List.mem_cons_of_mem p hq)
        rw [List.length_append] at hlength
        obtain ⟨reason, hreason, hiff⟩ := @ih hdistinct.2 (arguments ++ [p.argument]) fuel
          (n - p.render.length) hnew' (by omega) (by rw [hrest]; omega)
        refine ⟨reason, ?_, ?_⟩
        · rw [take_append_of_le hvalue, parseParameters_parameter p (hnew p List.mem_cons_self),
            ← hrest]
          exact hreason
        · rw [hiff]
          have hnot : ¬ n < p.render.length := Nat.not_lt.2 hvalue
          simp [hnot, hvalue]

end

/-! ### Cut calls -/

section

variable {calls : List DsmlCandidateCall} {fuel : Nat}

theorem parseCalls_cutClose {space : Str} (h : Blank space) {n : Nat}
    (hn : n < (space ++ toolCallsClose).length) :
    parseCalls normal (fuel + 1) ((space ++ toolCallsClose).take n) calls =
      .error (.dsmlIncomplete, calls.length) := by
  rw [List.length_append] at hn
  have hopen : invokeOpen (toolCallsClose.take (n - space.length)) = none := by
    cases hfound : invokeOpen (toolCallsClose.take (n - space.length)) with
    | none => rfl
    | some found =>
        obtain ⟨name, rest⟩ := found
        obtain ⟨tagName, -, htake⟩ := exists_of_invokeOpen hfound
        have hprefix : invokeHead <+: toolCallsClose := by
          apply List.IsPrefix.trans _ (List.take_prefix (n - space.length) toolCallsClose)
          rw [htake, List.append_assoc, List.append_assoc]
          exact List.prefix_append _ _
        exact absurd hprefix (by decide)
  have hreason : dsmlExpectedTokenReason (toolCallsClose.take (n - space.length))
      [invokeHead, toolCallsClose] = .dsmlIncomplete :=
    if_pos (Or.inr ⟨toolCallsClose, by simp, List.take_prefix _ _⟩)
  have hskip : skipDsmlWhitespace ((space ++ toolCallsClose).take n) =
      toolCallsClose.take (n - space.length) := skip_take h ⟨_, rfl⟩ n
  have hpos : 0 < toolCallsClose.length := by decide
  rw [parseCalls, hskip, if_neg (not_prefix_take (by omega)), hopen]
  dsimp only
  rw [hreason]

theorem parseCalls_cutOpening (v : Invoke normal) {n : Nat}
    (hn : n < v.space.length + v.opening.length) :
    parseCalls normal (fuel + 1) ((v.space ++ v.opening).take n) calls =
      .error (dsmlExpectedTokenReason (v.opening.take (n - v.space.length))
        [invokeHead, toolCallsClose], calls.length) := by
  have hclose : ¬ toolCallsClose <+: v.opening.take (n - v.space.length) := by
    intro hprefix
    have hwhole := hprefix.trans (List.take_prefix _ _)
    rw [Invoke.opening, List.append_assoc] at hwhole
    exact not_toolCallsClose_prefix _ hwhole
  have hskip : skipDsmlWhitespace ((v.space ++ v.opening).take n) =
      v.opening.take (n - v.space.length) := skip_take v.blank ⟨_, rfl⟩ n
  have hpos : 0 < v.opening.length := by
    have hhead : 0 < invokeHead.length := by decide
    rw [Invoke.opening, List.length_append, List.length_append]
    omega
  rw [parseCalls, hskip, if_neg hclose, invokeOpen_take_eq_none v (by omega)]

theorem parseCalls_cutParameters (v : Invoke normal) {m : Nat}
    (hm : m < (v.parameters.flatMap Parameter.render ++ (v.closeSpace ++ invokeClose)).length) :
    ∃ reason, parseCalls normal (fuel + 1) (v.space ++ v.opening ++
        (v.parameters.flatMap Parameter.render ++ (v.closeSpace ++ invokeClose)).take m) calls =
          .error (reason, calls.length) ∧
      (reason = .dsmlIncomplete ↔ ¬ CutsIn Parameter.render Parameter.Cut v.parameters m) := by
  generalize hbody : (v.parameters.flatMap Parameter.render ++
    (v.closeSpace ++ invokeClose)).take m = body
  have hlength : body.length = m := by
    rw [← hbody, List.length_take, Nat.min_eq_left (Nat.le_of_lt hm)]
  have hskip : skipDsmlWhitespace (v.space ++ v.opening ++ body) = v.opening ++ body := by
    rw [List.append_assoc]
    exact skip_append v.blank _
  have hclose : ¬ toolCallsClose <+: v.opening ++ body := by
    rw [Invoke.opening, List.append_assoc, List.append_assoc]
    exact not_toolCallsClose_prefix _
  have hopen : invokeOpen (v.opening ++ body) = some (v.name.text, body) :=
    invokeOpen_append v.name body
  obtain ⟨reason, hreason, hiff⟩ := @parseParameters_cut _ _ _ v.closeBlank v.distinct []
    (body.length + 1) _ (by simp) (by omega) hm
  rw [hbody] at hreason
  refine ⟨reason, ?_, hiff⟩
  rw [parseCalls, hskip, if_neg hclose, hopen]
  dsimp only
  rw [hreason]

theorem parseCalls_cut {invokes : List (Invoke normal)} {space : Str} (h : Blank space) :
    ∀ {calls : List DsmlCandidateCall} {fuel n : Nat},
      calls.length + invokes.length ≤ defaultMaxToolCalls → n < fuel →
      n < (invokes.flatMap Invoke.render ++ (space ++ toolCallsClose)).length →
      ∃ reason count, parseCalls normal fuel
          ((invokes.flatMap Invoke.render ++ (space ++ toolCallsClose)).take n) calls =
            .error (reason, count) ∧
        (reason = .dsmlIncomplete ↔ ¬ CutsIn Invoke.render Invoke.Cut invokes n) := by
  induction invokes with
  | nil =>
      intro calls fuel n _ hfuel hn
      obtain ⟨fuel, rfl⟩ := Nat.exists_eq_succ_of_ne_zero (Nat.ne_of_gt (Nat.lt_of_le_of_lt
        (Nat.zero_le n) hfuel))
      exact ⟨.dsmlIncomplete, calls.length, parseCalls_cutClose h hn, by simp [CutsIn]⟩
  | cons v invokes ih =>
      intro calls fuel n hfew hfuel hn
      obtain ⟨fuel, rfl⟩ := Nat.exists_eq_succ_of_ne_zero (Nat.ne_of_gt (Nat.lt_of_le_of_lt
        (Nat.zero_le n) hfuel))
      rw [List.length_cons] at hfew
      generalize hrest : invokes.flatMap Invoke.render ++ (space ++ toolCallsClose) = rest
      have htext : (v :: invokes).flatMap Invoke.render ++ (space ++ toolCallsClose) =
          v.render ++ rest := by
        rw [List.flatMap_cons, List.append_assoc, hrest]
      have hrender : v.render = v.space ++ v.opening ++
          (v.parameters.flatMap Parameter.render ++ (v.closeSpace ++ invokeClose)) := by
        simp [Invoke.render]
      have hlength : v.render.length = v.space.length + v.opening.length +
          (v.parameters.flatMap Parameter.render ++ (v.closeSpace ++ invokeClose)).length := by
        rw [hrender, List.length_append, List.length_append]
      rw [htext] at hn ⊢
      rw [List.length_append] at hn
      unfold CutsIn
      by_cases hopening : n < v.space.length + v.opening.length
      · refine ⟨dsmlExpectedTokenReason (v.opening.take (n - v.space.length))
            [invokeHead, toolCallsClose], calls.length, ?_, ?_⟩
        · rw [hrender, List.append_assoc, take_append_of_lt (by rw [List.length_append]; omega)]
          exact parseCalls_cutOpening v hopening
        · have hwhole : v.opening = invokeHead ++ (v.name.text ++ invokeTail) :=
            List.append_assoc _ _ _
          rw [hwhole, expected_take_iff (by decide) (by rw [← hwhole]; omega)]
          have hnot : ¬ v.space.length + v.opening.length ≤ n := Nat.not_le.2 hopening
          have hin : n < v.render.length := by omega
          simp only [Invoke.Cut, hnot, hin, hopening, false_and, and_true, or_false, true_and,
            Nat.not_le.2 hin]
          omega
      rw [Nat.not_lt] at hopening
      by_cases hparams : n < v.render.length
      · obtain ⟨reason, hreason, hiff⟩ := @parseCalls_cutParameters _ calls fuel v
          (n - (v.space.length + v.opening.length)) (by omega)
        refine ⟨reason, calls.length, ?_, ?_⟩
        · rw [take_append_of_lt hparams, hrender,
            take_append_of_le (by rw [List.length_append]; omega), List.length_append]
          exact hreason
        · rw [hiff]
          simp only [Invoke.Cut, Nat.not_lt.2 hopening, hopening, hparams, and_false, false_or,
            true_and, Nat.not_le.2 hparams, false_and, or_false]
      · rw [Nat.not_lt] at hparams
        have hpos : 0 < invokeClose.length := by decide
        rw [List.length_append, List.length_append] at hlength
        obtain ⟨reason, count, hreason, hiff⟩ := @ih (calls ++ [v.call]) fuel
          (n - v.render.length) (by rw [List.length_append, List.length_singleton]; omega)
          (by omega) (by rw [hrest]; omega)
        refine ⟨reason, count, ?_, ?_⟩
        · rw [take_append_of_le hparams, parseCalls_invoke v (by omega), ← hrest]
          exact hreason
        · rw [hiff]
          simp only [Nat.not_lt.2 hparams, hparams, false_and, false_or, true_and]

end

/-! ### Cut envelopes -/

theorem parseDsmlCandidate_take (env : Envelope normal) {n : Nat} (hopen : toolCallsOpen.length ≤ n)
    (hn : n < env.render.length) :
    (parseDsmlCandidate normal u (env.render.take n)).status = .rejected ∧
      ((parseDsmlCandidate normal u (env.render.take n)).reason = some .dsmlIncomplete ↔
        ¬ env.CutInTag n) := by
  have hbody : env.body = env.invokes.flatMap Invoke.render ++ (env.closeSpace ++ toolCallsClose) :=
    List.append_assoc _ _ _
  rw [Envelope.render, List.length_append] at hn
  obtain ⟨reason, count, hread, hiff⟩ := @parseCalls_cut _ env.invokes _ env.closeBlank []
    ((env.body.take (n - toolCallsOpen.length)).length + 1) (n - toolCallsOpen.length)
    (by simpa using env.bounded) (by rw [List.length_take]; omega) (by rw [← hbody]; omega)
  rw [← hbody] at hread
  have hcandidate : parseDsmlCandidate normal u (env.render.take n) =
      parseDsmlEnvelopeAt normal (env.render.take n) 0 := by
    rw [Envelope.render, take_append_of_le hopen]
    exact @parseDsmlCandidate_opening _ _ [] 0 plainProse_nil opensNothing_nil (by decide) _
  have hdrop : (env.render.take n).drop (0 + toolCallsOpen.length) =
      env.body.take (n - toolCallsOpen.length) := by
    rw [Envelope.render, take_append_of_le hopen, Nat.zero_add, List.drop_left]
  rw [hcandidate]
  unfold parseDsmlEnvelopeAt
  rw [hdrop]
  dsimp only
  rw [hread]
  exact ⟨rfl, by rw [Option.some.injEq]; exact hiff⟩

/-- A text that is taken whole, from its first character on. -/
structure IsEnvelope (normal : Number → Number) (u : Unicode) (text : Str) : Prop where
  complete : (parseDsmlCandidate normal u text).status = .complete
  start : (parseDsmlCandidate normal u text).start = 0
  stop : (parseDsmlCandidate normal u text).stop = text.length

theorem IsEnvelope.exists_render {text : Str} (h : IsEnvelope normal u text) :
    ∃ env : Envelope normal, text = env.render := by
  obtain ⟨front, env, trailing, -, htext, -, -, hresult⟩ := exists_of_parseDsmlCandidate h.complete
  have hstart : front.length = 0 := by
    have hstart := h.start
    rw [hresult] at hstart
    exact hstart
  have hstop : front.length + env.render.length = text.length := by
    have hstop := h.stop
    rw [hresult] at hstop
    exact hstop
  have hfront : front = [] := List.length_eq_zero_iff.1 hstart
  have htrailing : trailing = [] := by
    rw [htext, List.length_append, List.length_append] at hstop
    exact List.length_eq_zero_iff.1 (by omega)
  exact ⟨env, by rw [htext, hfront, htrailing, List.nil_append, List.append_nil]⟩

/-- The cut falls behind the `name="` of an opening tag and in front of its end. -/
def CutInTag (normal : Number → Number) (text : Str) (n : Nat) : Prop :=
  ∃ env : Envelope normal, text = env.render ∧ env.CutInTag n

/-- What is left of an envelope is rejected as incomplete exactly when the cut does not fall into the
name or the rest of an opening tag. -/
theorem incomplete_iff {text : Str} (h : IsEnvelope normal u text) {n : Nat}
    (hopen : toolCallsOpen.length ≤ n) (hn : n < text.length) :
    ((parseDsmlCandidate normal u (text.take n)).status = .rejected ∧
        (parseDsmlCandidate normal u (text.take n)).reason = some .dsmlIncomplete) ↔
      ¬ CutInTag normal text n := by
  constructor
  · rintro ⟨-, hreason⟩ ⟨env, rfl, hcut⟩
    exact (parseDsmlCandidate_take env hopen hn).2.1 hreason hcut
  · intro hcut
    obtain ⟨env, rfl⟩ := h.exists_render
    obtain ⟨hstatus, hiff⟩ := parseDsmlCandidate_take (u := u) env hopen hn
    exact ⟨hstatus, hiff.2 fun hin => hcut ⟨env, rfl, hin⟩⟩

/-! ### An example -/

theorem isEnvelope_listing : IsEnvelope id ascii listing.render := by
  have hread : parseDsmlCandidate id ascii listing.render = listing.result 0 := by
    have hread := @parseDsmlCandidate_render _ ascii listing [] [] 0 plainProse_nil opensNothing_nil
      (by decide) (by decide)
    rw [List.append_nil] at hread
    exact hread
  constructor
  · rw [hread]
    rfl
  · rw [hread]
    rfl
  · rw [hread]
    exact Nat.zero_add _

/-- The envelope without its last character is incomplete. -/
theorem listing_without_end :
    ((parseDsmlCandidate id ascii (listing.render.take 75)).status = .rejected ∧
        (parseDsmlCandidate id ascii (listing.render.take 75)).reason = some .dsmlIncomplete) ↔
      ¬ CutInTag id listing.render 75 :=
  incomplete_iff isEnvelope_listing (by decide) (by decide)

/-- A cut between the letters of a name is taken for corruption. -/
theorem cut_name_is_malformed :
    ¬ ∀ text : Str, IsEnvelope id ascii text → ∀ n, toolCallsOpen.length ≤ n → n < text.length →
      (parseDsmlCandidate id ascii (text.take n)).reason = some .dsmlIncomplete := by
  intro h
  have hincomplete := h _ isEnvelope_listing 39 (by decide) (by decide)
  exact absurd hincomplete (by decide +kernel)

end OpenStarry.TextTools
