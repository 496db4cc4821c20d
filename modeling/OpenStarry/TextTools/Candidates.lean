import OpenStarry.TextTools.Envelope

/-!
# Which texts are candidates

An envelope is found after plain prose, and after anything else in which no earlier opening stands
alone and whose code has ended. Whatever else is taken has been written so.
-/

namespace OpenStarry.TextTools

open Lib Lib.Text

variable {normal : Number → Number} {u : Unicode} {text : Str}

/-! ### The first opening -/

theorem find_positionsOf_eq_some {token : Str} {keep : Nat → Bool} {p : Nat} :
    (positionsOf token text).find? keep = some p ↔
      p < text.length ∧ token <+: text.drop p ∧ keep p = true ∧
        ∀ j < p, token <+: text.drop j → keep j = false := by
  rw [positionsOf, List.find?_filter, List.find?_range_eq_some]
  simp only [decide_eq_true_eq, List.mem_range, Bool.not_eq_true', decide_eq_false_iff_not, not_and,
    Bool.not_eq_true]
  constructor
  · rintro ⟨⟨htoken, hkeep⟩, hlt, hfirst⟩
    exact ⟨hlt, htoken, hkeep, hfirst⟩
  · rintro ⟨hlt, htoken, hkeep, hfirst⟩
    exact ⟨⟨htoken, hkeep⟩, hlt, hfirst⟩

theorem exists_opening (h : (parseDsmlCandidate normal u text).status = .complete) :
    ∃ opening, (positionsOf toolCallsOpen text).find? (standsAlone u text) = some opening ∧
      parseDsmlCandidate normal u text = parseDsmlEnvelopeAt normal text opening := by
  unfold parseDsmlCandidate at h ⊢
  cases hfind : (positionsOf toolCallsOpen text).find? (standsAlone u text) with
  | some opening => exact ⟨opening, rfl, rfl⟩
  | none =>
      rw [hfind] at h
      dsimp only at h
      split at h
      next => cases h
      next => cases h

/-! ### Lines -/

theorem rtakeWhile_spaces {prose : Str}
    (hends : prose = [] ∨ ∃ front c, prose = front ++ [c] ∧ isNewline c = true) (k : Nat) :
    (prose ++ List.replicate k ' ').rtakeWhile (!isNewline ·) = List.replicate k ' ' := by
  have hspaces : ∀ c ∈ List.replicate k ' ', (!isNewline c) = true := by
    intro c hc
    rw [List.eq_of_mem_replicate hc]
    decide
  rw [List.rtakeWhile, List.reverse_append, List.reverse_replicate,
    List.takeWhile_append_of_pos hspaces]
  cases hends with
  | inl hnil => simp [hnil]
  | inr hends =>
      obtain ⟨front, c, rfl, hc⟩ := hends
      simp [hc]

theorem candidateStartsOnStandaloneLine_spaces {prose : Str} (hprose : PlainProse u prose) {k : Nat}
    (hk : k ≤ 3) (rest : Str) :
    candidateStartsOnStandaloneLine (prose ++ List.replicate k ' ' ++ rest) (prose.length + k) =
      true := by
  have htake : (prose ++ List.replicate k ' ' ++ rest).take (prose.length + k) =
      prose ++ List.replicate k ' ' :=
    List.take_left' (by rw [List.length_append, List.length_replicate])
  unfold candidateStartsOnStandaloneLine
  rw [htake, rtakeWhile_spaces hprose.ends]
  simp [hk]

def OpensNothing (prose : Str) : Prop :=
  ∀ p < prose.length, toolCallsOpen <+: prose.drop p →
    candidateStartsOnStandaloneLine prose p = false

theorem plainProse_nil : PlainProse u [] where
  noMarkup := fun _ hp => absurd hp (Nat.not_lt_zero _)
  ends := Or.inl rfl

theorem opensNothing_nil : OpensNothing [] := fun _ hp => absurd hp (Nat.not_lt_zero _)

theorem standsAlone_eq_false {prose : Str} (hprose : PlainProse u prose)
    (hopens : OpensNothing prose) {k p : Nat} (hp : p < prose.length + k) {rest : Str}
    (hopen : toolCallsOpen <+: (prose ++ List.replicate k ' ' ++ rest).drop p) :
    standsAlone u (prose ++ List.replicate k ' ' ++ rest) p = false := by
  have hhead : toolCallsOpen = '<' :: toolCallsOpen.tail := rfl
  rw [List.append_assoc] at hopen ⊢
  by_cases hin : p < prose.length
  · have hnewline := hprose.newline_mem_drop hin
    rw [List.drop_append_of_le_length (Nat.le_of_lt hin)] at hopen
    have hline := hopens p hin (prefix_of_append hnewline (by decide) hopen)
    unfold standsAlone
    unfold candidateStartsOnStandaloneLine at hline ⊢
    rw [List.take_append_of_le_length (Nat.le_of_lt hin), hline, Bool.and_false]
  · rw [List.drop_append, List.drop_eq_nil_of_le (by omega), List.nil_append,
      List.drop_append_of_le_length (by rw [List.length_replicate]; omega), List.drop_replicate] at hopen
    obtain ⟨m, hm⟩ := Nat.exists_eq_add_of_lt (show 0 < k - (p - prose.length) by omega)
    rw [hm, List.replicate_succ, List.cons_append, hhead] at hopen
    exact absurd (List.cons_prefix_cons.1 hopen).1 (by decide)

/-! ### What is taken -/

theorem parseDsmlCandidate_opening {prose : Str} {k : Nat} (hprose : PlainProse u prose)
    (hopens : OpensNothing prose) (hk : k ≤ 3) (rest : Str) :
    parseDsmlCandidate normal u (prose ++ List.replicate k ' ' ++ (toolCallsOpen ++ rest)) =
      parseDsmlEnvelopeAt normal (prose ++ List.replicate k ' ' ++ (toolCallsOpen ++ rest))
        (prose.length + k) := by
  have hlength : (prose ++ List.replicate k ' ').length = prose.length + k := by
    rw [List.length_append, List.length_replicate]
  have hopen : toolCallsOpen <+:
      (prose ++ List.replicate k ' ' ++ (toolCallsOpen ++ rest)).drop (prose.length + k) := by
    rw [List.drop_left' hlength]
    exact List.prefix_append _ _
  have hshows : Shows (prose ++ List.replicate k ' ')
      (prose ++ List.replicate k ' ' ++ (toolCallsOpen ++ rest)) :=
    ⟨'｜', toolCallsOpen.drop 2 ++ rest, Or.inl rfl, rfl⟩
  have halone : standsAlone u (prose ++ List.replicate k ' ' ++ (toolCallsOpen ++ rest))
      (prose.length + k) = true := by
    unfold standsAlone
    rw [not_positionIsInCode hprose hk hshows, candidateStartsOnStandaloneLine_spaces hprose hk]
    rfl
  have hlt : prose.length + k <
      (prose ++ List.replicate k ' ' ++ (toolCallsOpen ++ rest)).length := by
    have hpos : 0 < toolCallsOpen.length := by decide
    rw [List.length_append, hlength, List.length_append]
    omega
  have hfind : (positionsOf toolCallsOpen
      (prose ++ List.replicate k ' ' ++ (toolCallsOpen ++ rest))).find?
        (standsAlone u (prose ++ List.replicate k ' ' ++ (toolCallsOpen ++ rest))) =
      some (prose.length + k) :=
    find_positionsOf_eq_some.2
      ⟨hlt, hopen, halone, fun _ hp hprefix => standsAlone_eq_false hprose hopens hp hprefix⟩
  rw [parseDsmlCandidate, hfind]

theorem parseDsmlCandidate_render (env : Envelope normal) {prose trailing : Str} {k : Nat}
    (hprose : PlainProse u prose) (hopens : OpensNothing prose) (hk : k ≤ 3)
    (htrailing : Blank trailing) :
    parseDsmlCandidate normal u (prose ++ List.replicate k ' ' ++ env.render ++ trailing) =
      env.result (prose.length + k) := by
  have hread := parseDsmlEnvelopeAt_render env (prose ++ List.replicate k ' ') htrailing
  have htext : prose ++ List.replicate k ' ' ++ env.render ++ trailing =
      prose ++ List.replicate k ' ' ++ (toolCallsOpen ++ (env.body ++ trailing)) := by
    simp [Envelope.render]
  rw [List.length_append, List.length_replicate] at hread
  rw [htext] at hread ⊢
  rw [parseDsmlCandidate_opening hprose hopens hk]
  exact hread

theorem exists_of_parseDsmlCandidate (h : (parseDsmlCandidate normal u text).status = .complete) :
    ∃ (front : Str) (env : Envelope normal) (trailing : Str), Blank trailing ∧
      text = front ++ env.render ++ trailing ∧ standsAlone u text front.length = true ∧
      (∀ p < front.length, toolCallsOpen <+: text.drop p → standsAlone u text p = false) ∧
      parseDsmlCandidate normal u text = env.result front.length := by
  obtain ⟨opening, hfind, hresult⟩ := exists_opening h
  obtain ⟨hlt, hopen, halone, hfirst⟩ := find_positionsOf_eq_some.1 hfind
  rw [hresult] at h ⊢
  obtain ⟨env, trailing, htrailing, hdrop⟩ := exists_of_complete hopen h
  have hlength : (text.take opening).length = opening := by
    rw [List.length_take, Nat.min_eq_left (Nat.le_of_lt hlt)]
  have htext : text = text.take opening ++ env.render ++ trailing := by
    rw [List.append_assoc, ← hdrop, List.take_append_drop]
  refine ⟨text.take opening, env, trailing, htrailing, htext, ?_, ?_, ?_⟩
  · rw [hlength]
    exact halone
  · rw [hlength]
    exact hfirst
  · have hread := parseDsmlEnvelopeAt_render env (text.take opening) htrailing
    rw [← htext, hlength] at hread
    rw [hlength]
    exact hread

/-- An envelope after plain prose is taken as it was written, and nothing is taken that is not an
envelope in the first place that stands alone. -/
theorem parseDsmlCandidate_exact (normal : Number → Number) (u : Unicode) :
    (∀ (env : Envelope normal) (prose trailing : Str) (k : Nat), PlainProse u prose →
      OpensNothing prose → k ≤ 3 → Blank trailing →
      parseDsmlCandidate normal u (prose ++ List.replicate k ' ' ++ env.render ++ trailing) =
        env.result (prose.length + k)) ∧
    ∀ text : Str, (parseDsmlCandidate normal u text).status = .complete →
      ∃ (front : Str) (env : Envelope normal) (trailing : Str), Blank trailing ∧
        text = front ++ env.render ++ trailing ∧ standsAlone u text front.length = true ∧
        (∀ p < front.length, toolCallsOpen <+: text.drop p → standsAlone u text p = false) ∧
        parseDsmlCandidate normal u text = env.result front.length :=
  ⟨fun env _ _ _ hprose hopens hk htrailing =>
    parseDsmlCandidate_render env hprose hopens hk htrailing,
    fun _ h => exists_of_parseDsmlCandidate h⟩

/-! ### An example -/

/-- `isalnum` and `lower` on ASCII. -/
def ascii : Unicode where
  isAlnum := Char.isAlphanum
  lower := List.map Char.toLower
  isAlnum_eq_false := by decide
  lower_nil := List.map_nil

/-- A call of `ls`, with nothing. -/
def listing : Envelope id where
  invokes := [⟨[], ⟨"ls".toList, by decide, by decide⟩, [], [], by decide, by decide, by decide⟩]
  closeSpace := []
  ne := by decide
  bounded := by decide
  closeBlank := by decide

/-- The envelope by itself. -/
theorem listing_is_taken :
    parseDsmlCandidate id ascii ([] ++ List.replicate 0 ' ' ++ listing.render ++ []) =
      listing.result (([] : Str).length + 0) :=
  (parseDsmlCandidate_exact id ascii).1 listing [] [] 0 plainProse_nil opensNothing_nil
    (by decide) (by decide)

/-- Prose with code that has ended is in front of an envelope that is taken. -/
theorem taken_after_code :
    ¬ ∀ text : Str, (parseDsmlCandidate id ascii text).status = .complete →
      ∃ (prose : Str) (env : Envelope id), PlainProse ascii prose ∧ text = prose ++ env.render := by
  intro h
  have hcomplete : (parseDsmlCandidate id ascii ("`x`\n".toList ++ listing.render)).status =
      .complete := by decide +kernel
  obtain ⟨prose, env, hprose, heq⟩ := h _ hcomplete
  cases prose with
  | nil =>
      have hhead : some '`' = some '<' := congrArg List.head? heq
      exact absurd hhead (by decide)
  | cons c prose =>
      have hc : '`' = c := by
        have hhead := congrArg List.head? heq
        exact Option.some.inj hhead
      apply hprose.noMarkup 0 (Nat.succ_pos _)
      exact Or.inl (Or.inl ⟨prose, by rw [← hc]; rfl⟩)

end OpenStarry.TextTools
