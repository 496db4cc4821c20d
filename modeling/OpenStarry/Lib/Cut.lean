import OpenStarry.Lib.Text

/-!
# Reading a list segment by segment

A reader that takes elements as long as a test holds stops where the next segment starts. These
are the rules for a list that is put together from such segments.
-/

namespace OpenStarry.Lib

variable {α : Type*}

/-- Taking elements that meet `p` stops before the first element of `rest`. -/
def StopsAt (p : α → Bool) (rest : List α) : Prop := ∀ x ∈ rest.head?, p x = false

@[simp] theorem stopsAt_nil (p : α → Bool) : StopsAt p [] := by simp [StopsAt]

@[simp] theorem stopsAt_cons {p : α → Bool} {x : α} {rest : List α} :
    StopsAt p (x :: rest) ↔ p x = false := by simp [StopsAt]

namespace StopsAt

variable {p q : α → Bool} {rest : List α}

theorem takeWhile_eq (h : StopsAt p rest) : rest.takeWhile p = [] := by
  cases rest with
  | nil => rfl
  | cons x rest => rw [List.takeWhile_cons_of_neg (by simp [stopsAt_cons.mp h])]

theorem dropWhile_eq (h : StopsAt p rest) : rest.dropWhile p = rest := by
  cases rest with
  | nil => rfl
  | cons x rest => rw [List.dropWhile_cons_of_neg (by simp [stopsAt_cons.mp h])]

theorem takeWhile_append (h : StopsAt p rest) {segment : List α} (hseg : ∀ x ∈ segment, p x) :
    (segment ++ rest).takeWhile p = segment := by
  rw [List.takeWhile_append_of_pos hseg, h.takeWhile_eq, List.append_nil]

theorem dropWhile_append (h : StopsAt p rest) {segment : List α} (hseg : ∀ x ∈ segment, p x) :
    (segment ++ rest).dropWhile p = rest := by
  rw [List.dropWhile_append_of_pos hseg, h.dropWhile_eq]

theorem takeWhile (h : StopsAt q rest) (p : α → Bool) : StopsAt q (rest.takeWhile p) := by
  cases rest with
  | nil => simp
  | cons x rest =>
      by_cases hx : p x = true
      · rw [List.takeWhile_cons_of_pos hx]
        exact stopsAt_cons.mpr (stopsAt_cons.mp h)
      · rw [List.takeWhile_cons_of_neg hx]
        exact stopsAt_nil q

theorem takeWhile_append_left (h : StopsAt p rest) (segment : List α) :
    (segment ++ rest).takeWhile p = segment.takeWhile p := by
  induction segment with
  | nil => rw [List.nil_append, h.takeWhile_eq, List.takeWhile_nil]
  | cons x segment ih => rw [List.cons_append, List.takeWhile_cons, List.takeWhile_cons, ih]

theorem dropWhile_append_left (h : StopsAt p rest) (segment : List α) :
    (segment ++ rest).dropWhile p = segment.dropWhile p ++ rest := by
  induction segment with
  | nil => rw [List.nil_append, h.dropWhile_eq, List.dropWhile_nil, List.nil_append]
  | cons x segment ih =>
      rw [List.cons_append, List.dropWhile_cons, List.dropWhile_cons]
      split
      · exact ih
      · rw [List.cons_append]

theorem filter (h : StopsAt p rest) (keep : α → Bool) (hkeep : ∀ x, p x = false → keep x = true) :
    StopsAt p (rest.filter keep) := by
  cases rest with
  | nil => exact h
  | cons x rest =>
      have hx := stopsAt_cons.mp h
      rw [List.filter_cons_of_pos (hkeep x hx)]
      exact stopsAt_cons.mpr hx

theorem takeWhile_takeWhile_append (h : StopsAt q rest) (p : α → Bool) {segment : List α}
    (hseg : ∀ x ∈ segment, q x) :
    ((segment ++ rest).takeWhile p).takeWhile q = segment.takeWhile p := by
  induction segment with
  | nil => rw [List.nil_append, (h.takeWhile p).takeWhile_eq, List.takeWhile_nil]
  | cons x segment ih =>
      rw [List.cons_append]
      by_cases hx : p x = true
      · rw [List.takeWhile_cons_of_pos hx, List.takeWhile_cons_of_pos hx,
          List.takeWhile_cons_of_pos (hseg x List.mem_cons_self),
          ih fun y hy => hseg y (List.mem_cons_of_mem _ hy)]
      · rw [List.takeWhile_cons_of_neg hx, List.takeWhile_cons_of_neg hx, List.takeWhile_nil]

end StopsAt

/-- Everything before the first element that meets `p`. -/
theorem take_findIdx_eq_takeWhile (p : α → Bool) (l : List α) :
    l.take (l.findIdx p) = l.takeWhile fun x => !p x := by
  simp only [List.takeWhile_eq_take_findIdx_not, Bool.not_not]

end OpenStarry.Lib

/-!
# Cutting a text at one character

`partition`, `rpartition` and `split` at a separator of one character.
-/

namespace OpenStarry.Lib.Text

/-- `text.partition(c)[0]`. -/
def beforeFirst (c : Char) (text : Str) : Str := text.takeWhile (· != c)

/-- `text.partition(c)[2]`. -/
def afterFirst (c : Char) (text : Str) : Str := (text.dropWhile (· != c)).tail

/-- `text.rpartition(c)[2]`. -/
def afterLast (c : Char) (text : Str) : Str := text.rtakeWhile (· != c)

section

variable {c d : Char} {text before after : Str}

theorem beforeFirst_append (hbefore : c ∉ before) : beforeFirst c (before ++ c :: after) = before := by
  refine StopsAt.takeWhile_append (by simp) fun x hx => ?_
  rw [bne_iff_ne]
  rintro rfl
  exact hbefore hx

theorem beforeFirst_eq_self (htext : c ∉ text) : beforeFirst c text = text := by
  have hpass : ∀ x ∈ text, (x != c) = true := fun x hx => by
    rw [bne_iff_ne]
    rintro rfl
    exact htext hx
  have h := (stopsAt_nil (· != c)).takeWhile_append hpass
  rwa [List.append_nil] at h

theorem afterFirst_append (hbefore : c ∉ before) : afterFirst c (before ++ c :: after) = after := by
  have hdrop : (before ++ c :: after).dropWhile (· != c) = c :: after := by
    refine StopsAt.dropWhile_append (by simp) fun x hx => ?_
    rw [bne_iff_ne]
    rintro rfl
    exact hbefore hx
  rw [afterFirst, hdrop, List.tail_cons]

theorem afterFirst_eq_nil (htext : c ∉ text) : afterFirst c text = [] := by
  have hdrop : text.dropWhile (· != c) = [] := by
    rw [List.dropWhile_eq_nil_iff]
    intro x hx
    rw [bne_iff_ne]
    rintro rfl
    exact htext hx
  rw [afterFirst, hdrop, List.tail_nil]

theorem beforeFirst_append_afterFirst (h : c ∈ text) :
    beforeFirst c text ++ c :: afterFirst c text = text ∧ c ∉ beforeFirst c text := by
  induction text with
  | nil => exact absurd h List.not_mem_nil
  | cons d text ih =>
      by_cases hsame : d = c
      · rw [hsame]
        simp [beforeFirst, afterFirst]
      · have htext : c ∈ text := (List.mem_cons.mp h).resolve_left (Ne.symm hsame)
        have hpass : (fun x => x != c) d = true := bne_iff_ne.mpr hsame
        obtain ⟨hcut, hnot⟩ := ih htext
        rw [beforeFirst, afterFirst, @List.takeWhile_cons_of_pos _ (· != c) _ _ hpass,
          @List.dropWhile_cons_of_pos _ (· != c) _ _ hpass]
        exact ⟨congrArg (List.cons d) hcut, List.not_mem_cons_of_ne_of_not_mem (Ne.symm hsame) hnot⟩

theorem afterLast_append (hafter : c ∉ after) : afterLast c (before ++ c :: after) = after := by
  rw [afterLast, List.rtakeWhile, List.reverse_append, List.reverse_cons, List.append_assoc,
    List.singleton_append]
  have h : beforeFirst c (after.reverse ++ c :: before.reverse) = after.reverse :=
    beforeFirst_append (by simpa using hafter)
  rw [beforeFirst] at h
  rw [h, List.reverse_reverse]

theorem afterLast_eq_self (htext : c ∉ text) : afterLast c text = text := by
  have h : beforeFirst c text.reverse = text.reverse := beforeFirst_eq_self (by simpa using htext)
  rw [beforeFirst] at h
  rw [afterLast, List.rtakeWhile, h, List.reverse_reverse]

theorem count_beforeFirst (c : Char) (text : Str) : (beforeFirst c text).count c = 0 := by
  rw [List.count_eq_zero]
  intro hmem
  have := List.mem_takeWhile_imp hmem
  simp at this

theorem length_splitOn (c : Char) (text : Str) : (text.splitOn c).length = text.count c + 1 := by
  induction text with
  | nil => simp
  | cons d rest ih =>
      rw [List.splitOn_cons_eq_if_modifyHead, List.count_cons]
      split
      · rw [List.length_cons, ih]
      · rw [List.length_modifyHead, ih]

theorem exists_piece (hd : d ∈ text) (hne : d ≠ c) : ∃ piece ∈ text.splitOn c, d ∈ piece := by
  induction text with
  | nil => simp at hd
  | cons x rest ih =>
      rw [List.splitOn_cons_eq_if_modifyHead]
      obtain ⟨first, pieces, hsplit⟩ := List.exists_cons_of_ne_nil (List.splitOn_ne_nil c rest)
      rcases List.mem_cons.mp hd with rfl | hrest
      · rw [if_neg (by simpa using hne), hsplit, List.modifyHead_cons]
        exact ⟨d :: first, List.mem_cons_self, List.mem_cons_self⟩
      · obtain ⟨piece, hpiece, hmem⟩ := ih hrest
        rw [hsplit] at hpiece ⊢
        split
        · exact ⟨piece, List.mem_cons_of_mem _ hpiece, hmem⟩
        · rw [List.modifyHead_cons]
          rcases List.mem_cons.mp hpiece with rfl | hpiece
          · exact ⟨x :: piece, List.mem_cons_self, List.mem_cons_of_mem _ hmem⟩
          · exact ⟨piece, List.mem_cons_of_mem _ hpiece, hmem⟩

theorem splitOn_intercalate_parts (c : Char) {parts : List Str} (hne : parts ≠ []) :
    ([c].intercalate parts).splitOn c = parts.flatMap fun part => part.splitOn c := by
  induction parts with
  | nil => exact absurd rfl hne
  | cons part rest ih =>
      cases rest with
      | nil =>
          rw [List.intercalate_singleton, List.flatMap_cons, List.flatMap_nil, List.append_nil]
      | cons next rest =>
          rw [List.intercalate_cons_cons, List.append_assoc, List.singleton_append,
            List.splitOn_append_cons_self, ih (List.cons_ne_nil _ _)]
          rfl

theorem intercalate_eq_iff (c : Char) {parts others : List Str} (hparts : parts ≠ [])
    (hothers : others ≠ []) : [c].intercalate parts = [c].intercalate others ↔
      (parts.flatMap fun part => part.splitOn c) = others.flatMap fun part => part.splitOn c := by
  rw [← splitOn_intercalate_parts c hparts, ← splitOn_intercalate_parts c hothers]
  constructor
  · intro h
    rw [h]
  · intro h
    rw [← @List.intercalate_splitOn Char ([c].intercalate parts) _ _ c, h, List.intercalate_splitOn]

theorem intercalate_append (c : Char) {parts others : List Str} (hparts : parts ≠ [])
    (hothers : others ≠ []) : [c].intercalate (parts ++ others) =
      [c].intercalate parts ++ c :: [c].intercalate others := by
  induction parts with
  | nil => exact absurd rfl hparts
  | cons part rest ih =>
      cases rest with
      | nil =>
          rw [List.singleton_append, List.intercalate_cons_of_ne_nil hothers,
            List.intercalate_singleton, List.append_assoc, List.singleton_append]
      | cons next rest =>
          rw [List.cons_append, List.intercalate_cons_of_ne_nil (by simp),
            ih (List.cons_ne_nil _ _), List.intercalate_cons_cons, List.append_assoc,
            List.append_assoc, List.append_assoc]

theorem flatMap_splitOn_eq_self {c : Char} {parts : List Str} (h : ∀ part ∈ parts, c ∉ part) :
    (parts.flatMap fun part => part.splitOn c) = parts := by
  induction parts with
  | nil => rfl
  | cons part rest ih =>
      obtain ⟨hpart, hrest⟩ := List.forall_mem_cons.mp h
      rw [List.flatMap_cons, List.splitOn_eq_singleton hpart, ih hrest, List.singleton_append]

end

end OpenStarry.Lib.Text
