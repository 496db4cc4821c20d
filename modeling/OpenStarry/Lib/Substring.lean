import OpenStarry.Lib.Text

/-!
# Occurrences of a string in a text

`count` and `replace` scan from the left and go on behind each match, so an occurrence that
overlaps an earlier match is not seen by them; `OccursAt` is the notion that sees every position.
-/

namespace OpenStarry.Lib.Text

/-- `text` shows `pattern` from position `i` on. -/
def OccursAt (pattern text : Str) (i : Nat) : Prop := pattern <+: text.drop i

instance (pattern text : Str) (i : Nat) : Decidable (OccursAt pattern text i) := by
  unfold OccursAt; infer_instance

/-- The matches met when `skip` more characters belong to the last one. -/
def countFrom (pattern : Str) : Nat → Str → Nat
  | _, [] => 0
  | skip + 1, _ :: rest => countFrom pattern skip rest
  | 0, c :: rest =>
      if pattern <+: c :: rest then countFrom pattern (pattern.length - 1) rest + 1
      else countFrom pattern 0 rest

/-- `text.count(pattern)`. -/
def count (pattern text : Str) : Nat :=
  if pattern = [] then text.length + 1 else countFrom pattern 0 text

/-- `text.find(pattern)`, `none` for -1: the first position of an occurrence. -/
def find (pattern : Str) : Str → Option Nat
  | [] => if pattern = [] then some 0 else none
  | c :: rest => if pattern <+: c :: rest then some 0 else (find pattern rest).map (· + 1)

def replaceFrom (pattern new : Str) : Nat → Str → Str
  | _, [] => []
  | skip + 1, _ :: rest => replaceFrom pattern new skip rest
  | 0, c :: rest =>
      if pattern <+: c :: rest then new ++ replaceFrom pattern new (pattern.length - 1) rest
      else c :: replaceFrom pattern new 0 rest

/-- `text.replace(pattern, new)` for a non-empty pattern. -/
def replace (pattern new text : Str) : Str := replaceFrom pattern new 0 text

/-! ### Positions of occurrences -/

section

variable {pattern text : Str} {i : Nat}

theorem occursAt_zero : OccursAt pattern text 0 ↔ pattern <+: text := by
  rw [OccursAt, List.drop_zero]

theorem occursAt_succ {c : Char} :
    OccursAt pattern (c :: text) (i + 1) ↔ OccursAt pattern text i := by
  rw [OccursAt, OccursAt, List.drop_succ_cons]

theorem occursAt_drop {k : Nat} : OccursAt pattern (text.drop k) i ↔ OccursAt pattern text (k + i) := by
  rw [OccursAt, OccursAt, List.drop_drop]

theorem OccursAt.add_length_le (h : OccursAt pattern text i) (hne : pattern ≠ []) :
    i + pattern.length ≤ text.length := by
  have hlength := List.IsPrefix.length_le h
  have hpos := List.length_pos_iff.mpr hne
  rw [List.length_drop] at hlength
  omega

theorem OccursAt.drop_eq (h : OccursAt pattern text i) :
    text.drop i = pattern ++ text.drop (i + pattern.length) := by
  obtain ⟨rest, hrest⟩ := h
  rw [← hrest, ← List.drop_drop, ← hrest, List.drop_left]

theorem find_eq_some_iff (hne : pattern ≠ []) :
    find pattern text = some i ↔ OccursAt pattern text i ∧ ∀ j < i, ¬ OccursAt pattern text j := by
  induction text generalizing i with
  | nil => simp [find, hne, OccursAt]
  | cons c rest ih =>
      rw [find]
      split_ifs with hpre
      · rw [Option.some.injEq]
        constructor
        · rintro rfl
          exact ⟨occursAt_zero.mpr hpre, fun j hj => absurd hj (Nat.not_lt_zero j)⟩
        · rintro ⟨-, hfirst⟩
          by_contra hpos
          exact hfirst 0 (by omega) (occursAt_zero.mpr hpre)
      · cases i with
        | zero => simp [occursAt_zero, hpre]
        | succ i =>
            rw [Option.map_eq_some_iff]
            simp only [Nat.add_right_cancel_iff, exists_eq_right, ih, occursAt_succ]
            refine and_congr_right fun _ => ⟨fun hfirst j hj => ?_, fun hfirst j hj => ?_⟩
            · cases j with
              | zero => exact fun h => hpre (occursAt_zero.mp h)
              | succ j => exact fun h => hfirst j (by omega) (occursAt_succ.mp h)
            · exact fun h => hfirst (j + 1) (by omega) (occursAt_succ.mpr h)

theorem find_eq_none_iff (hne : pattern ≠ []) :
    find pattern text = none ↔ ∀ i, ¬ OccursAt pattern text i := by
  induction text with
  | nil => simp [find, hne, OccursAt]
  | cons c rest ih =>
      rw [find]
      split_ifs with hpre
      · refine iff_of_false (by simp) fun hnone => hnone 0 (occursAt_zero.mpr hpre)
      · rw [Option.map_eq_none_iff, ih]
        refine ⟨fun hnone i => ?_, fun hnone i h => hnone (i + 1) (occursAt_succ.mpr h)⟩
        cases i with
        | zero => exact fun h => hpre (occursAt_zero.mp h)
        | succ i => exact fun h => hnone i (occursAt_succ.mp h)

/-! ### What `count` counts -/

theorem countFrom_eq_drop (pattern : Str) (skip : Nat) (text : Str) :
    countFrom pattern skip text = countFrom pattern 0 (text.drop skip) := by
  induction text generalizing skip with
  | nil => cases skip <;> rfl
  | cons c rest ih =>
      cases skip with
      | zero => rfl
      | succ skip => rw [countFrom, List.drop_succ_cons, ih]

theorem count_of_find (hne : pattern ≠ []) (h : find pattern text = some i) :
    count pattern text = count pattern (text.drop (i + pattern.length)) + 1 := by
  rw [count, count, if_neg hne, if_neg hne]
  induction text generalizing i with
  | nil => simp [find, hne] at h
  | cons c rest ih =>
      have hpos := List.length_pos_iff.mpr hne
      rw [find] at h
      rw [countFrom]
      split_ifs at h ⊢ with hpre
      · obtain rfl := Option.some.inj h
        rw [countFrom_eq_drop, Nat.zero_add]
        conv_rhs => rw [show pattern.length = pattern.length - 1 + 1 by omega, List.drop_succ_cons]
      · obtain ⟨i, hi, rfl⟩ := Option.map_eq_some_iff.mp h
        rw [ih hi, show i + 1 + pattern.length = i + pattern.length + 1 by omega,
          List.drop_succ_cons]

theorem count_eq_zero_iff (hne : pattern ≠ []) :
    count pattern text = 0 ↔ ∀ i, ¬ OccursAt pattern text i := by
  rw [← find_eq_none_iff hne]
  cases hfind : find pattern text with
  | some i => simp [count_of_find hne hfind]
  | none =>
      refine iff_of_true ?_ rfl
      rw [count, if_neg hne]
      induction text with
      | nil => rfl
      | cons c rest ih =>
          rw [find] at hfind
          split_ifs at hfind with hpre
          rw [countFrom, if_neg hpre]
          exact ih (Option.map_eq_none_iff.mp hfind)

theorem count_eq_one_iff (hne : pattern ≠ []) :
    count pattern text = 1 ↔
      ∃ i, find pattern text = some i ∧ ∀ j, OccursAt pattern text j → j < i + pattern.length := by
  cases hfind : find pattern text with
  | none =>
      have hzero := (count_eq_zero_iff hne).mpr ((find_eq_none_iff hne).mp hfind)
      simp [hzero]
  | some i =>
      rw [count_of_find hne hfind, Nat.add_eq_right, count_eq_zero_iff hne]
      simp only [Option.some.injEq, exists_eq_left', occursAt_drop]
      refine ⟨fun hnone j hj => ?_, fun hoverlap k hk => ?_⟩
      · by_contra hle
        exact hnone (j - (i + pattern.length)) (by rwa [Nat.add_sub_cancel' (by omega)])
      · exact absurd (hoverlap _ hk) (by omega)

end

/-! ### What `replace` leaves -/

section

variable {pattern text rest : Str} {c : Char}

theorem prefix_append_cons_iff (hc : c ∉ pattern) :
    pattern <+: text ++ c :: rest ↔ pattern <+: text := by
  induction text generalizing pattern with
  | nil =>
      rw [List.nil_append, List.prefix_nil]
      constructor
      · intro h
        obtain h | ⟨tail, rfl, -⟩ := List.prefix_cons_iff.mp h
        · exact h
        · exact absurd List.mem_cons_self hc
      · intro h
        rw [h]
        exact List.nil_prefix
  | cons d text ih =>
      cases pattern with
      | nil => exact ⟨fun _ => List.nil_prefix, fun _ => List.nil_prefix⟩
      | cons e pattern =>
          rw [List.cons_append, List.cons_prefix_cons, List.cons_prefix_cons,
            ih fun h => hc (List.mem_cons_of_mem e h)]

theorem replace_append_cons (hne : pattern ≠ []) (hc : c ∉ pattern) (new : Str) :
    replace pattern new (text ++ c :: rest) =
      replace pattern new text ++ c :: replace pattern new rest := by
  have hfrom : ∀ skip ≤ text.length, replaceFrom pattern new skip (text ++ c :: rest) =
      replaceFrom pattern new skip text ++ c :: replace pattern new rest := by
    induction text with
    | nil =>
        intro skip hskip
        obtain rfl : skip = 0 := Nat.le_zero.mp hskip
        have hnot : ¬ pattern <+: c :: rest := fun h =>
          hne (List.prefix_nil.mp ((@prefix_append_cons_iff pattern [] rest c hc).mp h))
        rw [List.nil_append, replaceFrom, replaceFrom, if_neg hnot, List.nil_append, replace]
    | cons d text ih =>
        intro skip hskip
        cases skip with
        | succ skip => exact ih skip (Nat.le_of_succ_le_succ hskip)
        | zero =>
            have hbegins := @prefix_append_cons_iff pattern (d :: text) rest c hc
            rw [List.cons_append] at hbegins
            rw [List.cons_append, replaceFrom, replaceFrom]
            by_cases hmatch : pattern <+: d :: text
            · have hlength := hmatch.length_le
              rw [List.length_cons] at hlength
              rw [if_pos (hbegins.mpr hmatch), if_pos hmatch, ih _ (by omega), List.append_assoc]
            · rw [if_neg (mt hbegins.mp hmatch), if_neg hmatch, ih 0 (Nat.zero_le _),
                List.cons_append]
  exact hfrom 0 (Nat.zero_le _)

theorem replace_eq_self (hc : c ∈ pattern) (htext : c ∉ text) (new : Str) :
    replace pattern new text = text := by
  rw [replace]
  induction text with
  | nil => rfl
  | cons d text ih =>
      have hnot : ¬ pattern <+: d :: text := fun h => htext (h.mem hc)
      rw [replaceFrom, if_neg hnot, ih fun h => htext (List.mem_cons_of_mem d h)]

/-! ### The scan of `replace` -/

theorem replace_cons_of_not (new : Str) (hnot : ¬ pattern <+: c :: text) :
    replace pattern new (c :: text) = c :: replace pattern new text := by
  rw [replace, replaceFrom, if_neg hnot, replace]

theorem replaceFrom_eq_drop (pattern new : Str) (skip : Nat) (text : Str) :
    replaceFrom pattern new skip text = replace pattern new (text.drop skip) := by
  induction text generalizing skip with
  | nil => cases skip <;> rfl
  | cons c rest ih =>
      cases skip with
      | zero => rfl
      | succ skip => rw [replaceFrom, List.drop_succ_cons, ih]

theorem replace_append_self (hne : pattern ≠ []) (new rest : Str) :
    replace pattern new (pattern ++ rest) = new ++ replace pattern new rest := by
  cases pattern with
  | nil => exact absurd rfl hne
  | cons c pattern =>
      rw [replace, List.cons_append, replaceFrom, ← List.cons_append,
        if_pos (List.prefix_append _ _), replaceFrom_eq_drop, List.length_cons,
        Nat.add_sub_cancel, List.drop_left]

variable {new : Str}

theorem length_replaceFrom_le (hshort : new.length ≤ pattern.length) (hne : pattern ≠ []) :
    ∀ (text : Str) (skip : Nat), (replaceFrom pattern new skip text).length ≤ text.length - skip := by
  intro text
  induction text with
  | nil => intro skip; simp [replaceFrom]
  | cons c rest ih =>
      intro skip
      have hpos := List.length_pos_iff.mpr hne
      cases skip with
      | succ skip =>
          rw [replaceFrom, List.length_cons]
          have := ih skip
          omega
      | zero =>
          rw [replaceFrom]
          split_ifs with hmatch
          · have hrest := ih (pattern.length - 1)
            have hlength := hmatch.length_le
            rw [List.length_append]
            rw [List.length_cons] at hlength ⊢
            omega
          · have hrest := ih 0
            rw [List.length_cons, List.length_cons]
            omega

theorem length_replace_le (hshort : new.length ≤ pattern.length) (hne : pattern ≠ []) (text : Str) :
    (replace pattern new text).length ≤ text.length :=
  length_replaceFrom_le hshort hne text 0

theorem not_isInfix_of_length_replace (hshort : new.length < pattern.length)
    (hlength : (replace pattern new text).length = text.length) : ¬ pattern <:+: text := by
  have hne : pattern ≠ [] := fun h => by simp [h] at hshort
  induction text with
  | nil =>
      intro h
      exact hne (List.infix_nil.mp h)
  | cons c rest ih =>
      by_cases hmatch : pattern <+: c :: rest
      · obtain ⟨tail, htail⟩ := hmatch
        have hle := length_replace_le (Nat.le_of_lt hshort) hne tail
        rw [← htail, replace_append_self hne, List.length_append, List.length_append] at hlength
        omega
      · rw [replace_cons_of_not new hmatch, List.length_cons, List.length_cons] at hlength
        intro h
        obtain hbegins | hinner := List.infix_cons_iff.mp h
        · exact hmatch hbegins
        · exact ih (Nat.succ.inj hlength) hinner

theorem replace_of_not_isInfix (h : ¬ pattern <:+: text) : replace pattern new text = text := by
  induction text with
  | nil => rfl
  | cons c rest ih =>
      rw [List.infix_cons_iff, not_or] at h
      rw [replace_cons_of_not new h.1, ih h.2]

/-! ### Parts of a text -/

end

end OpenStarry.Lib.Text
