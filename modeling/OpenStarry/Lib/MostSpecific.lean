import Mathlib.Order.Bounds.Basic
import Mathlib.Order.MinMax
import Mathlib.Data.List.Lemmas

/-!
# The most specific rule wins

Rules that match have a specificity and a verdict. The most specific ones are chosen, and among those
the least verdict. Applying a monotone function to every verdict applies it to the one that wins.
-/

namespace OpenStarry.Lib.MostSpecific

variable {α β : Type} [LinearOrder α] [LinearOrder β]

def top (rules : List (Nat × α)) : Nat := rules.foldl (fun most rule => max most rule.1) 0

def winner (rules : List (Nat × α)) : Option α :=
  ((rules.filter fun rule => rule.1 = top rules).map Prod.snd).min?

theorem le_foldl_max (rules : List (Nat × α)) (most : Nat) :
    most ≤ rules.foldl (fun most rule => max most rule.1) most := by
  induction rules generalizing most with
  | nil => exact le_refl most
  | cons rule rest ih => exact le_trans (le_max_left _ _) (ih _)

theorem fst_le_foldl_max {rules : List (Nat × α)} {rule : Nat × α} (h : rule ∈ rules) (most : Nat) :
    rule.1 ≤ rules.foldl (fun most rule => max most rule.1) most := by
  induction rules generalizing most with
  | nil => simp at h
  | cons first rest ih =>
      rcases List.mem_cons.mp h with rfl | h
      · exact le_trans (le_max_right _ _) (le_foldl_max rest _)
      · exact ih h _

theorem exists_foldl_max_eq (rules : List (Nat × α)) (most : Nat) :
    rules.foldl (fun most rule => max most rule.1) most = most ∨
      ∃ rule ∈ rules, rules.foldl (fun most rule => max most rule.1) most = rule.1 := by
  induction rules generalizing most with
  | nil => exact Or.inl rfl
  | cons first rest ih =>
      rw [List.foldl_cons]
      rcases ih (max most first.1) with h | ⟨rule, hrule, h⟩
      · rw [h]
        rcases max_choice most first.1 with hmax | hmax
        · exact Or.inl hmax
        · exact Or.inr ⟨first, List.mem_cons_self, hmax⟩
      · exact Or.inr ⟨rule, List.mem_cons_of_mem _ hrule, h⟩

theorem fst_le_top {rules : List (Nat × α)} {rule : Nat × α} (h : rule ∈ rules) :
    rule.1 ≤ top rules := fst_le_foldl_max h 0

theorem exists_top {rules : List (Nat × α)} (hne : rules ≠ []) : ∃ rule ∈ rules, rule.1 = top rules := by
  rcases exists_foldl_max_eq rules 0 with h | ⟨rule, hrule, h⟩
  · obtain ⟨rule, rest, rfl⟩ := List.exists_cons_of_ne_nil hne
    have hle := fst_le_top (List.mem_cons_self (a := rule) (l := rest))
    have htop : top (rule :: rest) = 0 := h
    exact ⟨rule, List.mem_cons_self, by omega⟩
  · exact ⟨rule, hrule, h.symm⟩

theorem winner_eq_none_iff {rules : List (Nat × α)} : winner rules = none ↔ rules = [] := by
  rw [winner, List.min?_eq_none_iff, List.map_eq_nil_iff, List.filter_eq_nil_iff]
  constructor
  · intro h
    by_contra hne
    obtain ⟨rule, hrule, htop⟩ := exists_top hne
    exact h rule hrule (decide_eq_true htop)
  · rintro rfl
    simp

def verdicts (rules : List (Nat × α)) : Set α :=
  {verdict | ∃ rule ∈ rules, rule.2 = verdict ∧ ∀ other ∈ rules, other.1 ≤ rule.1}

theorem mem_verdicts_iff {rules : List (Nat × α)} {verdict : α} :
    verdict ∈ verdicts rules ↔ ∃ rule ∈ rules, rule.1 = top rules ∧ rule.2 = verdict := by
  constructor
  · rintro ⟨rule, hrule, hverdict, hall⟩
    obtain ⟨best, hbest, htop⟩ := exists_top (List.ne_nil_of_mem hrule)
    exact ⟨rule, hrule, le_antisymm (fst_le_top hrule) (htop ▸ hall best hbest), hverdict⟩
  · rintro ⟨rule, hrule, htop, hverdict⟩
    exact ⟨rule, hrule, hverdict, fun other hother => htop ▸ fst_le_top hother⟩

theorem isLeast_winner {rules : List (Nat × α)} {verdict : α} (h : winner rules = some verdict) :
    IsLeast (verdicts rules) verdict := by
  rw [winner, List.min?_eq_some_iff] at h
  have hmem : ∀ {v : α}, v ∈ (rules.filter fun rule => rule.1 = top rules).map Prod.snd ↔
      v ∈ verdicts rules := by
    intro v
    rw [mem_verdicts_iff, List.mem_map]
    constructor
    · rintro ⟨rule, hrule, rfl⟩
      obtain ⟨hrule, htop⟩ := List.mem_filter.mp hrule
      exact ⟨rule, hrule, of_decide_eq_true htop, rfl⟩
    · rintro ⟨rule, hrule, htop, rfl⟩
      exact ⟨rule, List.mem_filter.mpr ⟨hrule, decide_eq_true htop⟩, rfl⟩
  exact ⟨hmem.mp h.1, fun v hv => h.2 v (hmem.mpr hv)⟩

theorem winner_eq_some_iff {rules : List (Nat × α)} {verdict : α} :
    winner rules = some verdict ↔ IsLeast (verdicts rules) verdict := by
  constructor
  · exact isLeast_winner
  · intro h
    cases hwinner : winner rules with
    | none =>
        rw [winner_eq_none_iff.mp hwinner] at h
        obtain ⟨⟨rule, hrule, -⟩, -⟩ := h
        simp at hrule
    | some other => rw [(isLeast_winner hwinner).unique h]

theorem winner_map {f : α → β} (hf : Monotone f) (rules : List (Nat × α)) :
    winner (rules.map fun rule => (rule.1, f rule.2)) = (winner rules).map f := by
  cases hwinner : winner rules with
  | none =>
      rw [winner_eq_none_iff.mp hwinner]
      rfl
  | some verdict =>
      obtain ⟨⟨rule, hrule, hverdict, hall⟩, hleast⟩ := isLeast_winner hwinner
      rw [Option.map_some, winner_eq_some_iff]
      constructor
      · refine ⟨(rule.1, f rule.2), List.mem_map_of_mem hrule, by rw [hverdict], ?_⟩
        intro other hother
        obtain ⟨source, hsource, rfl⟩ := List.mem_map.mp hother
        exact hall source hsource
      · rintro v ⟨image, himage, rfl, himageAll⟩
        obtain ⟨source, hsource, rfl⟩ := List.mem_map.mp himage
        refine hf (hleast ⟨source, hsource, rfl, fun other hother => ?_⟩)
        exact himageAll (other.1, f other.2) (List.mem_map_of_mem hother)

theorem foldl_first_max {γ : Type} (key : γ → α) (first : γ) (rest : List γ) :
    rest.foldl (fun best item => if key best < key item then item else best) first ∈ first :: rest ∧
      ∀ item ∈ first :: rest, key item ≤
        key (rest.foldl (fun best item => if key best < key item then item else best) first) := by
  induction rest generalizing first with
  | nil =>
      refine ⟨List.mem_cons_self, fun item hitem => ?_⟩
      rw [List.mem_singleton.mp hitem]
      exact le_refl _
  | cons second rest ih =>
      rw [List.foldl_cons]
      obtain ⟨hmem, hgreatest⟩ := ih (if key first < key second then second else first)
      have hfirst : key first ≤ key (if key first < key second then second else first) := by
        split
        · rename_i hlt
          exact le_of_lt hlt
        · exact le_refl _
      have hsecond : key second ≤ key (if key first < key second then second else first) := by
        split
        · exact le_refl _
        · rename_i hlt
          exact not_lt.mp hlt
      have hchosen := hgreatest _ List.mem_cons_self
      constructor
      · rcases List.mem_cons.mp hmem with heq | hrest
        · rw [heq]
          split
          · exact List.mem_cons_of_mem _ List.mem_cons_self
          · exact List.mem_cons_self
        · exact List.mem_cons_of_mem _ (List.mem_cons_of_mem _ hrest)
      · intro item hitem
        rcases List.mem_cons.mp hitem with rfl | hitem
        · exact le_trans hfirst hchosen
        · rcases List.mem_cons.mp hitem with rfl | hitem
          · exact le_trans hsecond hchosen
          · exact hgreatest item (List.mem_cons_of_mem _ hitem)

end OpenStarry.Lib.MostSpecific
