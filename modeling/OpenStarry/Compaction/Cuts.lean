import OpenStarry.Compaction.Compact

/-!
# Where a cut comes to rest

Moving a cut back passes over the tool results in front of it and over the call before them, and
then stops. A cut that starts at a round boundary can leave the boundaries in this way: an assistant
row with its results inside opens a round, and is a tool result itself.
-/

namespace OpenStarry.Compaction

open Lib Lib.Text

variable (texts : Texts)

/-! ### Moving back -/

def landing (entries : List Entry) (cut : Nat) : Nat :=
  if cut = 0 ∨ ¬ isResultAt texts entries cut then cut
  else
    let start := resultStart texts entries cut
    if 0 < start ∧ isCallAt texts entries (start - 1) then start - 1 else start

variable {texts}

theorem resultStart_le (entries : List Entry) (i : Nat) : resultStart texts entries i ≤ i := by
  induction i with
  | zero => exact le_rfl
  | succ i ih =>
      rw [resultStart]
      split_ifs
      · omega
      · exact le_rfl

theorem not_isResultAt_before_start {entries : List Entry} {i : Nat}
    (hpos : 0 < resultStart texts entries i) :
    ¬ isResultAt texts entries (resultStart texts entries i - 1) := by
  induction i with
  | zero => exact absurd hpos (lt_irrefl 0)
  | succ i ih =>
      rw [resultStart] at hpos ⊢
      split_ifs at hpos ⊢ with hresult
      · exact ih hpos
      · exact hresult

theorem resultStart_start {entries : List Entry} {i : Nat} :
    resultStart texts entries (resultStart texts entries i) = resultStart texts entries i := by
  cases hstart : resultStart texts entries i with
  | zero => rfl
  | succ n =>
      have hbefore : ¬ isResultAt texts entries n := by
        have hpos : 0 < resultStart texts entries i := by omega
        have hnone := not_isResultAt_before_start hpos
        rwa [hstart, Nat.add_sub_cancel] at hnone
      rw [resultStart, if_neg hbefore]

theorem landing_of_not_result {entries : List Entry} {cut : Nat}
    (hcut : ¬ isResultAt texts entries cut) : landing texts entries cut = cut := by
  rw [landing, if_pos (Or.inr hcut)]

theorem landing_le (entries : List Entry) (cut : Nat) : landing texts entries cut ≤ cut := by
  have hstart := @resultStart_le texts entries cut
  unfold landing
  dsimp only
  split_ifs
  · exact le_rfl
  · omega
  · exact hstart

theorem landing_landing (entries : List Entry) (cut : Nat) :
    landing texts entries (landing texts entries cut) = landing texts entries cut := by
  by_cases hcut : cut = 0 ∨ ¬ isResultAt texts entries cut
  · have hself : landing texts entries cut = cut := by rw [landing, if_pos hcut]
    rw [hself, hself]
  · have hland : landing texts entries cut =
        if 0 < resultStart texts entries cut ∧
            isCallAt texts entries (resultStart texts entries cut - 1) then
          resultStart texts entries cut - 1
        else resultStart texts entries cut := by rw [landing, if_neg hcut]
    by_cases hcall : 0 < resultStart texts entries cut ∧
        isCallAt texts entries (resultStart texts entries cut - 1)
    · rw [hland, if_pos hcall]
      exact landing_of_not_result (not_isResultAt_before_start hcall.1)
    · rw [hland, if_neg hcall, landing, resultStart_start, if_neg hcall]
      exact ite_self _

theorem retreatStep_landing (entries : List Entry) (cut : Nat) :
    retreatStep texts entries cut = .inr (landing texts entries cut) ∧
        landing texts entries cut = cut ∨
      retreatStep texts entries cut = .inl (landing texts entries cut) ∧
        landing texts entries cut < cut := by
  have hstart := @resultStart_le texts entries cut
  unfold retreatStep landing
  by_cases hzero : cut = 0
  · simp [hzero]
  by_cases hresult : isResultAt texts entries cut = true
  · by_cases hcall : 0 < resultStart texts entries cut ∧
        isCallAt texts entries (resultStart texts entries cut - 1) = true
    · refine Or.inr ⟨?_, ?_⟩
      · simp [hzero, hresult, hcall]
      · simp only [hzero, hresult, hcall, not_true, or_self, if_false, and_self, if_true]
        omega
    · by_cases hmoved : resultStart texts entries cut = cut
      · -- The results begin at the cut itself, and the entry before them is no call.
        refine Or.inl ⟨?_, ?_⟩
        · have hbefore : ¬ isCallAt texts entries (cut - 1) = true := fun hc =>
            hcall (by rw [hmoved]; exact ⟨Nat.pos_of_ne_zero hzero, hc⟩)
          rw [if_neg hzero, if_neg fun h => hcall h.2, if_neg fun h => h.2 hmoved,
            if_pos fun h => hbefore h.1, if_neg (by simp [hzero, hresult]), if_neg hcall, hmoved]
        · rw [if_neg (by simp [hzero, hresult]), if_neg hcall, hmoved]
      · refine Or.inr ⟨?_, ?_⟩
        · rw [if_neg hzero, if_neg fun h => hcall h.2, if_pos ⟨hresult, hmoved⟩,
            if_neg (by simp [hzero, hresult]), if_neg hcall]
        · rw [if_neg (by simp [hzero, hresult]), if_neg hcall]
          omega
  · refine Or.inl ⟨?_, ?_⟩
    · simp [hzero, hresult]
    · simp [hresult]

theorem retreatLoop_eq_landing (entries : List Entry) (fuel cut : Nat) (hfuel : cut < fuel) :
    retreatLoop texts entries fuel cut = landing texts entries cut := by
  induction fuel generalizing cut with
  | zero => exact absurd hfuel (Nat.not_lt_zero cut)
  | succ fuel ih =>
      rw [retreatLoop]
      obtain ⟨hstep, -⟩ | ⟨hstep, hlt⟩ := @retreatStep_landing texts entries cut
      · rw [hstep]
      · rw [hstep]
        have hnext : landing texts entries cut < fuel := by omega
        exact (ih _ hnext).trans (landing_landing entries cut)

theorem retreatToTurnBoundary_eq (entries : List Entry) (cut : Nat) :
    retreatToTurnBoundary texts entries cut = landing texts entries cut :=
  retreatLoop_eq_landing entries (cut + 1) cut (Nat.lt_succ_self cut)

/-! ### Round boundaries -/

theorem foldl_max_mem (l : List Nat) (m : Nat) : l.foldl max m ∈ m :: l := by
  induction l generalizing m with
  | nil => exact List.mem_singleton_self m
  | cons x l ih =>
      have hmem := ih (max m x)
      rw [List.foldl_cons]
      rw [List.mem_cons] at hmem ⊢
      rw [List.mem_cons]
      rcases hmem with heq | hin
      · rw [heq]
        have hchoice : max m x = m ∨ max m x = x := by omega
        rcases hchoice with hm | hx
        · exact Or.inl hm
        · exact Or.inr (Or.inl hx)
      · exact Or.inr (Or.inr hin)

theorem le_foldl_max (l : List Nat) (m : Nat) : ∀ x ∈ m :: l, x ≤ l.foldl max m := by
  induction l generalizing m with
  | nil => simp
  | cons y l ih =>
      intro x hx
      rw [List.foldl_cons]
      have hmax := ih (max m y) (max m y) List.mem_cons_self
      rw [List.mem_cons, List.mem_cons] at hx
      rcases hx with rfl | rfl | hx
      · omega
      · omega
      · exact ih (max m y) x (List.mem_cons_of_mem _ hx)

theorem zero_mem_boundaries (entries : List Entry) : 0 ∈ apiRoundBoundaries texts entries :=
  List.mem_cons_self

theorem roundStart_spec (entries : List Entry) (cut : Nat) :
    roundStart texts entries cut ∈ apiRoundBoundaries texts entries ∧
      roundStart texts entries cut ≤ cut := by
  have hmem := foldl_max_mem ((apiRoundBoundaries texts entries).filter (· ≤ cut)) 0
  rcases List.mem_cons.mp hmem with hzero | hin
  · rw [roundStart, hzero]
    exact ⟨zero_mem_boundaries entries, Nat.zero_le cut⟩
  · obtain ⟨hboundary, hle⟩ := List.mem_filter.mp hin
    exact ⟨hboundary, of_decide_eq_true hle⟩

theorem roundStart_of_boundary {entries : List Entry} {cut : Nat}
    (hcut : cut ∈ apiRoundBoundaries texts entries) : roundStart texts entries cut = cut := by
  apply le_antisymm (roundStart_spec entries cut).2
  apply le_foldl_max
  exact List.mem_cons_of_mem _ (List.mem_filter.mpr ⟨hcut, by simp⟩)

theorem retreatToApiRoundBoundary_eq (entries : List Entry) (cut : Nat) :
    retreatToApiRoundBoundary texts entries cut =
      landing texts entries (roundStart texts entries cut) :=
  retreatToTurnBoundary_eq entries _

theorem retreatToApiRoundBoundary_le (entries : List Entry) (cut : Nat) :
    retreatToApiRoundBoundary texts entries cut ≤ cut := by
  rw [retreatToApiRoundBoundary_eq]
  exact (landing_le entries _).trans (roundStart_spec entries cut).2

theorem boundary_of_retreat_eq {entries : List Entry} {cut : Nat}
    (hcut : retreatToApiRoundBoundary texts entries cut = cut) :
    cut ∈ apiRoundBoundaries texts entries := by
  have hspec := @roundStart_spec texts entries cut
  have hle := @landing_le texts entries (roundStart texts entries cut)
  rw [retreatToApiRoundBoundary_eq] at hcut
  have heq : roundStart texts entries cut = cut := by omega
  exact heq ▸ hspec.1

end OpenStarry.Compaction
