import Mathlib.Data.List.Sort
import OpenStarry.Lib.Text

/-!
# Text tiers

The ladder of text tiers, the legacy spellings of their names, and the order in which a configured
list of tiers is ranked: the known tiers as they stand on the ladder, the others behind them in
their declared order.
-/

namespace OpenStarry.Routing

open Lib Text

/-- `str.lower`, on ASCII text a map of the letters. -/
structure CaseFolding where
  lower : Str → Str
  lower_ascii : ∀ text : Str, (∀ c ∈ text, c.toNat < 128) → lower text = text.map Char.toLower

def textTiers : List Str := ["c0", "c1", "c2", "c3", "c4", "c5", "c6"].map String.toList

def defaultTextTier : Str := "c1".toList

def highestTextTier : Str := "c6".toList

def legacyTextTierAliases : List (Str × Str) :=
  ["t0", "t1", "t2", "t3", "t4", "t5", "t6"].map String.toList |>.zip textTiers

def tierToRouteClass : List (Str × Str) :=
  textTiers.zip (["R0", "R1", "R2", "R3", "R3", "R3", "R3"].map String.toList)

def routeClassToTier : List (Str × Str) :=
  (["R0", "R1", "R2", "R3"].map String.toList).zip (textTiers.take 4)

section Names

variable (folding : CaseFolding)

/-- `normalize_text_tier`. -/
def normalizeTextTier (value : Str) : Option Str :=
  let tier := folding.lower (strip value)
  if tier = [] then none
  else if tier ∈ textTiers then some tier
  else legacyTextTierAliases.lookup tier

/-- `normalize_text_tier(tier) or tier`. -/
def normalTier (tier : Str) : Str := (normalizeTextTier folding tier).getD tier

/-- `tier_index`, with no value in place of -1. -/
def tierIndex (value : Str) : Option Nat :=
  (normalizeTextTier folding value).map fun tier => textTiers.idxOf tier

def sortKey (name : Str) : Nat := (tierIndex folding name).getD textTiers.length

/-- `_canonical_order`. -/
def canonicalOrder (validTiers : List Str) : List Str :=
  validTiers.insertionSort fun a b => sortKey folding a ≤ sortKey folding b

/-- `_tier_index`, with no value in place of -1. -/
def rank? (validTiers : List Str) (tier : Str) : Option Nat :=
  (canonicalOrder folding validTiers).idxOf? (normalTier folding tier)

/-- `_tier_index`. -/
def rank (validTiers : List Str) (tier : Str) : Int :=
  match rank? folding validTiers tier with
  | none => -1
  | some i => i

/-- `_upgrade_tier`. -/
def upgradeTier (validTiers : List Str) (tier : Str) (steps : Int) : Str :=
  let ordered := canonicalOrder folding validTiers
  match rank? folding validTiers tier with
  | none => tier
  | some i => (ordered[min (i + steps.toNat) (ordered.length - 1)]?).getD tier

/-- `route_class_for_tier`. -/
def routeClassForTier (tier : Str) : Option Str :=
  tierToRouteClass.lookup (normalTier folding tier)

end Names

/-- `tier_for_route_class`. -/
def tierForRouteClass (routeClass : Option Str) : Option Str :=
  routeClass.bind fun name => routeClassToTier.lookup name

/-! ### Normal names -/

section Normal

variable {folding : CaseFolding} {tier tier' : Str}

theorem lower_of_mem_textTiers (h : tier ∈ textTiers) : folding.lower (strip tier) = tier := by
  have hstrip : ∀ tier ∈ textTiers, strip tier = tier := by decide
  have hascii : ∀ tier ∈ textTiers, ∀ c ∈ tier, c.toNat < 128 := by decide
  have hlower : ∀ tier ∈ textTiers, tier.map Char.toLower = tier := by decide
  rw [hstrip tier h, folding.lower_ascii tier (hascii tier h), hlower tier h]

theorem normalizeTextTier_of_mem (h : tier ∈ textTiers) :
    normalizeTextTier folding tier = some tier := by
  have hne : tier ≠ [] := by
    intro hnil
    rw [hnil] at h
    exact absurd h (by decide)
  unfold normalizeTextTier
  rw [lower_of_mem_textTiers h]
  simp only [hne, h, if_false, if_true]

theorem mem_textTiers_of_normalizeTextTier (h : normalizeTextTier folding tier = some tier') :
    tier' ∈ textTiers := by
  have halias : ∀ name, ∀ target ∈ legacyTextTierAliases.lookup name, target ∈ textTiers := by
    intro name target htarget
    obtain ⟨before, after, hsplit, -⟩ := List.lookup_eq_some_iff.1 htarget
    have hmem : (name, target) ∈ legacyTextTierAliases := by
      rw [hsplit]
      exact List.mem_append_right _ List.mem_cons_self
    exact (List.of_mem_zip hmem).2
  unfold normalizeTextTier at h
  dsimp only at h
  split at h
  · cases h
  · split at h
    · rename_i hmem
      exact Option.some.inj h ▸ hmem
    · exact halias _ _ h

theorem normalizeTextTier_normalTier :
    normalizeTextTier folding (normalTier folding tier) = normalizeTextTier folding tier := by
  unfold normalTier
  cases h : normalizeTextTier folding tier with
  | none => exact h
  | some tier' => exact normalizeTextTier_of_mem (mem_textTiers_of_normalizeTextTier h)

@[simp] theorem normalTier_normalTier :
    normalTier folding (normalTier folding tier) = normalTier folding tier := by
  have h : normalizeTextTier folding (normalTier folding tier) = normalizeTextTier folding tier :=
    normalizeTextTier_normalTier
  unfold normalTier at h ⊢
  rw [h]
  cases normalizeTextTier folding tier <;> rfl

@[simp] theorem sortKey_normalTier :
    sortKey folding (normalTier folding tier) = sortKey folding tier := by
  unfold sortKey tierIndex
  rw [normalizeTextTier_normalTier]

theorem normalTier_of_mem (h : tier ∈ textTiers) : normalTier folding tier = tier := by
  unfold normalTier
  rw [normalizeTextTier_of_mem h]
  rfl

theorem eq_of_sortKey (htier : normalTier folding tier = tier)
    (htier' : normalTier folding tier' = tier') (h : sortKey folding tier = sortKey folding tier') :
    tier = tier' ∨ normalizeTextTier folding tier' = none := by
  unfold normalTier at htier htier'
  unfold sortKey tierIndex at h
  cases hleft : normalizeTextTier folding tier with
  | none =>
      cases hright : normalizeTextTier folding tier' with
      | none => exact .inr rfl
      | some right =>
          have hlt := List.idxOf_lt_length_of_mem (mem_textTiers_of_normalizeTextTier hright)
          rw [hleft, hright] at h
          simp only [Option.map_none, Option.getD_none, Option.map_some, Option.getD_some] at h
          omega
  | some left =>
      cases hright : normalizeTextTier folding tier' with
      | none => exact .inr rfl
      | some right =>
          rw [hleft, hright] at h
          rw [hleft] at htier
          rw [hright] at htier'
          simp only [Option.map_some, Option.getD_some] at h htier htier'
          have heq := (List.idxOf_inj (mem_textTiers_of_normalizeTextTier hleft)).1 h
          exact .inl (htier.symm.trans (heq.trans htier'))

end Normal

/-! ### Ranks -/

section Ranks

variable {folding : CaseFolding} {validTiers : List Str} {tier tier' : Str} {i j : Nat}

theorem perm_canonicalOrder : (canonicalOrder folding validTiers).Perm validTiers :=
  List.perm_insertionSort _ _

theorem mem_canonicalOrder : tier ∈ canonicalOrder folding validTiers ↔ tier ∈ validTiers :=
  perm_canonicalOrder.mem_iff

theorem pairwise_canonicalOrder : (canonicalOrder folding validTiers).Pairwise fun a b =>
    sortKey folding a ≤ sortKey folding b := by
  have : Std.Total fun a b => sortKey folding a ≤ sortKey folding b :=
    ⟨fun a b => Nat.le_total _ _⟩
  have : IsTrans Str fun a b => sortKey folding a ≤ sortKey folding b :=
    ⟨fun _ _ _ => Nat.le_trans⟩
  exact List.pairwise_insertionSort _ _

theorem sortKey_le_of_le {a b : Str} (ha : (canonicalOrder folding validTiers)[i]? = some a)
    (hb : (canonicalOrder folding validTiers)[j]? = some b) (hle : i ≤ j) :
    sortKey folding a ≤ sortKey folding b := by
  obtain ⟨hi, rfl⟩ := List.getElem?_eq_some_iff.1 ha
  obtain ⟨hj, rfl⟩ := List.getElem?_eq_some_iff.1 hb
  obtain heq | hlt := Nat.eq_or_lt_of_le hle
  · subst heq
    exact le_rfl
  · exact List.pairwise_iff_getElem.1 pairwise_canonicalOrder i j hi hj hlt

theorem getElem?_of_rank? (h : rank? folding validTiers tier = some i) :
    (canonicalOrder folding validTiers)[i]? = some (normalTier folding tier) := by
  obtain ⟨hi, heq, -⟩ := List.idxOf?_eq_some_iff.1 h
  exact List.getElem?_eq_some_iff.2 ⟨hi, heq⟩

theorem normalTier_mem_of_rank? (h : rank? folding validTiers tier = some i) :
    normalTier folding tier ∈ validTiers :=
  mem_canonicalOrder.1 (List.mem_of_getElem? (getElem?_of_rank? h))

theorem exists_rank? (h : normalTier folding tier ∈ validTiers) :
    ∃ i, rank? folding validTiers tier = some i := by
  have hsome : (rank? folding validTiers tier).isSome := by
    unfold rank?
    rw [List.isSome_idxOf?]
    exact mem_canonicalOrder.2 h
  exact Option.isSome_iff_exists.1 hsome

theorem rank_of_rank? (h : rank? folding validTiers tier = some i) :
    rank folding validTiers tier = i := by
  unfold rank
  rw [h]

@[simp] theorem rank_normalTier :
    rank folding validTiers (normalTier folding tier) = rank folding validTiers tier := by
  unfold rank rank?
  rw [normalTier_normalTier]

theorem rank_nonneg_iff :
    0 ≤ rank folding validTiers tier ↔ normalTier folding tier ∈ validTiers := by
  constructor
  · intro hrank
    unfold rank at hrank
    split at hrank
    · omega
    · rename_i i hi
      exact normalTier_mem_of_rank? hi
  · intro hmem
    obtain ⟨i, hi⟩ := exists_rank? hmem
    rw [rank_of_rank? hi]
    omega

theorem sortKey_le_of_rank_le (htier : normalTier folding tier ∈ validTiers)
    (htier' : normalTier folding tier' ∈ validTiers)
    (h : rank folding validTiers tier ≤ rank folding validTiers tier') :
    sortKey folding tier ≤ sortKey folding tier' := by
  obtain ⟨i, hi⟩ := exists_rank? htier
  obtain ⟨j, hj⟩ := exists_rank? htier'
  rw [rank_of_rank? hi, rank_of_rank? hj] at h
  have hle := sortKey_le_of_le (getElem?_of_rank? hi) (getElem?_of_rank? hj) (by omega)
  rwa [sortKey_normalTier, sortKey_normalTier] at hle

theorem rank_le_of_getElem? (hnodup : validTiers.Nodup) {position : Nat}
    (hi : rank? folding validTiers tier = some i)
    (hposition : (canonicalOrder folding validTiers)[position]? = some tier')
    (hle : i ≤ position) (hmem : normalTier folding tier' ∈ validTiers) :
    rank folding validTiers tier ≤ rank folding validTiers tier' := by
  obtain ⟨j, hj⟩ := exists_rank? hmem
  rw [rank_of_rank? hi, rank_of_rank? hj]
  by_contra hlt
  have hat := getElem?_of_rank? hi
  have hat' := getElem?_of_rank? hj
  have hdown := sortKey_le_of_le hat' hat (by omega)
  have hup := sortKey_le_of_le hat hposition hle
  rw [sortKey_normalTier] at hdown hup
  rw [sortKey_normalTier] at hdown
  have hinj : ∀ (k l : Nat) (name : Str), (canonicalOrder folding validTiers)[k]? = some name →
      (canonicalOrder folding validTiers)[l]? = some name → k = l := by
    intro k l name hk hl
    obtain ⟨hklt, hkeq⟩ := List.getElem?_eq_some_iff.1 hk
    obtain ⟨hllt, hleq⟩ := List.getElem?_eq_some_iff.1 hl
    have hordered : (canonicalOrder folding validTiers).Nodup :=
      perm_canonicalOrder.nodup_iff.2 hnodup
    exact (hordered.getElem_inj_iff).1 (hkeq.trans hleq.symm)
  have hkey : sortKey folding (normalTier folding tier') =
      sortKey folding (normalTier folding tier) := by
    rw [sortKey_normalTier, sortKey_normalTier]
    omega
  obtain heq | hnone := eq_of_sortKey normalTier_normalTier normalTier_normalTier hkey.symm
  · rw [heq] at hat
    exact hlt (by exact_mod_cast (hinj i j _ hat hat').le)
  · -- an unknown name has one spelling
    rw [normalizeTextTier_normalTier] at hnone
    have hself : normalTier folding tier' = tier' := by
      unfold normalTier
      rw [hnone]
      rfl
    rw [hself] at hat'
    have := hinj j position _ hat' hposition
    omega

end Ranks

end OpenStarry.Routing
