import OpenStarry.Routing.Engine

/-!
# Where a run of the routing policy ends

Every stage takes a valid tier to a valid tier. Where the canonical names of the valid tiers are
valid themselves, the stages after the previous turn has been looked at go up the ladder only, until
the budget caps.
-/

namespace OpenStarry.Routing

open Lib Text

/-! ### Valid tiers stay valid -/

section Valid

variable {F : Type} {env : Env F} {tiers : Str → Option TierEntry} {validTiers : List Str}
  {cfg : RouterConfig F} {tier tier' : Str} {i : Nat}

/-- A valid tier that the ladder knows. -/
structure Ranked (folding : CaseFolding) (validTiers : List Str) (tier : Str) : Prop where
  valid : tier ∈ validTiers
  normal : normalTier folding tier ∈ validTiers

theorem mem_of_getElem? (h : (canonicalOrder env.toCaseFolding validTiers)[i]? = some tier) :
    tier ∈ validTiers :=
  mem_canonicalOrder.1 (List.mem_of_getElem? h)

theorem gateDefault_mem {defaultTier : Str}
    (h : gateDefault env validTiers defaultTier = some tier) : tier ∈ validTiers := by
  unfold gateDefault at h
  dsimp only at h
  split at h
  · rename_i hmem
    exact Option.some.inj h ▸ hmem
  · split at h
    · rename_i hmem
      exact Option.some.inj h ▸ hmem
    · exact List.mem_of_mem_head? h

theorem ranked_confidenceGate (confidence : F) (calibration : Option (CalibrationState F))
    (h : Ranked env.toCaseFolding validTiers tier) :
    Ranked env.toCaseFolding validTiers
      (confidenceGate env tiers validTiers cfg tier confidence calibration).tier := by
  unfold confidenceGate
  dsimp only
  split
  · exact h
  · rename_i defaultTier hdefault
    obtain ⟨configured, -, hgate⟩ := Option.bind_eq_some_iff.1 hdefault
    split
    · exact h
    · split
      · rename_i hcondition
        exact ⟨gateDefault_mem hgate, rank_nonneg_iff.1 hcondition.2.2.1⟩
      · exact h

theorem normal_raisedStart {other : Option Str}
    (h : normalTier env.toCaseFolding tier ∈ validTiers) :
    normalTier env.toCaseFolding (raisedStart env validTiers tier other) ∈ validTiers := by
  unfold raisedStart
  split
  · exact h
  · rename_i higher
    split
    · rename_i hcondition
      unfold either
      split
      · exact h
      · have := rank_nonneg_iff.2 h
        exact rank_nonneg_iff.1 (by omega)
    · exact h

theorem upgradeTier_mem {steps : Int} (h : normalTier env.toCaseFolding tier ∈ validTiers) :
    upgradeTier env.toCaseFolding validTiers tier steps ∈ validTiers := by
  obtain ⟨i, hi⟩ := exists_rank? h
  obtain ⟨hlt, -⟩ := List.getElem?_eq_some_iff.1 (getElem?_of_rank? hi)
  have hbound : min (i + steps.toNat) ((canonicalOrder env.toCaseFolding validTiers).length - 1) <
      (canonicalOrder env.toCaseFolding validTiers).length := by
    omega
  unfold upgradeTier
  rw [hi]
  dsimp only
  rw [List.getElem?_eq_getElem hbound, Option.getD_some]
  exact mem_of_getElem? (List.getElem?_eq_getElem hbound)

theorem complaintUpgrade_mem (message : Str) {preConfidenceTier : Str} (previousTier : Option Str)
    (h : Ranked env.toCaseFolding validTiers tier) :
    (complaintUpgrade env validTiers cfg tier message preConfidenceTier previousTier).tier ∈
      validTiers := by
  unfold complaintUpgrade
  dsimp only
  split
  · exact h.valid
  · split
    · exact h.valid
    · exact upgradeTier_mem (normal_raisedStart (normal_raisedStart h.normal))

theorem antiDowngrade_mem (previousTier : Option Str) (h : tier ∈ validTiers) :
    (antiDowngrade env validTiers cfg tier previousTier).tier ∈ validTiers := by
  unfold antiDowngrade
  split
  · exact h
  · split
    · rename_i hcondition
      unfold either
      split
      · exact h
      · exact hcondition.2.1
    · exact h

theorem visionTarget_getElem? {capabilities : List (Str × TierCapability)} {ordered : List Str}
    {turnHasImage : Bool} (h : visionTarget capabilities ordered turnHasImage i tier = some tier') :
    ∃ j, i < j ∧ ordered[j]? = some tier' := by
  unfold visionTarget at h
  split at h
  · obtain ⟨k, hk⟩ := List.getElem?_of_mem (List.mem_of_find?_eq_some h)
    rw [List.getElem?_drop] at hk
    exact ⟨i + 1 + k, by omega, hk⟩
  · cases h

theorem contextTarget_getElem? {capabilities : List (Str × TierCapability)} {ordered : List Str}
    {materialTokens : Int}
    (h : contextTarget capabilities ordered materialTokens i tier = some tier') :
    ∃ j, i < j ∧ ordered[j]? = some tier' := by
  unfold contextTarget at h
  split at h
  · rw [Option.orElse_eq_orElse, Option.orElse_eq_or, Option.or_eq_some_iff] at h
    obtain hfound | ⟨-, hlast⟩ := h
    · obtain ⟨k, hk⟩ := List.getElem?_of_mem (List.mem_of_find?_eq_some hfound)
      rw [List.getElem?_drop] at hk
      exact ⟨i + 1 + k, by omega, hk⟩
    · split at hlast
      · rename_i hlt
        rw [List.getLast?_eq_getElem?] at hlast
        exact ⟨ordered.length - 1, hlt, hlast⟩
      · cases hlast
  · cases h

theorem moved_position {ordered : List Str} {start : Str} {target : Option Str}
    (hnodup : ordered.Nodup) (hstart : ordered[i]? = some start)
    (htarget : ∀ tier ∈ target, ∃ j, i < j ∧ ordered[j]? = some tier) :
    i ≤ (moved ordered i start target).2 ∧
      ordered[(moved ordered i start target).2]? = some (moved ordered i start target).1 := by
  cases target with
  | none => exact ⟨le_rfl, hstart⟩
  | some tier =>
      obtain ⟨j, hij, hj⟩ := htarget tier rfl
      obtain ⟨hlt, rfl⟩ := List.getElem?_eq_some_iff.1 hj
      have hposition : ordered.idxOf ordered[j] = j := hnodup.idxOf_getElem j hlt
      unfold moved
      rw [Option.elim_some, hposition]
      exact ⟨hij.le, hj⟩

theorem capabilityGate_position (hnodup : validTiers.Nodup)
    (capabilities : List (Str × TierCapability)) (turnHasImage : Bool) (materialTokens : Int) :
    (capabilityGate env validTiers tier capabilities turnHasImage materialTokens).tier = tier ∨
      ∃ i j, rank? env.toCaseFolding validTiers tier = some i ∧ i ≤ j ∧
        (canonicalOrder env.toCaseFolding validTiers)[j]? =
          some (capabilityGate env validTiers tier capabilities turnHasImage materialTokens).tier := by
  have hordered : (canonicalOrder env.toCaseFolding validTiers).Nodup :=
    perm_canonicalOrder.nodup_iff.2 hnodup
  unfold capabilityGate
  dsimp only
  split
  · exact .inl rfl
  · rename_i i hi
    split
    · exact .inl rfl
    · obtain ⟨hle, hposition⟩ := moved_position hordered (getElem?_of_rank? hi)
        (fun target htarget => visionTarget_getElem? htarget)
      generalize moved _ i _ _ = current at hle hposition ⊢
      dsimp only
      right
      cases hcontext : (contextTarget capabilities (canonicalOrder env.toCaseFolding validTiers)
          materialTokens current.2 current.1).filter fun target => target ≠ current.1 with
      | none => exact ⟨i, current.2, hi, hle, hposition⟩
      | some target =>
          obtain ⟨k, hk, hat⟩ := contextTarget_getElem? (Option.filter_eq_some_iff.1 hcontext).1
          exact ⟨i, k, hi, by omega, hat⟩

theorem capabilityGate_mem (hnodup : validTiers.Nodup) (h : tier ∈ validTiers)
    (capabilities : List (Str × TierCapability)) (turnHasImage : Bool) (materialTokens : Int) :
    (capabilityGate env validTiers tier capabilities turnHasImage materialTokens).tier ∈
      validTiers := by
  obtain hsame | ⟨i, j, -, -, hj⟩ :=
    capabilityGate_position hnodup capabilities turnHasImage materialTokens
  · rw [hsame]
    exact h
  · exact mem_of_getElem? hj

/-! ### Up the ladder -/

def Canonical (folding : CaseFolding) (validTiers : List Str) : Prop :=
  ∀ tier ∈ validTiers, normalTier folding tier ∈ validTiers

theorem rank_le_antiDowngrade {previous : Str} (hne : previous ≠ [])
    (hcanonical : Canonical env.toCaseFolding validTiers)
    (henabled : cfg.kvCacheAntiDowngradeEnabled.getD true = true) (hprevious : previous ∈ validTiers)
    (h : tier ∈ validTiers) :
    rank env.toCaseFolding validTiers previous ≤
      rank env.toCaseFolding validTiers
        (antiDowngrade env validTiers cfg tier (some previous)).tier := by
  unfold antiDowngrade
  dsimp only
  split
  · rw [either, if_neg hne]
  · rename_i hcondition
    apply le_of_not_gt
    intro hlt
    exact hcondition ⟨henabled, hprevious, rank_nonneg_iff.2 (hcanonical tier h), hlt⟩

theorem rank_le_capabilityGate (hnodup : validTiers.Nodup)
    (hcanonical : Canonical env.toCaseFolding validTiers)
    (capabilities : List (Str × TierCapability)) (turnHasImage : Bool) (materialTokens : Int) :
    rank env.toCaseFolding validTiers tier ≤ rank env.toCaseFolding validTiers
      (capabilityGate env validTiers tier capabilities turnHasImage materialTokens).tier := by
  obtain hsame | ⟨i, j, hi, hle, hj⟩ :=
    capabilityGate_position hnodup capabilities turnHasImage materialTokens
  · rw [hsame]
  · exact rank_le_of_getElem? hnodup hi hj hle (hcanonical _ (mem_of_getElem? hj))

theorem floorTier_mem {materialTokens contextWindowTokens : Int}
    (h : floorTier env validTiers tier materialTokens contextWindowTokens = some tier') :
    tier' ∈ validTiers ∧
      rank env.toCaseFolding validTiers tier < rank env.toCaseFolding validTiers tier' := by
  unfold floorTier at h
  split at h
  · cases h
  · obtain ⟨hmin, hrank⟩ := Option.filter_eq_some_iff.1 h
    obtain ⟨minTier, -, hvalid⟩ := Option.bind_eq_some_iff.1 hmin
    refine ⟨?_, of_decide_eq_true hrank⟩
    unfold validMinTier at hvalid
    split at hvalid
    · rename_i hmem
      exact Option.some.inj hvalid ▸ hmem
    · dsimp only at hvalid
      split at hvalid
      · rename_i first rest heligible
        obtain rfl := Option.some.inj hvalid
        have hmem : first ∈ (canonicalOrder env.toCaseFolding validTiers).filter _ :=
          heligible ▸ List.mem_cons_self
        exact mem_canonicalOrder.1 (List.mem_filter.1 hmem).1
      · split at hvalid
        · exact mem_canonicalOrder.1 (List.mem_of_getLast? hvalid)
        · cases hvalid

def Reaches (folding : CaseFolding) (minTier tier : Str) : Prop :=
  ∃ index ∈ tierIndex folding tier, ∀ least ∈ tierIndex folding minTier, least ≤ index

theorem sortKey_le_of_reaches {minTier : Str} (hmin : minTier ∈ textTiers)
    (h : Reaches env.toCaseFolding minTier tier) :
    sortKey env.toCaseFolding minTier ≤ sortKey env.toCaseFolding tier := by
  obtain ⟨index, hindex, hle⟩ := h
  have hleast : tierIndex env.toCaseFolding minTier = some (textTiers.idxOf minTier) := by
    unfold tierIndex
    rw [normalizeTextTier_of_mem hmin, Option.map_some]
  unfold sortKey
  rw [hleast, hindex, Option.getD_some, Option.getD_some]
  exact hle _ hleast

theorem exists_validMinTier {minTier : Str} (hmin : minTier ∈ textTiers)
    (h : ∃ tier ∈ validTiers, Reaches env.toCaseFolding minTier tier) :
    ∃ least, validMinTier env validTiers minTier = some least ∧ least ∈ validTiers ∧
      sortKey env.toCaseFolding minTier ≤ sortKey env.toCaseFolding least := by
  obtain ⟨tier, htier, hreaches⟩ := h
  unfold validMinTier
  by_cases hmem : minTier ∈ validTiers
  · rw [if_pos hmem]
    exact ⟨minTier, rfl, hmem, le_rfl⟩
  · rw [if_neg hmem]
    dsimp only
    obtain ⟨index, hindex, hle⟩ := hreaches
    have helig : tier ∈ (canonicalOrder env.toCaseFolding validTiers).filter (fun name =>
        (tierIndex env.toCaseFolding name).any fun index =>
          (tierIndex env.toCaseFolding minTier).all (· ≤ index)) := by
      refine List.mem_filter.2 ⟨mem_canonicalOrder.2 htier, ?_⟩
      rw [Option.mem_def.1 hindex]
      simpa [Option.all_eq_true] using hle
    split
    · rename_i first rest heligible
      have hfirst : first ∈ (canonicalOrder env.toCaseFolding validTiers).filter _ :=
        heligible ▸ List.mem_cons_self
      obtain ⟨hordered, hcondition⟩ := List.mem_filter.1 hfirst
      refine ⟨first, rfl, mem_canonicalOrder.1 hordered, sortKey_le_of_reaches hmin ?_⟩
      obtain ⟨position, hposition, hall⟩ := (Option.any_eq_true _ _).1 hcondition
      exact ⟨position, hposition, by simpa [Option.all_eq_true] using hall⟩
    · rename_i hnil
      rw [hnil] at helig
      cases helig

theorem sortKey_le_floor {materialTokens contextWindowTokens : Int} {minTier : Str}
    (hcanonical : Canonical env.toCaseFolding validTiers) (htier : tier ∈ validTiers)
    (hlarge : largeContextMinTier env materialTokens contextWindowTokens = some minTier)
    (hmin : minTier ∈ textTiers)
    (h : ∃ tier ∈ validTiers, Reaches env.toCaseFolding minTier tier) :
    sortKey env.toCaseFolding minTier ≤ sortKey env.toCaseFolding
      ((floorTier env validTiers tier materialTokens contextWindowTokens).getD tier) := by
  obtain ⟨least, hleast, hvalid, hkey⟩ := exists_validMinTier hmin h
  unfold floorTier
  rw [if_neg (not_not.2 htier), hlarge, Option.bind_some, hleast]
  by_cases hrank : rank env.toCaseFolding validTiers tier < rank env.toCaseFolding validTiers least
  · rw [Option.filter_some, if_pos (decide_eq_true hrank)]
    exact hkey
  · rw [Option.filter_some, if_neg (by simpa using hrank), Option.getD_none]
    exact hkey.trans (sortKey_le_of_rank_le (hcanonical _ hvalid) (hcanonical _ htier) (by omega))

theorem mem_textTiers_of_largeContextMinTier {materialTokens contextWindowTokens : Int}
    {minTier : Str} (h : largeContextMinTier env materialTokens contextWindowTokens = some minTier) :
    minTier ∈ textTiers := by
  unfold largeContextMinTier at h
  split at h
  · exact Option.some.inj h ▸ by decide
  · split at h
    · exact Option.some.inj h ▸ by decide
    · cases h

theorem capTarget_spec {budget : BudgetGateInput F}
    (h : capTarget env validTiers tier budget = some tier') :
    tier' ∈ validTiers ∧
      rank env.toCaseFolding validTiers tier' < rank env.toCaseFolding validTiers tier ∧
      budget.capTier.bind (normalizeTextTier env.toCaseFolding) = some tier' := by
  unfold capTarget at h
  split at h
  · obtain ⟨htarget, hcondition⟩ := Option.filter_eq_some_iff.1 h
    obtain ⟨hvalid, hrank⟩ := of_decide_eq_true hcondition
    obtain ⟨cap, hcap, hnormal⟩ := Option.bind_eq_some_iff.1 htarget
    refine ⟨hvalid, hrank, ?_⟩
    rw [(Option.filter_eq_some_iff.1 hcap).1]
    exact hnormal
  · cases h

end Valid

/-! ### The previous tier -/

theorem previousFinalTier_ne_nil {F : Type} {env : Env F} {entry : Option (HistoryEntry F)}
    {tier : Str} (h : previousFinalTier env entry = some tier) : tier ≠ [] := by
  have htexts : ∀ name ∈ textTiers, name ≠ [] := by decide
  obtain ⟨entry, -, h⟩ := Option.bind_eq_some_iff.1 h
  split at h
  · rename_i final hfinal
    obtain rfl := Option.some.inj h
    unfold normalTier
    cases hnormal : normalizeTextTier env.toCaseFolding final with
    | none => simpa using (Option.filter_eq_some_iff.1 hfinal).2
    | some normal => exact htexts normal (mem_textTiers_of_normalizeTextTier hnormal)
  · obtain ⟨name, -, hlookup⟩ := Option.bind_eq_some_iff.1 h
    obtain ⟨before, after, hsplit, -⟩ := List.lookup_eq_some_iff.1 hlookup
    have hmem : (name, tier) ∈ routeClassToTier := by
      rw [hsplit]
      exact List.mem_append_right _ List.mem_cons_self
    have hmem := (List.of_mem_zip hmem).2
    exact htexts tier (List.mem_of_mem_take hmem)

/-! ### The tiers that a run binds -/

section Runs

variable {F : Type} (env : Env F) (inputs : PolicyInputs F)

def historyTier : Str := (historyStages env inputs).capability.tier

def floor? : Option Str :=
  floorTier env inputs.validTiers (historyTier env inputs) inputs.materialEstimatedTokens
    inputs.contextWindowTokens

def settledTier : Str := (floor? env inputs).getD (historyTier env inputs)

def budget? : Option (BudgetGateResult F) :=
  inputs.budget.map fun budget => budgetGate env inputs.validTiers (settledTier env inputs) budget

def cap? : Option Str := ((budget? env inputs).filter (·.outcome = .cap)).map (·.tier)

def boundTiers : List Str :=
  historyTier env inputs :: ((floor? env inputs).toList ++ (cap? env inputs).toList)

def boundModel (model tier : Str) : Str := ((inputs.tiers tier).bind (·.model)).getD model

/-- What the policy is given in its routing step: valid tiers that are distinct and configured, a
classified tier that normalizes to a valid one, and a turn with routing facts. -/
structure Routable (extra : Dict) : Prop where
  distinct : inputs.validTiers.Nodup
  configured : ∀ tier ∈ inputs.validTiers, (inputs.tiers tier).isSome
  classified : normalTier env.toCaseFolding inputs.decision.tier ∈ inputs.validTiers
  history : inputs.historyStrategy = true
  facts : inputs.extra = some extra

variable {env inputs} {extra : Dict}

theorem Routable.baseTier (h : Routable env inputs extra) :
    Ranked env.toCaseFolding inputs.validTiers (historyStages env inputs).baseTier where
  valid := h.classified
  normal := by
    change normalTier env.toCaseFolding (normalTier env.toCaseFolding inputs.decision.tier) ∈ _
    rw [normalTier_normalTier]
    exact h.classified

theorem Routable.downgrade_mem (h : Routable env inputs extra) :
    (historyStages env inputs).downgrade.tier ∈ inputs.validTiers :=
  antiDowngrade_mem _ (complaintUpgrade_mem _ _ (ranked_confidenceGate _ _ h.baseTier))

theorem Routable.historyTier_mem (h : Routable env inputs extra) :
    historyTier env inputs ∈ inputs.validTiers :=
  capabilityGate_mem h.distinct h.downgrade_mem _ _ _

theorem Routable.settledTier_mem (h : Routable env inputs extra) :
    settledTier env inputs ∈ inputs.validTiers := by
  unfold settledTier
  cases hfloor : floor? env inputs with
  | none => exact h.historyTier_mem
  | some minTier => exact (floorTier_mem hfloor).1

theorem Routable.previous_le (h : Routable env inputs extra)
    (hcanonical : Canonical env.toCaseFolding inputs.validTiers)
    (henabled : inputs.routerCfg.kvCacheAntiDowngradeEnabled.getD true = true) {previous : Str}
    (hprevious : previousTier env inputs = some previous) (hvalid : previous ∈ inputs.validTiers) :
    rank env.toCaseFolding inputs.validTiers previous ≤
      rank env.toCaseFolding inputs.validTiers (settledTier env inputs) := by
  have hheld : rank env.toCaseFolding inputs.validTiers previous ≤
      rank env.toCaseFolding inputs.validTiers (historyStages env inputs).downgrade.tier := by
    unfold historyStages
    dsimp only
    rw [hprevious]
    exact rank_le_antiDowngrade (previousFinalTier_ne_nil hprevious) hcanonical henabled hvalid
      (complaintUpgrade_mem _ _ (ranked_confidenceGate _ _ h.baseTier))
  have hgate : rank env.toCaseFolding inputs.validTiers (historyStages env inputs).downgrade.tier ≤
      rank env.toCaseFolding inputs.validTiers (historyTier env inputs) :=
    rank_le_capabilityGate h.distinct hcanonical _ _ _
  unfold settledTier
  cases hfloor : floor? env inputs with
  | none => exact hheld.trans hgate
  | some minTier => exact (hheld.trans hgate).trans (floorTier_mem hfloor).2.le

theorem Routable.largeContext_le (h : Routable env inputs extra)
    (hcanonical : Canonical env.toCaseFolding inputs.validTiers) {minTier : Str}
    (hlarge : largeContextMinTier env inputs.materialEstimatedTokens inputs.contextWindowTokens =
      some minTier)
    (hreaches : ∃ tier ∈ inputs.validTiers, Reaches env.toCaseFolding minTier tier) :
    sortKey env.toCaseFolding minTier ≤ sortKey env.toCaseFolding (settledTier env inputs) :=
  sortKey_le_floor hcanonical h.historyTier_mem hlarge
    (mem_textTiers_of_largeContextMinTier hlarge) hreaches

theorem cap?_spec {target : Str} (h : cap? env inputs = some target) :
    target ∈ inputs.validTiers ∧
      rank env.toCaseFolding inputs.validTiers target <
        rank env.toCaseFolding inputs.validTiers (settledTier env inputs) ∧
      ∃ budget, inputs.budget = some budget ∧
        budget.capTier.bind (normalizeTextTier env.toCaseFolding) = some target := by
  unfold cap? budget? at h
  obtain ⟨result, hresult, rfl⟩ := Option.map_eq_some_iff.1 h
  obtain ⟨hgate, houtcome⟩ := Option.filter_eq_some_iff.1 hresult
  obtain ⟨budget, hbudget, rfl⟩ := Option.map_eq_some_iff.1 hgate
  have houtcome := of_decide_eq_true houtcome
  unfold budgetGate at houtcome ⊢
  split at houtcome
  · cases houtcome
  · dsimp only at houtcome ⊢
    split at houtcome
    · cases houtcome
    · rename_i hover
      rw [if_neg hover]
      cases htarget : capTarget env inputs.validTiers (settledTier env inputs) budget with
      | none => simp [htarget] at houtcome
      | some target =>
          obtain ⟨hvalid, hrank, hcap⟩ := capTarget_spec htarget
          exact ⟨hvalid, hrank, budget, hbudget, hcap⟩

/-! ### The run -/

/-- A decision for a tier with its model, and the routing facts that name the tier. -/
structure Holds (w : Working F) (tier model : Str) : Prop where
  bound : w.decision.tier = tier
  model : w.decision.model = model
  facts : ∃ extra, w.extra = some extra ∧ extra.get "final_tier" = .str tier

theorem rebind_ok {decision : RoutingDecision F} {tier source : Str}
    (h : (inputs.tiers tier).isSome) :
    rebind inputs.tiers decision tier source =
      .ok ⟨tier, boundModel inputs decision.model tier, decision.confidence, source⟩ := by
  obtain ⟨entry, hentry⟩ := Option.isSome_iff_exists.1 h
  unfold rebind boundModel
  rw [hentry]
  rfl

theorem finalTier_reconcileController {thinkingMode promptPolicy : Option Str} :
    (reconcileController env thinkingMode promptPolicy extra).extra.get "final_tier" =
      extra.get "final_tier" := by
  unfold reconcileController
  dsimp only
  split
  · rfl
  · split
    · rw [Dict.get_set_ne (by decide), Dict.get_set_ne (by decide), Dict.get_set_ne (by decide),
        Dict.get_setDefault_ne (by decide), Dict.get_setDefault_ne (by decide)]
    · exact Dict.get_setDefault_ne (by decide)

theorem finalTier_boundFields {h : History F} :
    (extra.merge (boundFields env inputs h)).get "final_tier" = .str h.capability.tier := by
  change (extra.merge ((boundFields env inputs h).take 5 ++
    ("final_tier".toList, .str h.capability.tier) :: (boundFields env inputs h).drop 6)).get _ = _
  refine Dict.get_merge_append ?_
  change _ ∉ ["final_route_class".toList, "complaint_detected".toList, "complaint_terms".toList,
    "complaint_upgrade_applied".toList, "complaint_upgrade_steps".toList,
    "complaint_upgrade_max_chars".toList, "anti_downgrade_applied".toList, "previous_tier".toList,
    "previous_route_class".toList, "kv_cache_window_seconds".toList]
  decide

theorem Routable.finalize (h : Routable env inputs extra) :
    ∃ decision facts, finalize env inputs extra = .ok (decision, facts) ∧
      decision.tier = historyTier env inputs ∧
      decision.model = boundModel inputs inputs.decision.model (historyTier env inputs) ∧
      facts.get "final_tier" = .str (historyTier env inputs) := by
  have hrebind : rebind inputs.tiers inputs.decision (historyStages env inputs).capability.tier
      inputs.decision.source = _ :=
    rebind_ok (h.configured _ h.historyTier_mem)
  unfold Routing.finalize
  dsimp only
  rw [hrebind]
  exact ⟨_, _, rfl, rfl, rfl, finalTier_boundFields⟩

theorem Routable.runHistory (h : Routable env inputs extra) :
    ∃ w thinkingMode promptPolicy,
      runHistory env inputs = .ok (w, thinkingMode, promptPolicy) ∧
      Holds w (historyTier env inputs)
        (boundModel inputs inputs.decision.model (historyTier env inputs)) := by
  obtain ⟨decision, facts, hfinalize, htier, hmodel, hfinal⟩ := h.finalize
  unfold Routing.runHistory
  rw [h.history, h.facts]
  dsimp only
  rw [hfinalize]
  refine ⟨_, _, _, rfl, htier, hmodel, _, rfl, ?_⟩
  rw [finalTier_reconcileController]
  exact hfinal

theorem Holds.largeContextFloor {w : Working F} {tier model : Str} (h : Holds w tier model)
    (hconfigured : ∀ tier ∈ inputs.validTiers, (inputs.tiers tier).isSome) :
    ∃ w', largeContextFloor env inputs w = .ok w' ∧
      Holds w' ((floorTier env inputs.validTiers tier inputs.materialEstimatedTokens
          inputs.contextWindowTokens).getD tier)
        ((floorTier env inputs.validTiers tier inputs.materialEstimatedTokens
          inputs.contextWindowTokens).toList.foldl (boundModel inputs) model) := by
  obtain ⟨rfl, rfl, facts, hfacts, hfinal⟩ := h
  unfold Routing.largeContextFloor
  dsimp only
  cases hfloor : floorTier env inputs.validTiers w.decision.tier inputs.materialEstimatedTokens
      inputs.contextWindowTokens with
  | none => exact ⟨w, rfl, rfl, rfl, facts, hfacts, hfinal⟩
  | some minTier =>
      dsimp only
      rw [rebind_ok (hconfigured _ (floorTier_mem hfloor).1), hfacts]
      refine ⟨_, rfl, rfl, rfl, _, rfl, ?_⟩
      change (Dict.merge _ ([("large_context_floor_applied".toList, .bool true),
        ("large_context_floor_from_tier".toList, .str w.decision.tier),
        ("large_context_floor_min_tier".toList, .str minTier),
        ("large_context_material_tokens".toList, env.int inputs.materialEstimatedTokens),
        ("large_context_pre_floor_source".toList, .str w.decision.source)] ++
          ("final_tier".toList, .str minTier) ::
            [("final_route_class".toList, _)])).get "final_tier" = _
      refine Dict.get_merge_append ?_
      change _ ∉ ["final_route_class".toList]
      decide

theorem Holds.reconcileFloored {w : Working F} {tier model : Str} (h : Holds w tier model)
    (thinkingMode promptPolicy : Option Str) :
    Holds (reconcileFloored env w thinkingMode promptPolicy).1 tier model := by
  obtain ⟨htier, hmodel, facts, hfacts, hfinal⟩ := h
  unfold Routing.reconcileFloored
  rw [hfacts]
  dsimp only
  split
  · refine ⟨htier, hmodel, _, rfl, ?_⟩
    rw [finalTier_reconcileController]
    exact hfinal
  · exact ⟨htier, hmodel, facts, hfacts, hfinal⟩

theorem finalTier_appendTrail {entries : List Dict} :
    (appendTrail extra entries).get "final_tier" = extra.get "final_tier" := by
  unfold appendTrail
  rw [Dict.get_update_ne (by decide), Dict.get_setDefault_ne (by decide)]

theorem finalTier_recordBudgetGateTrail {result : BudgetGateResult F} :
    (recordBudgetGateTrail env extra result).get "final_tier" = extra.get "final_tier" := by
  unfold recordBudgetGateTrail
  dsimp only
  rw [Dict.get_set_ne (by decide), Dict.get_set_ne (by decide), finalTier_appendTrail]

theorem Holds.recorded {w : Working F} {tier model : Str} (h : Holds w tier model) (env : Env F)
    (result : BudgetGateResult F) (metadata : Dict) :
    Holds { w with
      extra := w.extra.map fun extra => recordBudgetGateTrail env extra result
      metadata := metadata } tier model := by
  obtain ⟨htier, hmodel, facts, hfacts, hfinal⟩ := h
  refine ⟨htier, hmodel, _, congrArg (Option.map _) hfacts, ?_⟩
  rw [finalTier_recordBudgetGateTrail]
  exact hfinal

theorem Holds.runBudget {w : Working F} {model : Str}
    (h : Holds w (settledTier env inputs) model)
    (hconfigured : ∀ tier ∈ inputs.validTiers, (inputs.tiers tier).isSome) :
    ∃ w', runBudget env inputs w = .ok w' ∧
      Holds w' ((cap? env inputs).getD (settledTier env inputs))
        ((cap? env inputs).toList.foldl (boundModel inputs) model) := by
  have hvalid : ∀ target, cap? env inputs = some target → target ∈ inputs.validTiers :=
    fun target htarget => (cap?_spec htarget).1
  unfold Routing.runBudget
  unfold cap? budget? at hvalid ⊢
  cases hbudget : inputs.budget with
  | none => exact ⟨w, rfl, h⟩
  | some budget =>
      rw [hbudget] at hvalid
      dsimp only
      rw [h.bound]
      rw [Option.map_some] at hvalid ⊢
      generalize budgetGate env inputs.validTiers (settledTier env inputs) budget = result
        at hvalid ⊢
      have hrecorded := h.recorded env result
        (w.metadata.merge (budgetMetadata env result))
      have hnone : result.outcome ≠ .cap →
          ((some result).filter (·.outcome = .cap)).map (·.tier) = none := by
        intro houtcome
        simp [Option.filter_some, houtcome]
      unfold applyBudgetGate
      dsimp only
      cases houtcome : result.outcome with
      | suspended =>
          rw [hnone (by simp [houtcome])]
          exact ⟨w, rfl, h⟩
      | underLimit =>
          rw [hnone (by simp [houtcome])]
          exact ⟨w, rfl, h⟩
      | warn =>
          rw [hnone (by simp [houtcome])]
          exact ⟨_, rfl, hrecorded⟩
      | cap =>
          have hcap : ((some result).filter (·.outcome = .cap)).map (·.tier) = some result.tier := by
            simp [Option.filter_some, houtcome]
          rw [hcap] at hvalid ⊢
          have hmem := hvalid result.tier rfl
          dsimp only
          rw [rebind_ok (hconfigured _ hmem)]
          obtain ⟨-, -, facts, hfacts, -⟩ := hrecorded
          dsimp only at hfacts
          rw [hfacts, ← h.model]
          refine ⟨_, rfl, rfl, rfl, _, rfl, ?_⟩
          rw [Dict.get_set_ne (by decide)]
          exact Dict.get_set_self

theorem Routable.run (h : Routable env inputs extra) :
    ∃ result facts, run env inputs = .ok result ∧ result.extra = some facts ∧
      result.decision.tier = (cap? env inputs).getD (settledTier env inputs) ∧
      result.decision.model =
        (boundTiers env inputs).foldl (boundModel inputs) inputs.decision.model ∧
      facts.get "final_tier" = .str result.decision.tier := by
  obtain ⟨working, thinkingMode, promptPolicy, hhistory, hworking⟩ := h.runHistory
  obtain ⟨floored, hfloor, hfloored⟩ := hworking.largeContextFloor h.configured
  obtain ⟨final, hbudget, hfinal⟩ :=
    (hfloored.reconcileFloored thinkingMode promptPolicy).runBudget h.configured
  obtain ⟨htier, hmodel, facts, hfacts, hname⟩ := hfinal
  have hrun : Routing.run env inputs = .ok
      { decision := final.decision
        thinkingMode := (reconcileFloored env floored thinkingMode promptPolicy).2.1
        promptPolicy := (reconcileFloored env floored thinkingMode promptPolicy).2.2
        metadataUpdates := final.metadata
        extra := final.extra } := by
    unfold Routing.run
    rw [hhistory]
    change (Routing.largeContextFloor env inputs working >>= _) = _
    rw [hfloor]
    change (Routing.runBudget env inputs (reconcileFloored env floored thinkingMode promptPolicy).1 >>=
      _) = _
    rw [hbudget]
    rfl
  refine ⟨_, facts, hrun, hfacts, htier, ?_, ?_⟩
  · rw [boundTiers, List.foldl_cons, List.foldl_append]
    exact hmodel
  · rw [htier]
    exact hname

end Runs

/-! ### The declared order -/

/-- Two declarations of the same tiers, as far as the policy ranks them. -/
structure SameTiers (folding : CaseFolding) (validTiers validTiers' : List Str) : Prop where
  order : canonicalOrder folding validTiers' = canonicalOrder folding validTiers
  mem : ∀ tier, tier ∈ validTiers' ↔ tier ∈ validTiers

theorem sameTiers_of_perm {folding : CaseFolding} {validTiers validTiers' : List Str}
    (hperm : validTiers'.Perm validTiers) (hknown : ∀ tier ∈ validTiers, tier ∈ textTiers) :
    SameTiers folding validTiers validTiers' where
  order := by
    have hboth : (canonicalOrder folding validTiers').Perm (canonicalOrder folding validTiers) :=
      perm_canonicalOrder.trans (hperm.trans perm_canonicalOrder.symm)
    refine List.Perm.eq_of_pairwise ?_ pairwise_canonicalOrder pairwise_canonicalOrder hboth
    intro a b ha hb hle hge
    have hmem : ∀ {tier}, tier ∈ canonicalOrder folding validTiers → tier ∈ textTiers :=
      fun htier => hknown _ (mem_canonicalOrder.1 htier)
    have ha := hmem (hboth.subset ha)
    obtain heq | hnone := eq_of_sortKey (normalTier_of_mem ha) (normalTier_of_mem (hmem hb))
      (le_antisymm hle hge)
    · exact heq
    · rw [normalizeTextTier_of_mem (hmem hb)] at hnone
      cases hnone
  mem := fun _ => hperm.mem_iff

section Order

variable {F : Type} {env : Env F} {tiers : Str → Option TierEntry} {validTiers validTiers' : List Str}
  {cfg : RouterConfig F} {tier : Str}

namespace SameTiers

variable (h : SameTiers env.toCaseFolding validTiers validTiers')

include h

theorem rank? : Routing.rank? env.toCaseFolding validTiers' tier =
    Routing.rank? env.toCaseFolding validTiers tier := by
  unfold Routing.rank?
  rw [h.order]

theorem rank : Routing.rank env.toCaseFolding validTiers' tier =
    Routing.rank env.toCaseFolding validTiers tier := by
  unfold Routing.rank
  rw [h.rank?]

theorem upgradeTier {steps : Int} : Routing.upgradeTier env.toCaseFolding validTiers' tier steps =
    Routing.upgradeTier env.toCaseFolding validTiers tier steps := by
  unfold Routing.upgradeTier
  rw [h.rank?, h.order]

theorem gateDefault {defaultTier : Str}
    (hdefault : normalTier env.toCaseFolding defaultTier ∈ validTiers ∨
      defaultTextTier ∈ validTiers) :
    Routing.gateDefault env validTiers' defaultTier =
      Routing.gateDefault env validTiers defaultTier := by
  unfold Routing.gateDefault
  simp only [h.mem]
  by_cases hnormal : normalTier env.toCaseFolding defaultTier ∈ validTiers
  · simp only [hnormal, if_true]
  · simp only [hnormal, hdefault.resolve_left hnormal, if_true, if_false]

theorem confidenceGate {confidence : F} {calibration : Option (CalibrationState F)}
    (hdefault : ∀ defaultTier ∈ cfg.defaultTier,
      normalTier env.toCaseFolding defaultTier ∈ validTiers ∨ defaultTextTier ∈ validTiers) :
    Routing.confidenceGate env tiers validTiers' cfg tier confidence calibration =
      Routing.confidenceGate env tiers validTiers cfg tier confidence calibration := by
  have hgate : cfg.defaultTier.bind (Routing.gateDefault env validTiers') =
      cfg.defaultTier.bind (Routing.gateDefault env validTiers) := by
    cases hconfigured : cfg.defaultTier with
    | none => rfl
    | some defaultTier => exact h.gateDefault (hdefault defaultTier hconfigured)
  unfold Routing.confidenceGate
  rw [hgate]
  simp only [h.rank]

theorem raisedStart {other : Option Str} : Routing.raisedStart env validTiers' tier other =
    Routing.raisedStart env validTiers tier other := by
  unfold Routing.raisedStart
  simp only [h.mem, h.rank]

theorem complaintUpgrade {message preConfidenceTier : Str} {previousTier : Option Str} :
    Routing.complaintUpgrade env validTiers' cfg tier message preConfidenceTier previousTier =
      Routing.complaintUpgrade env validTiers cfg tier message preConfidenceTier previousTier := by
  unfold Routing.complaintUpgrade
  simp only [h.raisedStart, h.upgradeTier]

theorem antiDowngrade {previousTier : Option Str} :
    Routing.antiDowngrade env validTiers' cfg tier previousTier =
      Routing.antiDowngrade env validTiers cfg tier previousTier := by
  unfold Routing.antiDowngrade
  simp only [h.mem, h.rank]

theorem capabilityGate {capabilities : List (Str × TierCapability)} {turnHasImage : Bool}
    {materialTokens : Int} :
    Routing.capabilityGate env validTiers' tier capabilities turnHasImage materialTokens =
      Routing.capabilityGate env validTiers tier capabilities turnHasImage materialTokens := by
  unfold Routing.capabilityGate
  rw [h.rank?, h.order]

theorem floorTier {materialTokens contextWindowTokens : Int} :
    Routing.floorTier env validTiers' tier materialTokens contextWindowTokens =
      Routing.floorTier env validTiers tier materialTokens contextWindowTokens := by
  have hmin : Routing.validMinTier env validTiers' = Routing.validMinTier env validTiers := by
    funext minTier
    unfold Routing.validMinTier
    simp only [h.mem, h.order]
  unfold Routing.floorTier
  simp only [h.mem, h.rank, hmin]

theorem budgetGate {budget : BudgetGateInput F} :
    Routing.budgetGate env validTiers' tier budget =
      Routing.budgetGate env validTiers tier budget := by
  have hcap : Routing.capTarget env validTiers' tier budget =
      Routing.capTarget env validTiers tier budget := by
    unfold Routing.capTarget
    simp only [h.mem, h.rank]
  unfold Routing.budgetGate
  rw [hcap]

end SameTiers

theorem run_sameTiers {inputs : PolicyInputs F} {declared : List Str}
    (h : SameTiers env.toCaseFolding inputs.validTiers declared)
    (hdefault : ∀ defaultTier ∈ inputs.routerCfg.defaultTier,
      normalTier env.toCaseFolding defaultTier ∈ inputs.validTiers ∨
        defaultTextTier ∈ inputs.validTiers) :
    run env { inputs with validTiers := declared } = run env inputs := by
  have hstages : historyStages env { inputs with validTiers := declared } =
      historyStages env inputs := by
    unfold historyStages
    dsimp only
    rw [h.confidenceGate hdefault]
    simp only [h.complaintUpgrade, h.antiDowngrade, h.capabilityGate]
    rfl
  have hhistory : runHistory env { inputs with validTiers := declared } = runHistory env inputs := by
    unfold runHistory finalize
    rw [hstages]
    rfl
  have hfloor : largeContextFloor env { inputs with validTiers := declared } =
      largeContextFloor env inputs := by
    funext w
    unfold largeContextFloor
    dsimp only
    rw [h.floorTier]
  have hbudget : runBudget env { inputs with validTiers := declared } = runBudget env inputs := by
    funext w
    unfold runBudget
    dsimp only
    simp only [h.budgetGate]
    rfl
  unfold run
  rw [hhistory, hfloor, hbudget]

end Order

/-! ### The end of a run -/

section Result

variable {F : Type} (env : Env F) (inputs : PolicyInputs F)

/-- What a run ends with. The model is the last one that was configured for a tier it was bound to,
or the classifier's. -/
structure EndState (result : PolicyResult F) : Prop where
  valid : result.decision.tier ∈ inputs.validTiers
  facts : ∃ extra, result.extra = some extra ∧
    extra.get "final_tier" = .str result.decision.tier
  bound : (boundTiers env inputs).getLast? = some result.decision.tier
  model : result.decision.model =
    (boundTiers env inputs).foldl (boundModel inputs) inputs.decision.model
  configured : ∀ model, (inputs.tiers result.decision.tier).bind (·.model) = some model →
    result.decision.model = model
  /-- Without a cap the ladder is not left below the previous tier and the large-context minimum. -/
  uncapped : cap? env inputs = none → Canonical env.toCaseFolding inputs.validTiers →
    (inputs.routerCfg.kvCacheAntiDowngradeEnabled.getD true = true →
      ∀ previous, previousTier env inputs = some previous → previous ∈ inputs.validTiers →
        rank env.toCaseFolding inputs.validTiers previous ≤
          rank env.toCaseFolding inputs.validTiers result.decision.tier) ∧
    ∀ minTier, largeContextMinTier env inputs.materialEstimatedTokens inputs.contextWindowTokens =
        some minTier →
      (∃ tier ∈ inputs.validTiers, Reaches env.toCaseFolding minTier tier) →
        sortKey env.toCaseFolding minTier ≤ sortKey env.toCaseFolding result.decision.tier
  capped : ∀ target, cap? env inputs = some target → result.decision.tier = target ∧
    rank env.toCaseFolding inputs.validTiers target <
      rank env.toCaseFolding inputs.validTiers (settledTier env inputs) ∧
    ∃ budget, inputs.budget = some budget ∧
      budget.capTier.bind (normalizeTextTier env.toCaseFolding) = some target
  declared : ∀ declared, declared.Perm inputs.validTiers →
    (∀ tier ∈ inputs.validTiers, tier ∈ textTiers) →
    (∀ defaultTier ∈ inputs.routerCfg.defaultTier,
      normalTier env.toCaseFolding defaultTier ∈ inputs.validTiers ∨
        defaultTextTier ∈ inputs.validTiers) →
    run env { inputs with validTiers := declared } = .ok result

variable {env inputs}

theorem getLast?_boundTiers : (boundTiers env inputs).getLast? =
    some ((cap? env inputs).getD (settledTier env inputs)) := by
  unfold boundTiers settledTier
  cases cap? env inputs <;> cases floor? env inputs <;> rfl

theorem foldl_boundModel {bound : List Str} {tier model model' : Str}
    (hlast : bound.getLast? = some tier) (hmodel : (inputs.tiers tier).bind (·.model) = some model) :
    bound.foldl (boundModel inputs) model' = model := by
  obtain ⟨before, rfl⟩ := List.getLast?_eq_some_iff.1 hlast
  rw [List.foldl_append, List.foldl_cons, List.foldl_nil, boundModel, hmodel]
  rfl

theorem routing_policy_end_state {extra : Dict} (h : Routable env inputs extra) :
    ∃ result, run env inputs = .ok result ∧ EndState env inputs result := by
  obtain ⟨result, facts, hrun, hfacts, htier, hmodel, hfinal⟩ := h.run
  have hlast : (boundTiers env inputs).getLast? = some result.decision.tier := by
    rw [htier]
    exact getLast?_boundTiers
  refine ⟨result, hrun, ?_, ⟨facts, hfacts, hfinal⟩, hlast, hmodel, ?_, ?_, ?_, ?_⟩
  · rw [htier]
    cases hcap : cap? env inputs with
    | none => exact h.settledTier_mem
    | some target => exact (cap?_spec hcap).1
  · intro model hconfigured
    rw [hmodel]
    exact foldl_boundModel hlast hconfigured
  · intro hcap hcanonical
    rw [htier, hcap, Option.getD_none]
    exact ⟨fun henabled previous hprevious hvalid =>
        h.previous_le hcanonical henabled hprevious hvalid,
      fun minTier hlarge hreaches => h.largeContext_le hcanonical hlarge hreaches⟩
  · intro target hcap
    rw [htier, hcap]
    exact ⟨rfl, (cap?_spec hcap).2⟩
  · intro declared hperm hknown hdefault
    rw [run_sameTiers (sameTiers_of_perm hperm hknown) hdefault]
    exact hrun

end Result

/-! ### Runs that end elsewhere -/

def hundredths : Env Int where
  lower := List.map Char.toLower
  lower_ascii := Lib.Text.map_toLower_ascii
  literal text :=
    if text = "0.5" then 50 else if text = "0.05" then 5 else if text = "600" then 60000 else 0
  add := (· + ·)
  sub := (· - ·)
  lt a b := decide (a < b)
  le a b := decide (a ≤ b)
  eq a b := decide (a = b)
  num _ := .null
  int _ := .null
  str
    | .str s => s
    | _ => []
  largeContextShare tokens := tokens * 2 / 5

def tierTable (entries : List (Str × TierEntry)) (tier : Str) : Option TierEntry :=
  entries.lookup tier

/-- A turn with much material; only the tier c1 has a model of its own. -/
def largeTurn : PolicyInputs Int where
  decision := ⟨"c1".toList, "classifier".toList, 90, "v4_phase3".toList⟩
  message := "hello".toList
  routerCfg := ⟨none, none, some "c1".toList, none, none, none, none, none⟩
  tiers := tierTable [("c1".toList, ⟨some "small".toList, false⟩), ("c3".toList, ⟨none, false⟩)]
  validTiers := ["c1".toList, "c3".toList]
  routingHistory := []
  extra := some []
  thinkingMode := none
  promptPolicy := none
  historyStrategy := true
  materialEstimatedTokens := 90000
  contextWindowTokens := 200000
  now := 0
  turnHasImage := false
  tierCapabilities := []
  calibration := none
  budget := none

def doubtfulTurn (validTiers : List Str) : PolicyInputs Int :=
  { largeTurn with
    decision := ⟨"c3".toList, "classifier".toList, 10, "v4_phase3".toList⟩
    tiers := tierTable [("c2".toList, ⟨none, false⟩), ("c3".toList, ⟨none, false⟩)]
    validTiers := validTiers
    materialEstimatedTokens := 10 }

def ended (inputs : PolicyInputs Int) : Option (Str × Str) :=
  (run hundredths inputs).toOption.map fun result => (result.decision.tier, result.decision.model)

theorem routable_largeTurn : Routable hundredths largeTurn [] :=
  ⟨by decide, by decide, by decide, rfl, rfl⟩

theorem large_turn_end_state :
    ∃ result, run hundredths largeTurn = .ok result ∧ EndState hundredths largeTurn result :=
  routing_policy_end_state routable_largeTurn

/-- A floored decision without a model of its own keeps the model of the tier it comes from, the
fallback of the confidence gate is the tier declared first, a tier under a legacy name is not
floored to, and without routing facts the classified tier is not normalized. -/
theorem end_state_of_other_turns :
    (¬ ∀ result, run hundredths largeTurn = .ok result →
      result.decision.model = ((largeTurn.tiers result.decision.tier).bind (·.model)).getD
        largeTurn.decision.model) ∧
    (ended (doubtfulTurn ["c2".toList, "c3".toList]) = some ("c2".toList, "classifier".toList) ∧
      ended (doubtfulTurn ["c3".toList, "c2".toList]) = some ("c3".toList, "classifier".toList)) ∧
    ended { largeTurn with
      tiers := tierTable [("c1".toList, ⟨none, false⟩), ("t3".toList, ⟨none, false⟩)]
      validTiers := ["c1".toList, "t3".toList] } = some ("c1".toList, "classifier".toList) ∧
    ended { largeTurn with
      decision := ⟨"T1".toList, "classifier".toList, 90, "v4_phase3".toList⟩
      extra := none } = some ("T1".toList, "classifier".toList) := by
  refine ⟨?_, by decide +kernel, by decide +kernel, by decide +kernel⟩
  intro hall
  have hended : ended largeTurn = some ("c3".toList, "small".toList) := by decide +kernel
  obtain ⟨result, hresult, hvalues⟩ := Option.map_eq_some_iff.1 hended
  have hmodel := hall result (toOption_eq_some.1 hresult)
  obtain ⟨htier, hsmall⟩ := Prod.mk.inj hvalues
  rw [htier, hsmall] at hmodel
  exact absurd hmodel (by decide)

end OpenStarry.Routing
