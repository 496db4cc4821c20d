import OpenStarry.Routing.Stages

/-!
# The routing policy engine

The stages in their order, with the dict of the turn's routing facts that they write and the updates
of its metadata.
-/

namespace OpenStarry.Routing

open Lib Text

structure PolicyInputs (F : Type) where
  decision : RoutingDecision F
  message : Str
  routerCfg : RouterConfig F
  tiers : Str → Option TierEntry
  validTiers : List Str
  routingHistory : List (HistoryEntry F)
  extra : Option Dict
  thinkingMode : Option Str
  promptPolicy : Option Str
  historyStrategy : Bool
  materialEstimatedTokens : Int
  contextWindowTokens : Int
  now : F
  turnHasImage : Bool
  tierCapabilities : List (Str × TierCapability)
  calibration : Option (CalibrationState F)
  budget : Option (BudgetGateInput F)

/-- What a run returns, with the routing facts as they are then. -/
structure PolicyResult (F : Type) where
  decision : RoutingDecision F
  thinkingMode : Option Str
  promptPolicy : Option Str
  metadataUpdates : Dict
  extra : Option Dict

section Engine

variable {F : Type} (env : Env F) (inputs : PolicyInputs F)

def text (value : Option Str) : Json := value.elim .null .str

/-- `normalize_text_tier(value) or value` on a value of a dict. -/
def normalValue (value : Json) : Json :=
  if value = .null then .null
  else (normalizeTextTier env.toCaseFolding (env.str value)).elim value .str

/-- `trail.setdefault("routing_trail", [])`, and what is appended to it. -/
def appendTrail (extra : Dict) (entries : List Dict) : Dict :=
  Dict.update "routing_trail" (Json.mapArr (· ++ entries.map .obj))
    (extra.setDefault "routing_trail" (.arr []))

def CapabilityRule.value : CapabilityRule → Str
  | .visionWalkUp => "vision_walk_up".toList
  | .contextWalkUp => "context_walk_up".toList

def CapabilityGateAction.trailEntry (action : CapabilityGateAction) : Dict :=
  [("stage".toList, .str "capability_gate".toList), ("rule".toList, .str action.rule.value),
    ("from_tier".toList, .str action.fromTier), ("to_tier".toList, .str action.toTier)]

/-- `record_capability_gate_trail`. -/
def recordCapabilityGateTrail (extra : Dict) (result : CapabilityGateResult) : Dict :=
  if result.actions = [] then extra
  else
    (appendTrail extra (result.actions.map (·.trailEntry))).set "capability_gate_applied" (.bool true)

/-! ### The history stages -/

/-- The stages before the binding, with all that they report. -/
structure History (F : Type) where
  baseTier : Str
  gate : ConfidenceGateResult F
  previousTier : Option Str
  previousRouteClass : Option Str
  complaint : ComplaintUpgradeResult
  downgrade : AntiDowngradeResult
  capability : CapabilityGateResult

def window : F := inputs.routerCfg.kvCacheAntiDowngradeWindowSeconds.getD (env.literal "600")

def previousEntry : Option (HistoryEntry F) :=
  previousFinalEntry env inputs.routingHistory inputs.now (window env inputs)

def previousTier : Option Str := previousFinalTier env (previousEntry env inputs)

def historyStages : History F :=
  let baseTier := normalTier env.toCaseFolding inputs.decision.tier
  let gate := confidenceGate env inputs.tiers inputs.validTiers inputs.routerCfg baseTier
    inputs.decision.confidence inputs.calibration
  let complaint := complaintUpgrade env inputs.validTiers inputs.routerCfg gate.tier inputs.message
    baseTier (previousTier env inputs)
  let downgrade := antiDowngrade env inputs.validTiers inputs.routerCfg complaint.tier
    (previousTier env inputs)
  { baseTier := baseTier
    gate := gate
    previousTier := previousTier env inputs
    previousRouteClass := (previousEntry env inputs).bind (·.class?)
    complaint := complaint
    downgrade := downgrade
    capability := capabilityGate env inputs.validTiers downgrade.tier inputs.tierCapabilities
      inputs.turnHasImage inputs.materialEstimatedTokens }

def withRouteClass (extra : Dict) (baseTier : Str) : Dict :=
  let routeClass := if (extra.get "route_class").truthy then extra.get "route_class"
    else text (routeClassForTier env.toCaseFolding baseTier)
  if routeClass = .null then extra
  else (extra.set "route_class" routeClass).setDefault "top1_label" routeClass

/-- The fields that `bind` writes. -/
def boundFields (h : History F) : Dict :=
  [("base_tier".toList, .str h.baseTier),
    ("pre_confidence_tier".toList, .str (normalTier env.toCaseFolding h.baseTier)),
    ("confidence_threshold".toList, env.num h.gate.threshold),
    ("confidence_default_tier".toList, text h.gate.defaultTier),
    ("confidence_gate_applied".toList, .bool h.gate.applied),
    ("final_tier".toList, .str h.capability.tier),
    ("final_route_class".toList, text (routeClassForTier env.toCaseFolding h.capability.tier)),
    ("complaint_detected".toList, .bool (decide (h.complaint.terms ≠ []))),
    ("complaint_terms".toList, .arr (h.complaint.terms.map .str)),
    ("complaint_upgrade_applied".toList, .bool h.complaint.applied),
    ("complaint_upgrade_steps".toList, env.int h.complaint.steps),
    ("complaint_upgrade_max_chars".toList, env.int h.complaint.maxChars),
    ("anti_downgrade_applied".toList, .bool h.downgrade.applied),
    ("previous_tier".toList, text (h.previousTier.map (normalTier env.toCaseFolding))),
    ("previous_route_class".toList, text h.previousRouteClass),
    ("kv_cache_window_seconds".toList, env.num (window env inputs))]

/-- `_finalize`. -/
def finalize (extra : Dict) : Except RoutingError (RoutingDecision F × Dict) :=
  let h := historyStages env inputs
  let recorded := recordCapabilityGateTrail (withRouteClass env extra h.baseTier) h.capability
  (rebind inputs.tiers inputs.decision h.capability.tier inputs.decision.source).map fun decision =>
    (decision, recorded.merge (boundFields env inputs h))

/-! ### The controller heads -/

def thinkingModeOrder : List (Str × Nat) :=
  [("T0".toList, 0), ("T1".toList, 1), ("T2".toList, 2), ("T3".toList, 3)]

/-- `_min_thinking_mode_for_tier`. -/
def minThinkingModeForTier (tier : Str) : Option Str :=
  match tierIndex env.toCaseFolding tier with
  | none => none
  | some index =>
      if 3 ≤ index then some "T3".toList
      else if index = 2 then some "T2".toList
      else if normalizeTextTier env.toCaseFolding tier = some defaultTextTier then some "T1".toList
      else none

/-- `_promote_thinking_mode`. -/
def promoteThinkingMode (current minimum : Option Str) : Option Str :=
  match minimum with
  | none => current
  | some low =>
      match current.bind fun mode => thinkingModeOrder.lookup mode with
      | none => some low
      | some order => if ∃ least ∈ thinkingModeOrder.lookup low, order < least then some low else current

/-- `normalize_decisions`. -/
def normalizeDecisions (thinkingMode promptPolicy : Str) : Str × Str :=
  if (thinkingMode = "T2".toList ∨ thinkingMode = "T3".toList) ∧ promptPolicy = "P0".toList then
    (thinkingMode, "P1".toList)
  else (thinkingMode, promptPolicy)

/-- What `reconcile_controller_with_final_tier` returns. -/
structure Controller where
  thinkingMode : Option Str
  promptPolicy : Option Str
  extra : Dict

def reconciledHeads (thinkingMode promptPolicy : Option Str) (finalTier : Json)
    (complaintDetected : Bool) : Option Str × Option Str :=
  let thinking := promoteThinkingMode thinkingMode
    (minThinkingModeForTier env (env.str finalTier))
  let prompt := if promptPolicy = some "P0".toList ∧
      ((tierIndex env.toCaseFolding (env.str finalTier)).any (2 ≤ ·) ∨ complaintDetected) then
    some "P1".toList
  else promptPolicy
  match thinking, prompt with
  | some mode, some policy =>
      (some (normalizeDecisions mode policy).1, some (normalizeDecisions mode policy).2)
  | _, _ => (thinking, prompt)

/-- `reconcile_controller_with_final_tier`. -/
def reconcileController (thinkingMode promptPolicy : Option Str) (extra : Dict) : Controller :=
  let finalTier := normalValue env (extra.get "final_tier")
  let baseTier := normalValue env (extra.get "base_tier")
  if finalTier.truthy = false ∨ finalTier = baseTier then ⟨thinkingMode, promptPolicy, extra⟩
  else
    let heads := reconciledHeads env thinkingMode promptPolicy finalTier
      (extra.get "complaint_detected").truthy
    if heads ≠ (thinkingMode, promptPolicy) then
      let kept := (extra.setDefault "base_thinking_mode" (text thinkingMode)).setDefault
        "base_prompt_policy" (text promptPolicy)
      ⟨heads.1, heads.2, ((kept.set "thinking_mode" (text heads.1)).set "prompt_policy"
        (text heads.2)).set "controller_reconciled" (.bool true)⟩
    else ⟨thinkingMode, promptPolicy, extra.setDefault "controller_reconciled" (.bool false)⟩

/-! ### The floor and the cap -/

/-- The decision on its way through the later stages, with what they write. -/
structure Working (F : Type) where
  decision : RoutingDecision F
  extra : Option Dict
  metadata : Dict

/-- `large_context_floor`. -/
def largeContextFloor (w : Working F) : Except RoutingError (Working F) :=
  let tokens := env.int inputs.materialEstimatedTokens
  match floorTier env inputs.validTiers w.decision.tier inputs.materialEstimatedTokens
      inputs.contextWindowTokens with
  | none => .ok w
  | some minTier =>
      (rebind inputs.tiers w.decision minTier "large_context_floor".toList).map fun floored =>
        { decision := floored
          extra := w.extra.map fun extra =>
            (extra.setDefault "base_tier" (.str w.decision.tier)).merge
              [("large_context_floor_applied".toList, .bool true),
                ("large_context_floor_from_tier".toList, .str w.decision.tier),
                ("large_context_floor_min_tier".toList, .str minTier),
                ("large_context_material_tokens".toList, tokens),
                ("large_context_pre_floor_source".toList, .str w.decision.source),
                ("final_tier".toList, .str minTier),
                ("final_route_class".toList, text (routeClassForTier env.toCaseFolding minTier))]
          metadata := w.metadata.merge
            [("large_context_floor_from_tier".toList, .str w.decision.tier),
              ("large_context_material_tokens".toList, tokens)] }

def BudgetOutcome.value : BudgetOutcome → Str
  | .suspended => "suspended".toList
  | .underLimit => "under_limit".toList
  | .warn => "warn".toList
  | .cap => "cap".toList

def amount (value : Option F) : Json := value.elim .null env.num

/-- `record_budget_gate_trail`, for a gate that acted. -/
def recordBudgetGateTrail (extra : Dict) (result : BudgetGateResult F) : Dict :=
  let entry : Dict :=
    [("stage".toList, .str "budget_gate".toList), ("rule".toList, .str result.outcome.value),
      ("spend_usd".toList, amount env result.spendUsd),
      ("limit_usd".toList, env.num result.limitUsd),
      ("spend_source".toList, .str result.spendSource)] ++
    if result.outcome = .cap then
      [("from_tier".toList, .str result.fromTier), ("to_tier".toList, .str result.tier)]
    else []
  ((appendTrail extra [entry]).set "budget_gate_applied" (.bool true)).set "budget_gate_outcome"
    (.str result.outcome.value)

/-- The metadata of a budget gate that acted. -/
def budgetMetadata (result : BudgetGateResult F) : Dict :=
  [("router_budget_applied".toList, .bool true),
    ("router_budget_outcome".toList, .str result.outcome.value),
    ("router_budget_action".toList, .str result.action.value),
    ("router_budget_limit_usd".toList, env.num result.limitUsd),
    ("router_budget_spend_source".toList, .str result.spendSource)] ++
  (result.spendUsd.map fun spend => ("router_budget_spend_usd".toList, env.num spend)).toList ++
  (match result.projectedUsd, result.spendUsd with
    | some projected, some spend =>
        if env.eq projected spend then []
        else [("router_budget_projected_usd".toList, env.num projected)]
    | some projected, none => [("router_budget_projected_usd".toList, env.num projected)]
    | none, _ => [])

/-- `apply_budget_gate`. -/
def applyBudgetGate (w : Working F) (result : BudgetGateResult F) :
    Except RoutingError (Working F) :=
  let acted : Working F :=
    { w with
      extra := w.extra.map fun extra => recordBudgetGateTrail env extra result
      metadata := w.metadata.merge (budgetMetadata env result) }
  match result.outcome with
  | .suspended | .underLimit => .ok w
  | .warn => .ok acted
  | .cap =>
      (rebind inputs.tiers w.decision result.tier "budget_cap".toList).map fun capped =>
        { decision := capped
          extra := acted.extra.map fun extra =>
            (extra.set "final_tier" (.str result.tier)).set "final_route_class"
              (text (routeClassForTier env.toCaseFolding result.tier))
          metadata := acted.metadata.merge
            [("router_budget_from_tier".toList, .str result.fromTier),
              ("router_budget_to_tier".toList, .str result.tier)] }

/-! ### The run -/

/-- The history stages and the first reconciliation, when they apply. -/
def runHistory : Except RoutingError (Working F × Option Str × Option Str) :=
  match inputs.historyStrategy, inputs.extra with
  | true, some extra =>
      (finalize env inputs extra).map fun (decision, extra) =>
        let controller := reconcileController env inputs.thinkingMode inputs.promptPolicy extra
        (⟨decision, some controller.extra, []⟩, controller.thinkingMode, controller.promptPolicy)
  | _, _ => .ok (⟨inputs.decision, inputs.extra, []⟩, inputs.thinkingMode, inputs.promptPolicy)

def reconcileFloored (w : Working F) (thinkingMode promptPolicy : Option Str) :
    Working F × Option Str × Option Str :=
  match w.extra with
  | none => (w, thinkingMode, promptPolicy)
  | some extra =>
      if w.decision.source = "large_context_floor".toList then
        let controller := reconcileController env thinkingMode promptPolicy extra
        ({ w with extra := some controller.extra }, controller.thinkingMode, controller.promptPolicy)
      else (w, thinkingMode, promptPolicy)

def runBudget (w : Working F) : Except RoutingError (Working F) :=
  match inputs.budget with
  | none => .ok w
  | some budget =>
      applyBudgetGate env inputs w (budgetGate env inputs.validTiers w.decision.tier budget)

/-- `RoutingPolicyEngine.run`. -/
def run : Except RoutingError (PolicyResult F) := do
  let (working, thinkingMode, promptPolicy) ← runHistory env inputs
  let floored ← largeContextFloor env inputs working
  let (reconciled, thinkingMode, promptPolicy) := reconcileFloored env floored thinkingMode promptPolicy
  let final ← runBudget env inputs reconciled
  return {
    decision := final.decision
    thinkingMode := thinkingMode
    promptPolicy := promptPolicy
    metadataUpdates := final.metadata
    extra := final.extra }

end Engine

end OpenStarry.Routing
