import OpenStarry.Lib.Dict
import OpenStarry.Lib.Outcome
import OpenStarry.Lib.Substring
import OpenStarry.Routing.Tiers

/-!
# The stages of the routing policy

Each stage takes the working tier or decision and plain data about the turn, and gives the next one
with what it reports. Numbers with a fraction are of a type `F` of their own, and what is computed
with them is a parameter.
-/

namespace OpenStarry.Routing

open Lib Text

/-- Fractional numbers, and how the values of a dict are written and read. -/
structure Env (F : Type) extends CaseFolding where
  literal : String → F
  add : F → F → F
  sub : F → F → F
  lt : F → F → Bool
  le : F → F → Bool
  eq : F → F → Bool
  num : F → Json
  int : Int → Json
  str : Json → Str
  /-- `int(context_window_tokens * LARGE_CONTEXT_T3_CONTEXT_RATIO)`. -/
  largeContextShare : Int → Int

structure RoutingDecision (F : Type) where
  tier : Str
  model : Str
  confidence : F
  source : Str

/-- The fields of a tier entry that the policy reads. -/
structure TierEntry where
  model : Option Str
  imageOnly : Bool

/-- The attributes of the router configuration, each with or without a value of its own. -/
structure RouterConfig (F : Type) where
  confidenceThreshold : Option F
  confidenceHighTierMargin : Option F
  defaultTier : Option Str
  complaintUpgradeSteps : Option Int
  complaintUpgradeMaxChars : Option Int
  complaintUpgradeEnabled : Option Bool
  kvCacheAntiDowngradeEnabled : Option Bool
  kvCacheAntiDowngradeWindowSeconds : Option F

structure CalibrationState (F : Type) where
  perClassBias : Str → Option F
  thresholdAdjust : F

structure HistoryEntry (F : Type) where
  ts : Option F
  finalTier : Option Str
  finalRouteClass : Option Str
  routeClass : Option Str

inductive RoutingError where
  | keyError (tier : Str)

section Stages

variable {F : Type} (env : Env F) (tiers : Str → Option TierEntry) (validTiers : List Str)
  (cfg : RouterConfig F)

/-- `a or b` on texts. -/
def either (a b : Str) : Str := if a = [] then b else a

/-- `tiers[tier].get("model", decision.model)` in a new decision. -/
def rebind (decision : RoutingDecision F) (tier source : Str) :
    Except RoutingError (RoutingDecision F) :=
  (demand (tiers tier) (.keyError tier)).map fun entry =>
    { tier := tier
      model := entry.model.getD decision.model
      confidence := decision.confidence
      source := source }

/-! ### The previous turn -/

/-- `previous_final_entry`: the last entry of the window. -/
def previousFinalEntry (history : List (HistoryEntry F)) (now window : F) :
    Option (HistoryEntry F) :=
  history.reverse.find? fun entry => env.le (env.sub now window) (entry.ts.getD now)

/-- `entry.get("final_route_class") or entry.get("route_class")`. -/
def HistoryEntry.class? (entry : HistoryEntry F) : Option Str :=
  match entry.finalRouteClass with
  | some name => if name = [] then entry.routeClass else some name
  | none => entry.routeClass

/-- `previous_final_tier`. -/
def previousFinalTier (entry : Option (HistoryEntry F)) : Option Str :=
  entry.bind fun entry =>
    match entry.finalTier.filter (· ≠ []) with
    | some tier => some (normalTier env.toCaseFolding tier)
    | none => tierForRouteClass entry.class?

/-! ### Confidence -/

def clamp (value low high : F) : F :=
  let capped := if env.lt value high then value else high
  if env.lt low capped then capped else low

/-- `effective_threshold`. -/
def effectiveThreshold (base : F) (state : Option (CalibrationState F)) : F :=
  state.elim base fun state =>
    clamp env (env.add base state.thresholdAdjust) (env.literal "0.3") (env.literal "0.7")

/-- `apply_bias`. -/
def applyBias (confidence : F) (tier : Str) (state : Option (CalibrationState F)) : F :=
  state.elim confidence fun state =>
    let raw := (state.perClassBias (normalTier env.toCaseFolding tier)).getD (env.literal "0.0")
    let bias := clamp env raw (env.literal "-0.15") (env.literal "0.15")
    clamp env (env.add confidence bias) (env.literal "0.0") (env.literal "1.0")

structure ConfidenceGateResult (F : Type) where
  tier : Str
  applied : Bool
  threshold : F
  defaultTier : Option Str

/-- The tier that the gate falls back to. When the configured one is not valid, it is the default
text tier, and when that is not valid, the tier that was declared first. -/
def gateDefault (defaultTier : Str) : Option Str :=
  let normal := normalTier env.toCaseFolding defaultTier
  if normal ∈ validTiers then some normal
  else if defaultTextTier ∈ validTiers then some defaultTextTier
  else validTiers.head?

def gateCutoff (threshold : F) (tierRank defaultRank : Int) : F :=
  if defaultRank < tierRank then
    env.sub threshold (cfg.confidenceHighTierMargin.getD (env.literal "0.05"))
  else threshold

/-- `confidence_gate`. -/
def confidenceGate (tier : Str) (confidence : F) (calibration : Option (CalibrationState F)) :
    ConfidenceGateResult F :=
  let base := cfg.confidenceThreshold.getD (env.literal "0.5")
  let threshold := effectiveThreshold env base calibration
  match cfg.defaultTier.bind (gateDefault env validTiers) with
  | none => ⟨tier, false, threshold, none⟩
  | some defaultTier =>
      if (tiers tier).any (·.imageOnly) then ⟨tier, false, threshold, some defaultTier⟩
      else
        let gateConfidence := applyBias env confidence tier calibration
        let tierRank := rank env.toCaseFolding validTiers tier
        let defaultRank := rank env.toCaseFolding validTiers defaultTier
        let cutoff := gateCutoff env cfg threshold tierRank defaultRank
        if env.lt gateConfidence cutoff ∧ 0 ≤ tierRank ∧ 0 ≤ defaultRank ∧ tier ≠ defaultTier then
          ⟨defaultTier, true, threshold, some defaultTier⟩
        else ⟨tier, false, threshold, some defaultTier⟩

/-! ### Complaints -/

/-- `COMPLAINT_TERMS`. -/
def complaintTerms : List Str :=
  ["不对", "不行", "不对劲", "还是不对", "完全不对", "不是这样", "你搞错了", "你说错了", "回答错了",
    "理解错了", "搞错重点了", "错了", "答非所问", "没理解", "没听懂", "太差", "太敷衍", "敷衍",
    "没用", "废话", "离谱", "乱说", "瞎说", "胡扯", "答得太差", "质量太差", "不满意", "胡说",
    "漏了", "遗漏了", "没提到", "没覆盖", "跑题了", "偏题了", "不是我要的", "没按要求",
    "没有按要求", "重写", "重新来", "重新回答", "再来一版", "换个说法", "重新组织", "按我说的重来",
    "你没有回答", "垃圾", "傻逼", "sb", "蠢", "废物", "滚", "妈的", "操", "艹", "wrong",
    "incorrect", "not correct", "you are wrong", "completely wrong", "totally wrong",
    "not what i asked", "you misunderstood", "that's not right", "this is not right", "bad answer",
    "terrible answer", "awful answer", "horrible answer", "poor answer", "lazy answer",
    "low quality", "poor quality", "try again", "redo", "rewrite", "start over", "answer again",
    "you missed", "missed the point", "off topic", "irrelevant", "not helpful", "garbage", "trash",
    "crap", "sucks", "stupid", "idiot", "moron", "dumb", "pathetic", "ridiculous", "fuck",
    "fucking", "shit", "damn", "wtf", "asshole", "bullshit", "nonsense", "useless"].map String.toList

/-- `detect_complaint`. -/
def detectComplaint (message : Str) (maxChars : Int) : List Str :=
  let text := strip message
  if 0 < maxChars ∧ maxChars < text.length then []
  else
    let lowered := env.lower text
    complaintTerms.filter fun term => (find term lowered).isSome

structure ComplaintUpgradeResult where
  tier : Str
  terms : List Str
  applied : Bool
  steps : Int
  maxChars : Int

def raisedStart (start : Str) (other : Option Str) : Str :=
  match other with
  | none => start
  | some tier =>
      if tier ∈ validTiers ∧
          rank env.toCaseFolding validTiers start < rank env.toCaseFolding validTiers tier then
        either tier start
      else start

/-- `complaint_upgrade`. -/
def complaintUpgrade (tier message : Str) (preConfidenceTier : Str) (previousTier : Option Str) :
    ComplaintUpgradeResult :=
  let steps := cfg.complaintUpgradeSteps.getD 1
  let maxChars := cfg.complaintUpgradeMaxChars.getD 160
  if cfg.complaintUpgradeEnabled.getD true = false then ⟨tier, [], false, steps, maxChars⟩
  else
    let terms := detectComplaint env message maxChars
    if terms = [] then ⟨tier, [], false, steps, maxChars⟩
    else
      let start := raisedStart env validTiers
        (raisedStart env validTiers tier (some preConfidenceTier)) previousTier
      let upgraded := upgradeTier env.toCaseFolding validTiers start steps
      ⟨upgraded, terms, decide (upgraded ≠ tier), steps, maxChars⟩

/-! ### Staying with the tier of the previous turn -/

structure AntiDowngradeResult where
  tier : Str
  applied : Bool

/-- `anti_downgrade`. -/
def antiDowngrade (tier : Str) (previousTier : Option Str) : AntiDowngradeResult :=
  match previousTier with
  | none => ⟨tier, false⟩
  | some previous =>
      if cfg.kvCacheAntiDowngradeEnabled.getD true = true ∧ previous ∈ validTiers ∧
          0 ≤ rank env.toCaseFolding validTiers tier ∧
          rank env.toCaseFolding validTiers tier < rank env.toCaseFolding validTiers previous then
        ⟨either previous tier, true⟩
      else ⟨tier, false⟩

/-! ### What the models can serve -/

/-- What the catalog knows of the model of a tier. -/
structure TierCapability where
  supportsVision : Option Bool
  contextWindow : Option Int

inductive CapabilityRule where
  | visionWalkUp | contextWalkUp

structure CapabilityGateAction where
  rule : CapabilityRule
  fromTier : Str
  toTier : Str

structure CapabilityGateResult where
  tier : Str
  actions : List CapabilityGateAction

def capabilityOf (capabilities : List (Str × TierCapability)) (tier : Str) : TierCapability :=
  (capabilities.lookup tier).getD ⟨none, none⟩

def visionTarget (capabilities : List (Str × TierCapability)) (ordered : List Str)
    (turnHasImage : Bool) (i : Nat) (current : Str) : Option Str :=
  if turnHasImage ∧ (capabilityOf capabilities current).supportsVision = some false then
    (ordered.drop (i + 1)).find? fun candidate =>
      (capabilityOf capabilities candidate).supportsVision = some true
  else none

def contextTarget (capabilities : List (Str × TierCapability)) (ordered : List Str)
    (materialTokens : Int) (i : Nat) (current : Str) : Option Str :=
  if 0 < materialTokens ∧ ∃ window ∈ (capabilityOf capabilities current).contextWindow,
      window < materialTokens then
    ((ordered.drop (i + 1)).find? fun candidate =>
      (capabilityOf capabilities candidate).contextWindow.any (materialTokens ≤ ·)) <|>
    (if i < ordered.length - 1 then ordered.getLast? else none)
  else none

def moved (ordered : List Str) (i : Nat) (start : Str) (target : Option Str) : Str × Nat :=
  target.elim (start, i) fun tier => (tier, ordered.idxOf tier)

/-- `capability_gate`. -/
def capabilityGate (tier : Str) (capabilities : List (Str × TierCapability)) (turnHasImage : Bool)
    (materialTokens : Int) : CapabilityGateResult :=
  let ordered := canonicalOrder env.toCaseFolding validTiers
  match rank? env.toCaseFolding validTiers tier with
  | none => ⟨tier, []⟩
  | some i =>
      if capabilities = [] then ⟨tier, []⟩
      else
        let start := normalTier env.toCaseFolding tier
        let vision := visionTarget capabilities ordered turnHasImage i start
        let (current, position) := moved ordered i start vision
        let context := (contextTarget capabilities ordered materialTokens position current).filter
          fun target => target ≠ current
        ⟨context.getD current,
          (vision.map fun target => ⟨.visionWalkUp, start, target⟩).toList ++
            (context.map fun target => ⟨.contextWalkUp, current, target⟩).toList⟩

/-! ### Large material -/

/-- `large_context_min_tier`. -/
def largeContextMinTier (materialTokens contextWindowTokens : Int) : Option Str :=
  if 80000 ≤ materialTokens ∨ env.largeContextShare contextWindowTokens ≤ materialTokens then
    some "c3".toList
  else if 25000 ≤ materialTokens then some "c2".toList
  else none

def validMinTier (minTier : Str) : Option Str :=
  if minTier ∈ validTiers then some minTier
  else
    let ordered := canonicalOrder env.toCaseFolding validTiers
    let eligible := ordered.filter fun name =>
      (tierIndex env.toCaseFolding name).any fun index =>
        (tierIndex env.toCaseFolding minTier).all (· ≤ index)
    match eligible with
    | first :: _ => some first
    | [] => if minTier = highestTextTier then ordered.getLast? else none

/-- The tier that `large_context_floor` moves a decision to. -/
def floorTier (tier : Str) (materialTokens contextWindowTokens : Int) : Option Str :=
  if tier ∉ validTiers then none
  else
    ((largeContextMinTier env materialTokens contextWindowTokens).bind
      (validMinTier env validTiers)).filter fun minTier =>
        rank env.toCaseFolding validTiers tier < rank env.toCaseFolding validTiers minTier

/-! ### Budget -/

inductive BudgetAction where
  | warn | cap
  deriving DecidableEq

def BudgetAction.value : BudgetAction → Str
  | .warn => "warn".toList
  | .cap => "cap".toList

structure BudgetGateInput (F : Type) where
  action : BudgetAction
  limitUsd : F
  spendUsd : Option F
  estimateUsd : Option F
  capTier : Option Str
  spendSource : Str

inductive BudgetOutcome where
  | suspended | underLimit | warn | cap
  deriving DecidableEq

structure BudgetGateResult (F : Type) where
  tier : Str
  outcome : BudgetOutcome
  spendUsd : Option F
  projectedUsd : Option F
  limitUsd : F
  action : BudgetAction
  fromTier : Str
  spendSource : Str

def capTarget (tier : Str) (budget : BudgetGateInput F) : Option Str :=
  if budget.action = .cap then
    ((budget.capTier.filter (· ≠ [])).bind (normalizeTextTier env.toCaseFolding)).filter fun target =>
      decide (target ∈ validTiers ∧
        rank env.toCaseFolding validTiers target < rank env.toCaseFolding validTiers tier)
  else none

/-- `budget_gate` for a budget that is set. -/
def budgetGate (tier : Str) (budget : BudgetGateInput F) : BudgetGateResult F :=
  match budget.spendUsd with
  | none => ⟨tier, .suspended, none, none, budget.limitUsd, budget.action, [], budget.spendSource⟩
  | some spend =>
      let projected := env.add spend (budget.estimateUsd.getD (env.literal "0.0"))
      if env.le projected budget.limitUsd then
        ⟨tier, .underLimit, spend, projected, budget.limitUsd, budget.action, [],
          budget.spendSource⟩
      else
        match capTarget env validTiers tier budget with
        | some target =>
            ⟨target, .cap, spend, projected, budget.limitUsd, .cap, tier, budget.spendSource⟩
        | none => ⟨tier, .warn, spend, projected, budget.limitUsd, .warn, tier, budget.spendSource⟩

end Stages

end OpenStarry.Routing
