import Mathlib.Algebra.GroupWithZero.Nat
import Mathlib.Algebra.Ring.Int.Defs
import OpenStarry.Lib.Decimal
import OpenStarry.Lib.Outcome

/-!
# Usage receipts

How the usage that a provider reports with an event is checked and normalized. The values of an
event may be of any type; what the built-in conversions make of them is a parameter. A computation
that may raise says so in its type.
-/

namespace OpenStarry.Usage

open Lib Text

/-! ### Amounts -/

/-- A finite decimal that is not negative. -/
structure Dec where
  coefficient : Nat
  exponent : Int
  deriving DecidableEq, Repr

/-- What `Decimal(str(value))` gives: it raises, or is special, or negative, or an amount. -/
inductive Amount where
  | invalid | special | negative
  | amount (d : Dec)
  deriving DecidableEq, Repr

/-- An exception out of a conversion. -/
inductive UsageError where
  | invalidOperation | overflow
  deriving DecidableEq, Repr

def precision : Nat := 28

def digitCount (n : Nat) : Nat := (decimal n).length

/-- `n / 10 ^ k`, to the nearest, and halfway to the even one. -/
def roundHalfEven (n k : Nat) : Nat :=
  let q := n / 10 ^ k
  let r := n % 10 ^ k
  if 2 * r < 10 ^ k then q
  else if 10 ^ k < 2 * r then q + 1
  else if q % 2 = 0 then q else q + 1

/-- The product with `_NANOS_PER_USD`, rounded to the precision. -/
def timesNanos (d : Dec) : Dec :=
  let product := d.coefficient * 1000000000
  let excess := digitCount product - precision
  ⟨roundHalfEven product excess, d.exponent + excess⟩

/-- `quantize(Decimal("1"), rounding=ROUND_HALF_UP)`: the integer has to fit the precision. -/
def quantize (d : Dec) : Except UsageError Nat :=
  let value :=
    if 0 ≤ d.exponent then d.coefficient * 10 ^ d.exponent.toNat
    else
      let scale := 10 ^ (-d.exponent).toNat
      (2 * d.coefficient + scale) / (2 * scale)
  if digitCount value ≤ precision then .ok value else .error .invalidOperation

def nanos (d : Dec) : Except UsageError Nat :=
  if d.coefficient = 0 then .ok 0 else quantize (timesNanos d)

/-! ### Values -/

structure ProviderBillingReceipt where
  currency : Str
  status : Str
  amountNanos : Option Int
  usdEquivalentNanos : Option Int
  fxNativePerUsdNanos : Int
  schemaVersion : Int
  deriving DecidableEq

/-- The values of an event and the built-in conversions of them. -/
structure Values (V : Type) where
  none : V
  zero : V
  one : V
  isNone : V → Bool
  truthy : V → Bool
  str : V → Str
  /-- `Decimal(str(value))`. -/
  decimal : V → Amount
  /-- `int(value)`, when it does not raise. -/
  int : V → Option Int
  /-- `float(value)`, by the text of the float. -/
  float : V → Amount
  /-- An integer that is no truth value. -/
  integer : V → Option Int
  /-- A mapping. -/
  mapping : V → Option (List (Str × V))
  receipt : V → Option ProviderBillingReceipt
  lower : Str → Str
  upper : Str → Str
  /-- `resolve_model_price` and `estimate_cost`: the cost, its basis and the source of the price. -/
  estimate : Str → Str → Nat → Nat → Nat → Nat → Except UsageError (Amount × Str × Str)

abbrev Row (V : Type) := List (Str × V)

/-- The fields of a provider event that accounting reads. -/
structure EventFields (V : Type) where
  kind : Str
  code : V
  inputTokens : V
  outputTokens : V
  reasoningTokens : V
  cachedTokens : V
  cacheWriteTokens : V
  billedCost : V
  costSource : V
  billingReceipt : V
  provider : V
  model : V
  usageMissingCount : V
  /-- A list of dicts that is not empty. -/
  modelUsageBreakdown : Option (List (Row V))

section Normalize

variable {V : Type} (values : Values V)

/-- `value or 0`. -/
def orZero (value : V) : V := if values.truthy value then value else values.zero

/-- `str(value or "")`. -/
def strOr (value : V) : Str := if values.truthy value then values.str value else []

/-- `_usage_int`. -/
def usageInt (value : V) : Nat := ((values.int (orZero values value)).getD 0).toNat

/-- `_usage_float`, where there is no zero. -/
def usageFloat (value : V) : Option Dec :=
  match values.float (orZero values value) with
  | .amount d => if d.coefficient = 0 then none else some d
  | _ => none

/-- `usd_to_nanos`. -/
def usdToNanos (value : V) : Except UsageError Nat :=
  match values.decimal (orZero values value) with
  | .amount d => nanos d
  | _ => .ok 0

/-- `_raw_nonnegative_number`. -/
def rawNonnegativeNumber (value : V) : Bool :=
  match values.decimal (orZero values value) with
  | .amount _ => true
  | _ => false

/-- `_row_value`. -/
def rowValue (row : Row V) (keys : List String) (default : V) : V :=
  ((keys.findSome? fun key => row.lookup key.toList)).getD default

def billedKeys : List String := ["billed_cost", "billedCost", "billed_cost_usd", "billedCostUsd"]

def additiveKeys (event : EventFields V) : List (V × List String) :=
  [(event.inputTokens, ["input_tokens", "inputTokens"]),
    (event.outputTokens, ["output_tokens", "outputTokens"]),
    (event.reasoningTokens, ["reasoning_tokens", "reasoningTokens"]),
    (event.cachedTokens, ["cache_read_tokens", "cacheReadTokens", "cached_tokens", "cachedTokens"]),
    (event.cacheWriteTokens, ["cache_write_tokens", "cacheWriteTokens"])]

def isError (event : EventFields V) : Bool := event.kind = "error".toList

def additiveReconciles (event : EventFields V) (rows : List (Row V)) (field : V × List String) :
    Bool :=
  let rowValues := rows.map fun row => rowValue row field.2 values.zero
  rowValues.all (rawNonnegativeNumber values) &&
    (isError event || decide ((rowValues.map (usageInt values)).sum = usageInt values field.1))

/-- `_breakdown_reconciles`. -/
def breakdownReconciles (event : EventFields V) (rows : List (Row V)) : Except UsageError Bool :=
  let billed := rows.map fun row => rowValue row billedKeys values.zero
  if ¬ ((additiveKeys event).all (additiveReconciles values event rows) ∧
      billed.all (rawNonnegativeNumber values)) then .ok false
  else if isError event then .ok true
  else do
    let rowNanos ← billed.mapM (usdToNanos values)
    let eventNanos ← usdToNanos values event.billedCost
    return decide (rowNanos.sum = eventNanos)

/-- `_row_has_explicit_usage_receipt`. -/
def rowHasExplicitUsageReceipt (row : Row V) : Bool :=
  let model := rowValue row ["model"] values.none
  let named := if values.truthy model then model else rowValue row ["provider"] values.none
  let counted := fun keys : List String =>
    ((keys.findSome? fun key => row.lookup key.toList)).any (rawNonnegativeNumber values)
  decide (strip (strOr values named) ≠ []) && counted ["input_tokens", "inputTokens"] &&
    counted ["output_tokens", "outputTokens"]

/-- `has_known_provider_usage_receipt`. -/
def hasKnownProviderUsageReceipt (event : EventFields V) : Bool :=
  match event.modelUsageBreakdown with
  | none => false
  | some rows =>
      (breakdownReconciles values event rows).toOption = some true &&
        rows.any (rowHasExplicitUsageReceipt values)

/-! ### Items -/

/-- `_receipt_int(value, nullable=True)`, where `none` is an exception. -/
def receiptInt (value : V) : Option (Option Int) :=
  if values.isNone value then some none
  else ((values.integer value).filter (0 ≤ ·)).map some

/-- The checks that a receipt has to pass. -/
def validReceipt (receipt : ProviderBillingReceipt) : Bool :=
  decide ((∀ n ∈ receipt.amountNanos, 0 ≤ n) ∧ (∀ n ∈ receipt.usdEquivalentNanos, 0 ≤ n) ∧
    receipt.currency.length = 3 ∧ receipt.currency = values.upper receipt.currency ∧
    0 < receipt.fxNativePerUsdNanos ∧ 0 < receipt.schemaVersion) &&
  (decide (receipt.status = "confirmed".toList) && receipt.amountNanos.isSome &&
      receipt.usdEquivalentNanos.isSome ||
    decide (receipt.status = "pending".toList) && receipt.usdEquivalentNanos.isNone)

/-- `_coerce_billing_receipt`. -/
def coerceBillingReceipt (value : V) : Option ProviderBillingReceipt :=
  let candidate :=
    match values.receipt value with
    | some receipt => some receipt
    | none => do
        let fields ← values.mapping value
        let fx ← values.integer (rowValue fields ["fx_native_per_usd_nanos"] values.none)
        let schema ← values.integer (rowValue fields ["schema_version"] values.one)
        let amount ← receiptInt values (rowValue fields ["amount_nanos"] values.none)
        let usd ← receiptInt values (rowValue fields ["usd_equivalent_nanos"] values.none)
        return {
          currency := values.upper (strOr values (rowValue fields ["currency"] values.none))
          status := strOr values (rowValue fields ["status"] values.none)
          amountNanos := amount
          usdEquivalentNanos := usd
          fxNativePerUsdNanos := fx
          schemaVersion := schema }
  candidate.filter (validReceipt values)

structure UsageCallItem where
  ordinal : Nat
  provider : Str
  model : Str
  inputTokens : Nat
  outputTokens : Nat
  reasoningTokens : Nat
  cacheReadTokens : Nat
  cacheWriteTokens : Nat
  billedCostNanos : Nat
  estimatedCostNanos : Nat
  costSource : Str
  estimateBasis : Option Str
  priceSource : Option Str
  billingReceipt : Option ProviderBillingReceipt

def billedNanos (receipt : Option ProviderBillingReceipt) (billed : Option Dec) :
    Except UsageError Nat :=
  match receipt.filter (·.status = "confirmed".toList) with
  | some confirmed => .ok (confirmed.usdEquivalentNanos.getD 0).toNat
  | none => billed.elim (.ok 0) nanos

def itemSource (providerBilled : Bool) (estimatedNanos : Nat) (basis : Option Str)
    (rowSource : Str) : Str :=
  if providerBilled ∧ estimatedNanos ≠ 0 then "mixed".toList
  else if providerBilled then "provider_billed".toList
  else if estimatedNanos ≠ 0 then "opensquilla_estimate".toList
  else if basis = some "free".toList then "free".toList
  else if rowSource = "none".toList then "unavailable".toList
  else rowSource

def itemEstimate (providerBilled : Bool) (model provider : Str) (input output read write : Nat) :
    Except UsageError (Option Dec × Option Str × Option Str) :=
  if providerBilled then .ok (none, none, none)
  else (values.estimate model provider input output read write).map fun (cost, basis, source) =>
    (match cost with
      | .amount d => some d
      | _ => none, some basis, some source)

/-- `_item_from_row` with estimates. -/
def itemFromRow (ordinal : Nat) (defaultProvider defaultModel : Str) (row : Row V) :
    Except UsageError UsageCallItem := do
  let named := fun key default =>
    let value := rowValue row [key] values.none
    if values.truthy value then values.str value else default
  let provider := named "provider" defaultProvider
  let model := named "model" defaultModel
  let count := fun keys => usageInt values (rowValue row keys values.none)
  let inputTokens := count ["input_tokens", "inputTokens"]
  let outputTokens := count ["output_tokens", "outputTokens"]
  let cacheReadTokens :=
    count ["cache_read_tokens", "cacheReadTokens", "cached_tokens", "cachedTokens"]
  let cacheWriteTokens := count ["cache_write_tokens", "cacheWriteTokens"]
  let billed := usageFloat values (rowValue row billedKeys values.none)
  let receipt := coerceBillingReceipt values
    (rowValue row ["billing_receipt", "billingReceipt"] values.none)
  let source := strOr values (rowValue row ["cost_source", "costSource"] values.none)
  let rowSource := values.lower (strip (if source = [] then "none".toList else source))
  let status := receipt.map (·.status)
  let providerBilled := decide (status ≠ some "pending".toList) &&
    (decide (status = some "confirmed".toList) ||
      decide (rowSource ∈ ["provider_billed".toList, "openrouter_usage".toList]) || billed.isSome)
  let (cost, basis, priceSource) ←
    itemEstimate values providerBilled model provider inputTokens outputTokens cacheReadTokens
      cacheWriteTokens
  let billedCostNanos ← if providerBilled then billedNanos receipt billed else .ok 0
  let estimatedNanos ← cost.elim (.ok 0) nanos
  return {
    ordinal := ordinal
    provider := provider
    model := model
    inputTokens := inputTokens
    outputTokens := outputTokens
    reasoningTokens := count ["reasoning_tokens", "reasoningTokens"]
    cacheReadTokens := cacheReadTokens
    cacheWriteTokens := cacheWriteTokens
    billedCostNanos := billedCostNanos
    estimatedCostNanos := estimatedNanos
    costSource := itemSource providerBilled estimatedNanos basis rowSource
    estimateBasis := basis
    priceSource := priceSource
    billingReceipt := receipt }

/-! ### The result -/

structure UsageCallResult where
  items : List UsageCallItem
  costSource : Str
  estimateBasis : Option Str
  priceSource : Option Str
  missingUsageEntries : Nat

def UsageCallResult.total (result : UsageCallResult) (counter : UsageCallItem → Nat) : Nat :=
  (result.items.map counter).sum

def resultSource (items : List UsageCallItem) : Str :=
  let has := fun source : String => items.any fun item => item.costSource = source.toList
  let estimated := has "opensquilla_estimate" || has "mixed"
  if has "mixed" || has "provider_billed" && (estimated || has "unavailable") then "mixed".toList
  else if has "provider_billed" then "provider_billed".toList
  else if estimated then "opensquilla_estimate".toList
  else if items ≠ [] ∧ items.all fun item => item.costSource = "free".toList then "free".toList
  else "unavailable".toList

def resultBasis (items : List UsageCallItem) : Option Str :=
  (["cache_blind", "cache_aware", "free"].map String.toList).find? fun basis =>
    items.any fun item => item.estimateBasis = some basis

def resultPriceSource (items : List UsageCallItem) : Option Str :=
  match (items.filterMap fun item => item.priceSource.filter (· ≠ [])).dedup with
  | [] => none
  | [source] => some source
  | _ => some "mixed".toList

def envelopeRow (event : EventFields V) : Row V :=
  [("input_tokens".toList, event.inputTokens), ("output_tokens".toList, event.outputTokens),
    ("reasoning_tokens".toList, event.reasoningTokens), ("cached_tokens".toList, event.cachedTokens),
    ("cache_write_tokens".toList, event.cacheWriteTokens),
    ("billed_cost".toList, event.billedCost), ("cost_source".toList, event.costSource),
    ("billing_receipt".toList, event.billingReceipt)]

/-- `normalize_provider_usage` for the call of a provider and a model. -/
def normalizeProviderUsage (event : EventFields V) (defaultProvider defaultModel : Str) :
    Except UsageError UsageCallResult := do
  let candidates := event.modelUsageBreakdown.getD []
  let provider :=
    if defaultProvider = [] then strOr values event.provider else defaultProvider
  let model := if values.truthy event.model then values.str event.model else defaultModel
  let reconciles ← breakdownReconciles values event candidates
  let rows := if reconciles ∧ candidates ≠ [] then candidates
    else [envelopeRow event]
  let items ← rows.zipIdx.mapM fun (row, ordinal) => itemFromRow values ordinal provider model row
  return {
    items := items
    costSource := resultSource items
    estimateBasis := resultBasis items
    priceSource := resultPriceSource items
    missingUsageEntries := usageInt values event.usageMissingCount }

end Normalize

end OpenStarry.Usage
