import OpenStarry.Usage.Receipts

/-!
# The totals of normalized usage

The rows of a breakdown are used when they add up to the event, and both passes over them read a counter
in the same way. A billed cost is read as a decimal by the pass that adds up, and through a float by the
other one.
-/

namespace OpenStarry.Usage

open Lib Text

section

variable {V : Type} (values : Values V)

/-! ### The rows of an event -/

def usedRows (event : EventFields V) (reconciles : Bool) : List (Row V) :=
  let candidates := event.modelUsageBreakdown.getD []
  if reconciles ∧ candidates ≠ [] then candidates else [envelopeRow event]

def billedValue (row : Row V) : V := rowValue row billedKeys values.none

def floatNanos (value : V) : Except UsageError Nat := (usageFloat values value).elim (.ok 0) nanos

def rowReceipt (row : Row V) : Option ProviderBillingReceipt :=
  coerceBillingReceipt values (rowValue row ["billing_receipt", "billingReceipt"] values.none)

def rowSource (row : Row V) : Str :=
  let source := strOr values (rowValue row ["cost_source", "costSource"] values.none)
  values.lower (strip (if source = [] then "none".toList else source))

def recognised (row : Row V) : Bool :=
  let status := (rowReceipt values row).map (·.status)
  decide (status ≠ some "pending".toList) &&
    (decide (status = some "confirmed".toList) ||
      decide (rowSource values row ∈ ["provider_billed".toList, "openrouter_usage".toList]) ||
      (usageFloat values (billedValue values row)).isSome)

/-! ### What a result is held to -/

/-- A result neither drops nor doubles what the event reports. -/
structure Keeps (event : EventFields V) (result : UsageCallResult) : Prop where
  input : result.total (·.inputTokens) = usageInt values event.inputTokens
  output : result.total (·.outputTokens) = usageInt values event.outputTokens
  reasoning : result.total (·.reasoningTokens) = usageInt values event.reasoningTokens
  cacheRead : result.total (·.cacheReadTokens) = usageInt values event.cachedTokens
  cacheWrite : result.total (·.cacheWriteTokens) = usageInt values event.cacheWriteTokens
  single : ∀ item ∈ result.items, item.billedCostNanos = 0 ∨ item.estimatedCostNanos = 0
  billed : ∀ reconciles,
    breakdownReconciles values event (event.modelUsageBreakdown.getD []) = .ok reconciles →
    (∀ row ∈ usedRows event reconciles, rowReceipt values row = none) →
    (∀ row ∈ usedRows event reconciles, usdToNanos values (billedValue values row) ≠ .ok 0 →
      recognised values row = true) →
    usdToNanos values event.billedCost = .ok (result.total (·.billedCostNanos))

/-- Rows without receipts cost the same in nanos whether their costs are read as decimals or as
floats. -/
def SameNanos (event : EventFields V) : Prop := ∀ reconciles,
  breakdownReconciles values event (event.modelUsageBreakdown.getD []) = .ok reconciles →
  (∀ row ∈ usedRows event reconciles, rowReceipt values row = none) →
  (∀ row ∈ usedRows event reconciles, usdToNanos values (billedValue values row) ≠ .ok 0 →
    recognised values row = true) →
  ((usedRows event reconciles).mapM fun row => floatNanos values (billedValue values row)).map
      List.sum =
    ((usedRows event reconciles).mapM fun row => usdToNanos values (billedValue values row)).map
      List.sum

end

section

variable {V : Type} {values : Values V} {event : EventFields V} {row : Row V}

/-! ### One row -/

theorem orZero_zero : orZero values values.zero = values.zero := ite_self _

theorem orZero_rowValue (hnone : values.truthy values.none = false) (row : Row V)
    (keys : List String) :
    orZero values (rowValue row keys values.none) = orZero values (rowValue row keys values.zero) := by
  rw [rowValue, rowValue]
  cases keys.findSome? fun key => row.lookup key.toList with
  | none =>
      show orZero values values.none = orZero values values.zero
      rw [orZero_zero, orZero, hnone]
      rfl
  | some value => rfl

/-- What an item has from its row. -/
structure ItemOf (values : Values V) (row : Row V) (item : UsageCallItem) : Prop where
  input : item.inputTokens =
    usageInt values (rowValue row ["input_tokens", "inputTokens"] values.none)
  output : item.outputTokens =
    usageInt values (rowValue row ["output_tokens", "outputTokens"] values.none)
  reasoning : item.reasoningTokens =
    usageInt values (rowValue row ["reasoning_tokens", "reasoningTokens"] values.none)
  cacheRead : item.cacheReadTokens = usageInt values (rowValue row
    ["cache_read_tokens", "cacheReadTokens", "cached_tokens", "cachedTokens"] values.none)
  cacheWrite : item.cacheWriteTokens =
    usageInt values (rowValue row ["cache_write_tokens", "cacheWriteTokens"] values.none)
  single : item.billedCostNanos = 0 ∨ item.estimatedCostNanos = 0
  billed : rowReceipt values row = none →
    floatNanos values (billedValue values row) = .ok item.billedCostNanos

theorem itemOf_of_ok {ordinal : Nat} {provider model : Str} {item : UsageCallItem}
    (h : itemFromRow values ordinal provider model row = .ok item) : ItemOf values row item := by
  rw [itemFromRow] at h
  obtain ⟨⟨cost, basis, priceSource⟩, hestimate, h⟩ := bind_eq_ok.mp h
  change itemEstimate values (recognised values row) _ _ _ _ _ _ = _ at hestimate
  dsimp only at h
  change (if recognised values row = true then _ else _) = _ at h
  by_cases hrecognised : recognised values row = true
  · rw [if_pos hrecognised] at h
    obtain ⟨billedCostNanos, hbilled, h⟩ := bind_eq_ok.mp h
    obtain ⟨estimatedNanos, hestimated, h⟩ := bind_eq_ok.mp h
    rw [itemEstimate, if_pos hrecognised] at hestimate
    rw [(Prod.mk.inj (Except.ok.inj hestimate)).1.symm] at hestimated
    rw [pure_eq_ok] at h
    rw [← h]
    refine ⟨rfl, rfl, rfl, rfl, rfl, Or.inr (Except.ok.inj hestimated).symm, ?_⟩
    intro hreceipt
    change billedNanos (rowReceipt values row) (usageFloat values (billedValue values row)) = _
      at hbilled
    rw [hreceipt] at hbilled
    exact hbilled
  · rw [if_neg hrecognised] at h
    obtain ⟨billedCostNanos, hbilled, h⟩ := bind_eq_ok.mp h
    obtain ⟨estimatedNanos, -, h⟩ := bind_eq_ok.mp h
    rw [pure_eq_ok] at h
    rw [← h]
    refine ⟨rfl, rfl, rfl, rfl, rfl, Or.inl (Except.ok.inj hbilled).symm, ?_⟩
    intro hreceipt
    have hfloat : usageFloat values (billedValue values row) = none := by
      rw [Bool.not_eq_true, recognised, hreceipt] at hrecognised
      simp only [Option.map_none, Bool.and_eq_false_iff, Bool.or_eq_false_iff] at hrecognised
      obtain hpending | ⟨-, hsome⟩ := hrecognised
      · simp at hpending
      · rwa [Option.isSome_eq_false_iff, Option.isNone_iff_eq_none] at hsome
    rw [floatNanos, hfloat]
    exact hbilled

/-! ### All rows -/

theorem exists_items {defaultProvider defaultModel : Str} {result : UsageCallResult}
    (h : normalizeProviderUsage values event defaultProvider defaultModel = .ok result) :
    ∃ reconciles,
      breakdownReconciles values event (event.modelUsageBreakdown.getD []) = .ok reconciles ∧
      List.Forall₂ (ItemOf values) (usedRows event reconciles) result.items := by
  rw [normalizeProviderUsage] at h
  obtain ⟨reconciles, hreconciles, h⟩ := bind_eq_ok.mp h
  obtain ⟨items, hitems, h⟩ := bind_eq_ok.mp h
  rw [pure_eq_ok] at h
  refine ⟨reconciles, hreconciles, ?_⟩
  have hmade : List.Forall₂ (fun (numbered : Row V × Nat) item => ItemOf values numbered.1 item)
      (usedRows event reconciles).zipIdx items :=
    (mapM_eq_ok_iff_forall₂.mp hitems).imp fun _ _ hitem => itemOf_of_ok hitem
  rw [← h, ← List.zipIdx_map_fst 0 (usedRows event reconciles), List.forall₂_map_left_iff]
  exact hmade

theorem total_eq {rows : List (Row V)} {items : List UsageCallItem}
    (h : List.Forall₂ (ItemOf values) rows items) {counter : UsageCallItem → Nat}
    {count : Row V → Nat} (hcount : ∀ row item, ItemOf values row item → counter item = count row) :
    items.map counter = rows.map count := by
  induction h with
  | nil => rfl
  | cons hitem _ ih => rw [List.map_cons, List.map_cons, hcount _ _ hitem, ih]

theorem reconciles_spec {rows : List (Row V)} (hdone : isError event = false)
    (h : breakdownReconciles values event rows = .ok true) :
    (∀ field ∈ additiveKeys event, additiveReconciles values event rows field = true) ∧
      ∃ rowNanos, (rows.map fun row => rowValue row billedKeys values.zero).mapM
          (usdToNanos values) = .ok rowNanos ∧
        usdToNanos values event.billedCost = .ok rowNanos.sum := by
  rw [breakdownReconciles] at h
  by_cases hfields : (additiveKeys event).all (additiveReconciles values event rows) ∧
      (rows.map fun row => rowValue row billedKeys values.zero).all (rawNonnegativeNumber values)
  · rw [if_neg (not_not.mpr hfields), hdone, if_neg Bool.false_ne_true] at h
    obtain ⟨rowNanos, hrows, h⟩ := bind_eq_ok.mp h
    obtain ⟨eventNanos, hevent, h⟩ := bind_eq_ok.mp h
    rw [pure_eq_ok, decide_eq_true_eq] at h
    refine ⟨List.all_eq_true.mp hfields.1, rowNanos, hrows, ?_⟩
    rw [h]
    exact hevent
  · rw [if_pos hfields] at h
    cases h

theorem usedRows_cases (event : EventFields V) (reconciles : Bool) :
    reconciles = true ∧ usedRows event reconciles = event.modelUsageBreakdown.getD [] ∨
      usedRows event reconciles = [envelopeRow event] := by
  rw [usedRows]
  split_ifs with hused
  · exact Or.inl ⟨hused.1, rfl⟩
  · exact Or.inr rfl

theorem sum_usedRows (hnone : values.truthy values.none = false) (hdone : isError event = false)
    {reconciles : Bool}
    (hreconciles :
      breakdownReconciles values event (event.modelUsageBreakdown.getD []) = .ok reconciles)
    {counter : V} {keys : List String} (hkeys : (counter, keys) ∈ additiveKeys event)
    (hcounter : rowValue (envelopeRow event) keys values.none = counter) :
    ((usedRows event reconciles).map fun row => usageInt values (rowValue row keys values.none)).sum =
      usageInt values counter := by
  obtain ⟨rfl, hused⟩ | hused := usedRows_cases event reconciles
  · have hfield := (reconciles_spec hdone hreconciles).1 _ hkeys
    rw [additiveReconciles, Bool.and_eq_true, hdone, Bool.false_or, decide_eq_true_eq,
      List.map_map] at hfield
    rw [hused, ← hfield.2]
    congr 1
    apply List.map_congr_left
    intro row _
    rw [usageInt, orZero_rowValue hnone]
    rfl
  · rw [hused, List.map_cons, List.map_nil, List.sum_singleton, hcounter]

theorem sum_usedNanos (hnone : values.truthy values.none = false) (hdone : isError event = false)
    {reconciles : Bool}
    (hreconciles :
      breakdownReconciles values event (event.modelUsageBreakdown.getD []) = .ok reconciles) :
    ((usedRows event reconciles).mapM fun row => usdToNanos values (billedValue values row)).map
      List.sum = usdToNanos values event.billedCost := by
  obtain ⟨rfl, hused⟩ | hused := usedRows_cases event reconciles
  · obtain ⟨-, rowNanos, hrows, hevent⟩ := reconciles_spec hdone hreconciles
    have hsame : ((event.modelUsageBreakdown.getD []).mapM fun row =>
        usdToNanos values (billedValue values row)) = .ok rowNanos := by
      rw [mapM_eq_ok_iff_forall₂, List.forall₂_map_left_iff] at hrows
      rw [mapM_eq_ok_iff_forall₂]
      apply hrows.imp
      intro row nanos hnanos
      rw [usdToNanos, billedValue, orZero_rowValue hnone]
      exact hnanos
    rw [hused, hsame, hevent]
    rfl
  · have hvalue : billedValue values (envelopeRow event) = event.billedCost := rfl
    rw [hused, List.mapM_cons, List.mapM_nil, hvalue]
    cases usdToNanos values event.billedCost with
    | error e => rfl
    | ok nanos => rfl

theorem floatNanos_of_items {rows : List (Row V)} {items : List UsageCallItem}
    (h : List.Forall₂ (ItemOf values) rows items)
    (hreceipt : ∀ row ∈ rows, rowReceipt values row = none) :
    rows.mapM (fun row => floatNanos values (billedValue values row)) =
      .ok (items.map (·.billedCostNanos)) := by
  induction h with
  | nil => rfl
  | cons hitem _ ih =>
      rw [List.mapM_cons, hitem.billed (hreceipt _ List.mem_cons_self),
        ih fun row hrow => hreceipt row (List.mem_cons_of_mem _ hrow)]
      rfl

theorem additive_total (hnone : values.truthy values.none = false) (hdone : isError event = false)
    {reconciles : Bool}
    (hreconciles :
      breakdownReconciles values event (event.modelUsageBreakdown.getD []) = .ok reconciles)
    {result : UsageCallResult}
    (hitems : List.Forall₂ (ItemOf values) (usedRows event reconciles) result.items)
    {counter : V} {keys : List String} (hkeys : (counter, keys) ∈ additiveKeys event)
    (hcounter : rowValue (envelopeRow event) keys values.none = counter)
    {count : UsageCallItem → Nat}
    (hcount : ∀ row item, ItemOf values row item →
      count item = usageInt values (rowValue row keys values.none)) :
    result.total count = usageInt values counter := by
  rw [UsageCallResult.total, total_eq hitems hcount,
    sum_usedRows hnone hdone hreconciles hkeys hcounter]

end

section

variable {V : Type} {values : Values V}

theorem floatNanos_eq {value : V}
    (h : values.float (orZero values value) = values.decimal (orZero values value)) :
    floatNanos values value = usdToNanos values value := by
  rw [floatNanos, usageFloat, usdToNanos, h]
  cases values.decimal (orZero values value) with
  | amount d =>
      dsimp only
      split_ifs with hzero
      · rw [nanos, if_pos hzero]
        rfl
      · rfl
  | _ => rfl

theorem sameNanos_of_floats {event : EventFields V}
    (h : ∀ reconciles, ∀ row ∈ usedRows event reconciles,
      values.float (orZero values (billedValue values row)) =
        values.decimal (orZero values (billedValue values row))) : SameNanos values event := by
  intro reconciles _ _ _
  congr 1
  have hrows := h reconciles
  generalize usedRows event reconciles = rows at hrows ⊢
  induction rows with
  | nil => rfl
  | cons row rest ih =>
      rw [List.mapM_cons, List.mapM_cons, floatNanos_eq (hrows row List.mem_cons_self),
        ih fun other hother => hrows other (List.mem_cons_of_mem _ hother)]

end

/-- A done event is normalized without a loss exactly when its billed costs are the same amounts of
nanos as decimals and as floats. -/
theorem keeps_iff {V : Type} (values : Values V) (hnone : values.truthy values.none = false)
    (event : EventFields V) (hdone : event.kind = "done".toList) (defaultProvider defaultModel : Str)
    (result : UsageCallResult)
    (h : normalizeProviderUsage values event defaultProvider defaultModel = .ok result) :
    Keeps values event result ↔ SameNanos values event := by
  have hkind : isError event = false := by
    rw [isError, hdone]
    decide
  obtain ⟨reconciles, hreconciles, hitems⟩ := exists_items h
  have hbilled : ∀ reconciles',
      breakdownReconciles values event (event.modelUsageBreakdown.getD []) = .ok reconciles' →
      (∀ row ∈ usedRows event reconciles', rowReceipt values row = none) →
      (usdToNanos values event.billedCost = .ok (result.total (·.billedCostNanos)) ↔
        ((usedRows event reconciles').mapM fun row => floatNanos values (billedValue values row)).map
            List.sum =
          ((usedRows event reconciles').mapM fun row =>
            usdToNanos values (billedValue values row)).map List.sum) := by
    intro reconciles' hreconciles' hreceipt
    rw [hreconciles] at hreconciles'
    rw [← Except.ok.inj hreconciles'] at hreceipt ⊢
    rw [sum_usedNanos hnone hkind hreconciles, floatNanos_of_items hitems hreceipt]
    exact eq_comm
  constructor
  · intro hkeeps reconciles' hreconciles' hreceipt hrecognised
    exact (hbilled reconciles' hreconciles' hreceipt).mp
      (hkeeps.billed reconciles' hreconciles' hreceipt hrecognised)
  · intro hsame
    refine ⟨?_, ?_, ?_, ?_, ?_, ?_, ?_⟩
    · have hkeys : (event.inputTokens, ["input_tokens", "inputTokens"]) ∈ additiveKeys event := by
        simp [additiveKeys]
      exact additive_total hnone hkind hreconciles hitems hkeys rfl fun _ _ hitem => hitem.input
    · have hkeys : (event.outputTokens,
          ["output_tokens", "outputTokens"]) ∈
            additiveKeys event := by
        simp [additiveKeys]
      exact additive_total hnone hkind hreconciles hitems hkeys rfl fun _ _ hitem => hitem.output
    · have hkeys : (event.reasoningTokens,
          ["reasoning_tokens", "reasoningTokens"]) ∈
            additiveKeys event := by
        simp [additiveKeys]
      exact additive_total hnone hkind hreconciles hitems hkeys rfl fun _ _ hitem => hitem.reasoning
    · have hkeys : (event.cachedTokens,
          ["cache_read_tokens", "cacheReadTokens", "cached_tokens", "cachedTokens"]) ∈
            additiveKeys event := by
        simp [additiveKeys]
      exact additive_total hnone hkind hreconciles hitems hkeys rfl fun _ _ hitem => hitem.cacheRead
    · have hkeys : (event.cacheWriteTokens,
          ["cache_write_tokens", "cacheWriteTokens"]) ∈
            additiveKeys event := by
        simp [additiveKeys]
      exact additive_total hnone hkind hreconciles hitems hkeys rfl fun _ _ hitem => hitem.cacheWrite
    · intro item hitem
      obtain ⟨row, -, hrow⟩ := exists_of_forall₂_right hitems item hitem
      exact hrow.single
    · intro reconciles' hreconciles' hreceipt hrecognised
      exact (hbilled reconciles' hreconciles' hreceipt).mpr
        (hsame reconciles' hreconciles' hreceipt hrecognised)

/-- `None`, integers, and the text of half a nano less a little. -/
inductive CostValue where
  | none
  | int (n : Nat)
  | text
  deriving DecidableEq

/-- The text is read exactly as a decimal, and as half a nano as a float. -/
def costValues : Values CostValue where
  none := .none
  zero := .int 0
  one := .int 1
  isNone value := value = .none
  truthy value := value ≠ .none ∧ value ≠ .int 0
  str value :=
    match value with
    | .none => "None".toList
    | .int n => decimal n
    | .text => "0.00000000049999999999999999999".toList
  decimal value :=
    match value with
    | .none => .invalid
    | .int n => .amount ⟨n, 0⟩
    | .text => .amount ⟨49999999999999999999, -29⟩
  int value :=
    match value with
    | .int n => some n
    | _ => Option.none
  float value :=
    match value with
    | .none => .invalid
    | .int n => .amount ⟨n, 0⟩
    | .text => .amount ⟨5, -10⟩
  integer value :=
    match value with
    | .int n => some n
    | _ => Option.none
  mapping _ := Option.none
  receipt _ := Option.none
  lower := id
  upper := id
  estimate _ _ _ _ _ _ := .ok (.amount ⟨0, 0⟩, "free".toList, "sample".toList)

def costEvent (cost rowCost : CostValue) : EventFields CostValue where
  kind := "done".toList
  code := .none
  inputTokens := .int 3
  outputTokens := .int 0
  reasoningTokens := .int 0
  cachedTokens := .int 0
  cacheWriteTokens := .int 0
  billedCost := cost
  costSource := .none
  billingReceipt := .none
  provider := .none
  model := .none
  usageMissingCount := .int 0
  modelUsageBreakdown := some [[("inputTokens".toList, .int 3), ("billedCost".toList, rowCost)]]

theorem two_dollars_are_kept : ∃ result,
    normalizeProviderUsage costValues (costEvent (.int 2) (.int 2)) [] [] = .ok result ∧
      Keeps costValues (costEvent (.int 2) (.int 2)) result := by
  obtain ⟨result, hresult⟩ : ∃ result,
      normalizeProviderUsage costValues (costEvent (.int 2) (.int 2)) [] [] = .ok result :=
    exists_of_isOk (by decide +kernel)
  refine ⟨result, hresult, ?_⟩
  apply (keeps_iff costValues (by decide) _ rfl [] [] result hresult).mpr
  apply sameNanos_of_floats
  intro reconciles row hrow
  obtain ⟨-, hused⟩ | hused := usedRows_cases (costEvent (.int 2) (.int 2)) reconciles
  · rw [hused] at hrow
    rw [List.mem_singleton.mp hrow]
    rfl
  · rw [hused] at hrow
    rw [List.mem_singleton.mp hrow]
    rfl

/-- The breakdown is free, and its item costs a nano. -/
theorem not_keeps : ¬ ∀ (V : Type) (values : Values V), values.truthy values.none = false →
    ∀ event : EventFields V, event.kind = "done".toList → ∀ defaultProvider defaultModel result,
      normalizeProviderUsage values event defaultProvider defaultModel = .ok result →
        Keeps values event result := by
  intro h
  have htotal : ((normalizeProviderUsage costValues (costEvent (.int 0) .text) [] []).toOption.map
      fun result => result.total (·.billedCostNanos)) = some 1 := by decide +kernel
  obtain ⟨result, hresult, hbilled⟩ := Option.map_eq_some_iff.mp htotal
  have hkeeps := h CostValue costValues (by decide) (costEvent (.int 0) .text) rfl [] [] result
    (toOption_eq_some.mp hresult)
  have hevent := hkeeps.billed true (by decide +kernel) (by decide) (by decide +kernel)
  rw [hbilled] at hevent
  exact absurd hevent (by decide +kernel)

end OpenStarry.Usage
