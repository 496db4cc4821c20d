import OpenStarry.Compaction.ChunkTexts

/-!
# Fitting a chunk into a request

A chunk and the summary so far go to the summarizing model whole, or with the chunk written shorter
until the request fits. What fits and how many tokens a text has is left open, and so are the float
products that the next length is taken from.
-/

namespace OpenStarry.Compaction

open Lib Lib.Text Lib.Json

structure CompactionExecutionTarget where
  contextWindowTokens : Int
  maxOutputTokens : Int
  providerRequestMaxChars : Int

/-- Estimates of tokens, and arithmetic on floats. -/
structure FitSizes where
  estimateTokens : Str → Int
  /-- `int(numerator / denominator * factor)`, the factor in hundredths. -/
  scaled : Nat → Int → Int → Int
  /-- `int(chars * 0.65)`. -/
  headShare : Nat → Nat
  headShare_le : ∀ chars, headShare chars ≤ chars

/-- `_compaction_target_input_budget`. -/
def compactionTargetInputBudget (windowOfRequest : Int) (target : CompactionExecutionTarget) : Int :=
  let contextWindow :=
    if target.contextWindowTokens ≠ 0 then target.contextWindowTokens else windowOfRequest
  let outputReserve := if target.maxOutputTokens ≠ 0 then target.maxOutputTokens else 1024
  let framingReserve := max 128 (contextWindow / 20)
  let tokenBudget := max 1 (contextWindow - outputReserve - framingReserve)
  let tokenBudget :=
    if 0 < target.providerRequestMaxChars then
      min tokenBudget (max 1 (target.providerRequestMaxChars / 4))
    else tokenBudget
  max 1 (tokenBudget - 256)

/-! ### The two texts -/

def rollingHeader : Str := "[Deterministic rolling context]".toList

def checkpointBody (previousSummary : Str) : Str :=
  let previous := strip previousSummary
  if rollingHeader.isPrefixOf previous then lstrip (previous.drop rollingHeader.length)
  else previous

/-- `_merge_rolling_fallback`. -/
def mergeRollingFallback (previousSummary newSummary : Str) : Str :=
  let parts := [checkpointBody previousSummary, strip newSummary].filter (· ≠ [])
  rollingHeader ++ '\n' :: "\n\n".toList.intercalate parts

/-- `_rolling_chunk_text`. -/
def rollingChunkText (formats : Formats) (previousSummary : Str) (chunk : List Entry) :
    Except FormatError Str := do
  let newContext ← formatChunkForLlm formats chunk
  if previousSummary = [] then return newContext
  return "[Existing portable checkpoint to replace]\n".toList ++ previousSummary ++
    "\n\n[New conversation prefix to incorporate]\n".toList ++ newContext

/-! ### The chunk written shorter -/

section

variable (sizes : FitSizes) (fits : Str → Bool) (budget : Int)

def projectionChars (projection deterministic : Str) : Nat :=
  let currentTokens := max 1 (sizes.estimateTokens projection)
  let excess := max 1 (sizes.estimateTokens deterministic - budget)
  let targetChars := max 0
    (sizes.scaled 80 (projection.length * max 0 (currentTokens - excess)) currentTokens)
  if (projection.length : Int) ≤ targetChars then projection.length - 1 else targetChars.toNat

/-- `chunk_projection[:target_chars].rstrip()`. -/
def shortenedProjection (projection deterministic : Str) : Str :=
  rstrip (projection.take (projectionChars sizes budget projection deterministic))

theorem length_rstrip_le (text : Str) : (rstrip text).length ≤ text.length :=
  (List.rdropWhile_prefix _ _).length_le

theorem length_shortenedProjection_lt {projection : Str} (hne : projection ≠ [])
    (deterministic : Str) :
    (shortenedProjection sizes budget projection deterministic).length < projection.length := by
  have hpos : 0 < projection.length := List.length_pos_iff.mpr hne
  have hchars : projectionChars sizes budget projection deterministic < projection.length := by
    unfold projectionChars
    dsimp only
    split_ifs <;> omega
  have hle := length_rstrip_le
    (projection.take (projectionChars sizes budget projection deterministic))
  rw [List.length_take] at hle
  unfold shortenedProjection
  omega

def shrinkProjection (previousSummary projection : Str) : Str :=
  let deterministic := mergeRollingFallback previousSummary projection
  if _h : projection ≠ [] ∧ fits deterministic = false then
    shrinkProjection previousSummary (shortenedProjection sizes budget projection deterministic)
  else deterministic
termination_by projection.length
decreasing_by exact length_shortenedProjection_lt sizes budget _h.1 _

/-! ### A chunk without a checkpoint -/

def boundedMarker : Str := "\n...[preprojection bounded for target]...\n".toList

def boundedChars (projected : Str) : Nat :=
  let currentTokens := max 1 (sizes.estimateTokens projected)
  let targetChars := max 1 (sizes.scaled 85 (projected.length * budget) currentTokens)
  if (projected.length : Int) ≤ targetChars then projected.length - 1 else targetChars.toNat

def bounded (projected : Str) : Str :=
  let targetChars := boundedChars sizes budget projected
  if targetChars ≤ boundedMarker.length then projected.take targetChars
  else
    let headChars := sizes.headShare (targetChars - boundedMarker.length)
    let tailChars := targetChars - boundedMarker.length - headChars
    projected.take headChars ++ boundedMarker ++
      if 0 < tailChars then projected.drop (projected.length - tailChars) else []

theorem boundedChars_lt {projected : Str} (h : 1 < projected.length) :
    boundedChars sizes budget projected < projected.length := by
  unfold boundedChars
  dsimp only
  split_ifs <;> omega

theorem length_bounded {projected : Str} (h : 1 < projected.length) :
    (bounded sizes budget projected).length = boundedChars sizes budget projected := by
  have hlt := boundedChars_lt sizes budget h
  unfold bounded
  dsimp only
  split_ifs with hmarker htail
  · rw [List.length_take]
    omega
  · have hhead := sizes.headShare_le
      (boundedChars sizes budget projected - boundedMarker.length)
    simp only [List.length_append, List.length_take, List.length_drop]
    omega
  · have hhead := sizes.headShare_le
      (boundedChars sizes budget projected - boundedMarker.length)
    simp only [List.length_append, List.length_take, List.length_nil]
    omega

def boundPreprojection (projected : Str) : Str :=
  if _h : 1 < projected.length ∧ fits projected = false then
    boundPreprojection (bounded sizes budget projected)
  else projected
termination_by projected.length
decreasing_by
  rw [length_bounded sizes budget _h.1]
  exact boundedChars_lt sizes budget _h.1

end

/-! ### The input of a target -/

def accepted (fits : Str → Bool) (text : Str) : Option Str := if fits text then some text else none

/-- `_fit_compaction_input_to_target`. -/
def fitCompactionInputToTarget (formats : Formats) (sizes : FitSizes) (fits : Str → Bool)
    (windowOfRequest : Int) (strict : Bool) (target : CompactionExecutionTarget)
    (previousSummary : Str) (chunk : List Entry) : Except FormatError (Option Str) := do
  let budget := compactionTargetInputBudget windowOfRequest target
  let raw ← rollingChunkText formats previousSummary chunk
  if fits raw then return some raw
  let chunkProjection ← summarizeChunkFallback formats chunk strict
  if previousSummary ≠ [] then
    let previousOnly ← rollingChunkText formats previousSummary []
    if fits previousOnly = false then return none
    return accepted fits (shrinkProjection sizes fits budget previousSummary chunkProjection)
  let deterministic := mergeRollingFallback [] chunkProjection
  let projected := "[Deterministic token-aware preprojection]\n".toList ++ deterministic
  return accepted fits (boundPreprojection sizes fits budget projected)

/-! ### Nothing of the checkpoint is lost -/

theorem checkpointBody_infix_previous (previousSummary : Str) :
    checkpointBody previousSummary <:+: previousSummary := by
  have hstrip : strip previousSummary <:+: previousSummary :=
    (List.rdropWhile_prefix _ _).isInfix.trans (List.dropWhile_suffix _).isInfix
  unfold checkpointBody
  dsimp only
  split_ifs
  · have hlstrip : lstrip ((strip previousSummary).drop rollingHeader.length) <:+:
        strip previousSummary :=
      (List.dropWhile_suffix _).isInfix.trans (List.drop_suffix _ _).isInfix
    exact hlstrip.trans hstrip
  · exact hstrip

theorem checkpointBody_infix_merge (previousSummary newSummary : Str) :
    checkpointBody previousSummary <:+: mergeRollingFallback previousSummary newSummary := by
  unfold mergeRollingFallback
  by_cases hbody : checkpointBody previousSummary = []
  · rw [hbody]
    exact List.nil_infix
  · rw [List.filter_cons_of_pos (by simpa using hbody)]
    refine ⟨rollingHeader ++ ['\n'], ?_⟩
    by_cases hnew : strip newSummary = []
    · exact ⟨[], by simp [hnew]⟩
    · exact ⟨"\n\n".toList ++ strip newSummary, by simp [hnew]⟩

theorem checkpointBody_infix_shrinkProjection (sizes : FitSizes) (fits : Str → Bool) (budget : Int)
    (previousSummary projection : Str) :
    checkpointBody previousSummary <:+:
      shrinkProjection sizes fits budget previousSummary projection := by
  fun_induction shrinkProjection sizes fits budget previousSummary projection with
  | case1 projection deterministic h ih => exact ih
  | case2 projection deterministic h => exact checkpointBody_infix_merge previousSummary projection

theorem checkpointBody_infix_rollingChunkText {formats : Formats} {previousSummary raw : Str}
    {chunk : List Entry} (hne : previousSummary ≠ [])
    (h : rollingChunkText formats previousSummary chunk = .ok raw) :
    checkpointBody previousSummary <:+: raw := by
  obtain ⟨newContext, -, h⟩ := bind_eq_ok.mp h
  rw [if_neg hne, pure_eq_ok] at h
  apply (checkpointBody_infix_previous previousSummary).trans
  rw [← h, List.append_assoc _ _ newContext]
  exact ⟨_, _, rfl⟩

/-! ### What is returned -/

section

variable {formats : Formats} (sizes : FitSizes) (fits : Str → Bool) (windowOfRequest : Int)
  (target : CompactionExecutionTarget) (previousSummary : Str)

def FitsWhole (text : Str) : Prop :=
  fits text = true ∧ (previousSummary ≠ [] → checkpointBody previousSummary <:+: text)

variable {fits} {previousSummary}

theorem fitsWhole_of_accepted {candidate text : Str} (h : accepted fits candidate = some text)
    (hwhole : previousSummary ≠ [] → checkpointBody previousSummary <:+: candidate) :
    FitsWhole fits previousSummary text := by
  unfold accepted at h
  split_ifs at h with hfits
  obtain rfl := Option.some.inj h
  exact ⟨hfits, hwhole⟩

theorem fits_of_readable {chunk : List Entry} (strict : Bool)
    (hchunk : ∀ entry ∈ chunk, ReadableCalls formats entry) :
    ∃ result, fitCompactionInputToTarget formats sizes fits windowOfRequest strict target
        previousSummary chunk = .ok result ∧
      ∀ text, result = some text → FitsWhole fits previousSummary text := by
  obtain ⟨newContext, hcontext⟩ := returns_formatChunkForLlm.mpr hchunk
  obtain ⟨projection, hprojection⟩ := (returns_summarizeChunkFallback strict).mpr hchunk
  have hempty : formatChunkForLlm formats [] = .ok [] := rfl
  have hraw : Returns (rollingChunkText formats previousSummary chunk) := by
    rw [rollingChunkText, hcontext, ok_bind]
    split_ifs
    · exact returns_pure _
    · exact returns_pure _
  obtain ⟨raw, hraw⟩ := hraw
  have honly : Returns (rollingChunkText formats previousSummary []) := by
    rw [rollingChunkText, hempty, ok_bind]
    split_ifs
    · exact returns_pure _
    · exact returns_pure _
  obtain ⟨previousOnly, honly⟩ := honly
  unfold fitCompactionInputToTarget
  dsimp only
  rw [hraw, ok_bind]
  by_cases hfits : fits raw = true
  · rw [if_pos hfits]
    refine ⟨some raw, rfl, fun text htext => ?_⟩
    obtain rfl := Option.some.inj htext
    exact ⟨hfits, fun hne => checkpointBody_infix_rollingChunkText hne hraw⟩
  · rw [if_neg hfits, hprojection, ok_bind]
    by_cases hne : previousSummary ≠ []
    · rw [if_pos hne, honly, ok_bind]
      split_ifs
      · exact ⟨none, rfl, nofun⟩
      · refine ⟨_, rfl, fun text htext => ?_⟩
        exact fitsWhole_of_accepted htext fun _ =>
          checkpointBody_infix_shrinkProjection sizes fits _ previousSummary projection
    · rw [if_neg hne]
      exact ⟨_, rfl, fun text htext => fitsWhole_of_accepted htext fun h => absurd h hne⟩

/-- The fit returns, and what it returns is nothing or a text that the target takes with the whole
checkpoint in it, when the calls of the chunk are readable and only then. -/
theorem fit_returns_whole_iff {chunk : List Entry} (strict : Bool) :
    (∃ result, fitCompactionInputToTarget formats sizes fits windowOfRequest strict target
        previousSummary chunk = .ok result ∧
      ∀ text, result = some text → FitsWhole fits previousSummary text) ↔
      ∀ entry ∈ chunk, ReadableCalls formats entry := by
  constructor
  · intro ⟨result, hresult, _⟩
    obtain ⟨raw, hraw, -⟩ := bind_eq_ok.mp hresult
    obtain ⟨newContext, hcontext, -⟩ := bind_eq_ok.mp hraw
    exact returns_formatChunkForLlm.mp ⟨newContext, hcontext⟩
  · exact fits_of_readable sizes windowOfRequest target strict

end

/-! ### A call whose arguments are a list -/

def blankFormats : Formats where
  lower := id
  repr := fun _ => []
  normal := id
  jsonText := fun _ => []
  digest := fun _ => []

def unitFitSizes : FitSizes where
  estimateTokens := fun text => text.length
  scaled := fun factor numerator denominator => numerator / denominator * factor / 100
  headShare := fun chars => 13 * chars / 20
  headShare_le := fun chars => by omega

/-- A call whose arguments are the text `[1]`. -/
def listCall : Entry :=
  [("role".toList, .str "assistant".toList),
    ("tool_calls".toList, .arr [.obj [("type".toList, .str "tool_use".toList),
      ("name".toList, .str "add".toList), ("input".toList, .str "[1]".toList)]])]

theorem list_arguments_are_not_fitted :
    ¬∃ result, fitCompactionInputToTarget blankFormats unitFitSizes (fun _ => true) 8000 false
        ⟨0, 0, 0⟩ [] [listCall] = .ok result ∧
      ∀ text, result = some text → FitsWhole (fun _ => true) [] text := by
  have herror : fitCompactionInputToTarget blankFormats unitFitSizes (fun _ => true) 8000 false
      ⟨0, 0, 0⟩ [] [listCall] = .error .noGet := by rfl
  intro ⟨result, hresult, _⟩
  rw [herror] at hresult
  cases hresult

end OpenStarry.Compaction
