import Mathlib.Algebra.GroupWithZero.Nat
import OpenStarry.Compaction.Entries
import OpenStarry.Lib.Outcome

/-!
# Compaction of a transcript

The older part of a transcript is replaced by a summary. The cut is taken from the sizes of the
rounds, clipped by the protections and moved back to a round boundary, or it is given by the caller
and only checked. What the summarizing model answers, how texts are measured and how the summary is
built from them is left to the environment.
-/

namespace OpenStarry.Compaction

open Lib Lib.Text

/-- `forced_prefix_cut`. -/
inductive PrefixCut where
  | none
  | int (n : Int)
  | other
  deriving DecidableEq, Repr

inductive CompactionTrigger where
  | tokenBudget
  | messageCount
  deriving DecidableEq, Repr

structure CompactionRequest where
  entries : List Entry
  contextWindowTokens : Int
  contextWindowChars : Option Int
  config : CompactionConfig
  customInstructions : Option Str
  previousSummary : Option Str
  summaryReplayRenderer : Option (Str → Str)
  consumerAdmission : Option (Str → List Entry → Bool)
  forcedPrefixCut : PrefixCut
  trigger : CompactionTrigger

/-- The summary that is kept: its prose, and the fields that are never shortened. -/
structure StructuredSummary where
  currentStatus : Str
  workset : Json

/-- The deadline of the operation passed while a model was being asked. -/
inductive CompactionError where
  | timeout
  deriving DecidableEq, Repr

structure Env where
  texts : Texts
  estimateTokens : Str → Nat
  /-- `_json_text`. -/
  jsonText : Json → Str
  /-- `int(value or 0)`, where it does not raise. -/
  intOf : Json → Option Int
  /-- The chunks a transcript is summarized in by a model. -/
  chunkEntries : CompactionRequest → List Entry → List (List Entry)
  /-- What a model answers for a chunk, with the summary so far. -/
  callModel : Nat → Str → List Entry → Except CompactionError (Option Str)
  /-- The summary so far with a chunk that no model summarized. -/
  fallbackText : Str → List Entry → Str
  /-- `build_structured_summary_from_text`, and whether a critical obligation is missing. -/
  structuredSummary : Str → List Entry → Bool → Nat → StructuredSummary × Bool
  render : StructuredSummary → Str

variable (env : Env)

/-! ### Sizes -/

/-- `estimate_entry_model_replay_tokens`. -/
def entryTokens (entry : Entry) : Nat :=
  let content := entry.get "content"
  let persisted := (env.intOf (entry.get "token_count")).getD 0
  let estimated := if content.truthy then env.estimateTokens (env.texts.str content) else 0
  let parts :=
    (if (entry.get "tool_calls").truthy then [env.jsonText (entry.get "tool_calls")] else []) ++
      (if (entry.get "tool_call_id").truthy then [env.texts.str (entry.get "tool_call_id")] else []) ++
      (if (entry.get "reasoning_content").truthy then
        [env.texts.str (entry.get "reasoning_content")] else [])
  let extra := if parts = [] then 0 else env.estimateTokens (['\n'].intercalate parts)
  (max persisted estimated).toNat + extra

def tokensOf (entries : List Entry) : Nat := (entries.map (entryTokens env)).sum

/-- `_entry_model_replay_payload`. -/
def entryModelReplayPayload (entry : Entry) : Json :=
  .obj ([("role".toList, .str (env.texts.strOr (entry.get "role"))),
      ("content".toList, either (entry.get "content") (.str []))] ++
    (["tool_calls", "tool_call_id", "reasoning_content"].filter fun key =>
      (entry.get key).truthy).map fun key => (key.toList, entry.get key))

/-- `estimate_entries_model_replay_chars`. -/
def replayChars (entries : List Entry) : Nat :=
  if entries = [] then 0
  else (env.jsonText (.arr (entries.map (entryModelReplayPayload env)))).length

/-! ### Where to cut -/

/-- `value or 0` of an optional bound that is met by every value when it is missing. -/
def within (n : Nat) : Option Int → Bool
  | none => true
  | some bound => n ≤ bound

def keepWalk (keepBudget : Int) (keepCharBudget : Option Int) :
    List (List Entry) → Nat → Nat → Nat → Nat
  | [], _, _, keepStart => keepStart
  | group :: older, keptTokens, keptChars, keepStart =>
      let tokens := keptTokens + tokensOf env group
      let chars := keptChars + replayChars env group
      if tokens ≤ keepBudget ∧ within chars keepCharBudget then
        keepWalk keepBudget keepCharBudget older tokens chars (keepStart - group.length)
      else keepStart

/-- `_find_turn_boundary_cut`. -/
def findTurnBoundaryCut (entries : List Entry) (keepBudget : Int) (keepCharBudget : Option Int) :
    Nat :=
  if entries = [] then 0
  else
    let groups := apiRoundGroups env.texts entries
    if groups = [] then 0
    else
      let keepStart := keepWalk env keepBudget keepCharBudget groups.reverse 0 0 entries.length
      if keepStart = 0 then 0
      else if keepStart = entries.length then entries.length
      else retreatToApiRoundBoundary env.texts entries keepStart

/-- `_validate_forced_prefix_cut`: the cut, or why it is refused. -/
def validateForcedPrefixCut (entries : List Entry) (cut : PrefixCut) (cfg : CompactionConfig) :
    Except String (Option Nat) :=
  match cut with
  | .none => pure none
  | .other => throw "invalid_forced_prefix_cut"
  | .int n =>
      if n ≤ 0 ∨ entries.length < n then throw "invalid_forced_prefix_cut"
      else if retreatToTurnBoundary env.texts entries n.toNat ≠ n.toNat then
        throw "forced_prefix_cut_splits_tool_segment"
      else if applyProtectedTail env.texts entries n.toNat cfg ≠ n.toNat then
        throw "forced_prefix_cut_overlaps_protected_tail"
      else if retreatToApiRoundBoundary env.texts entries n.toNat ≠ n.toNat then
        throw "forced_prefix_cut_splits_api_round"
      else pure (some n.toNat)

def protectedCut (request : CompactionRequest) : Nat :=
  let keepCharBudget := request.contextWindowChars.map fun chars => max 1 (chars / 2)
  applyProtectedTail env.texts request.entries
    (findTurnBoundaryCut env request.entries (request.contextWindowTokens / 2) keepCharBudget)
    request.config

def chooseCut (request : CompactionRequest) (forced : Option Nat) : Nat :=
  if request.entries = [] then 0
  else forced.getD (retreatToApiRoundBoundary env.texts request.entries (protectedCut env request))

/-! ### The summary -/

inductive SummarySource where
  | skipped
  | fallback
  | llm
  | mixed
  deriving DecidableEq, Repr

/-- The summary so far, and how many chunks a model and the fallback contributed. -/
structure Rolling where
  text : Str
  llmChunks : Nat
  fallbackChunks : Nat

def askModel (cfg : CompactionConfig) (index : Nat) (rolling : Str) (chunk : List Entry) :
    Except CompactionError (Option Str) :=
  if cfg.networkEnabled then env.callModel index rolling chunk else pure none

def rollChunk (rolling : Rolling) (chunk : List Entry) : Option Str → Rolling
  | some (c :: rest) => ⟨strip (c :: rest), rolling.llmChunks + 1, rolling.fallbackChunks⟩
  | _ => ⟨env.fallbackText rolling.text chunk, rolling.llmChunks, rolling.fallbackChunks + 1⟩

def summarizeChunks (cfg : CompactionConfig) :
    Nat → Rolling → List (List Entry) → Except CompactionError Rolling
  | _, rolling, [] => pure rolling
  | index, rolling, chunk :: rest =>
      askModel env cfg index rolling.text chunk >>= fun answer =>
        summarizeChunks cfg (index + 1) (rollChunk env rolling chunk answer) rest

def planChunks (request : CompactionRequest) (toCompact : List Entry) (replaceOnly : Bool) :
    List (List Entry) × Nat :=
  let chunks :=
    if replaceOnly then [[]]
    else if request.config.networkEnabled then env.chunkEntries request toCompact
    else [toCompact]
  if request.config.networkEnabled ∧ request.config.llmCallLimit < chunks.length then
    (chunks, chunks.length - request.config.llmCallLimit)
  else (chunks, 0)

def prepruned (previous : Str) (chunks : List (List Entry)) (count : Nat) : Rolling :=
  if count = 0 then ⟨previous, 0, 0⟩
  else ⟨env.fallbackText previous (chunks.take count).flatten, 0, 1⟩

def summarySource (rolling : Rolling) : SummarySource :=
  if rolling.llmChunks ≠ 0 ∧ rolling.fallbackChunks ≠ 0 then .mixed
  else if rolling.llmChunks ≠ 0 then .llm
  else .fallback

def marker : Str := "\n...[checkpoint prose bounded; structured workset retained]...\n".toList

/-- `bounded`. -/
def boundedText (original : Str) (chars : Nat) : Str :=
  if original.length ≤ chars then original
  else if chars ≤ marker.length then original.take chars
  else
    let available := chars - marker.length
    let head := available * 65 / 100
    original.take head ++ marker ++ original.drop (original.length - (available - head))

/-- The longest bounded text that was found to fit, searched for between `low` and `stop`. -/
def searchBound (original : Str) (fits : Str → Bool) : Nat → Nat → Nat → Str → Str
  | 0, _, _, best => best
  | fuel + 1, low, stop, best =>
      if low < stop then
        let middle := (low + stop - 1) / 2
        let candidate := boundedText original middle
        if fits candidate then searchBound original fits fuel (middle + 1) stop candidate
        else searchBound original fits fuel low middle best
      else best

/-- `_fit_structured_summary_current_status`. -/
def fitStructuredSummaryCurrentStatus (summary : StructuredSummary) (maxTokens : Int)
    (maxChars : Option Int) : StructuredSummary :=
  let fits (status : Str) : Bool :=
    let rendered := env.render { summary with currentStatus := status }
    (env.estimateTokens rendered : Int) ≤ max 1 maxTokens ∧
      within rendered.length (maxChars.map (max 1))
  if fits summary.currentStatus then summary
  else if !fits [] then summary
  else
    { summary with
      currentStatus :=
        searchBound summary.currentStatus fits (summary.currentStatus.length + 2) 0
          (summary.currentStatus.length + 1) [] }

/-! ### Results -/

structure QualityReport where
  protectedTailPreserved : Bool
  fitsContextWindow : Bool
  fitsCharacterWindow : Bool
  passesStructuralGate : Bool

/-- `_compaction_quality_report`. -/
def compactionQualityReport (request : CompactionRequest) (kept : List Entry)
    (tokensBefore tokensAfter removedCount charsAfter : Nat) (replacesPreviousSummary : Bool) :
    QualityReport :=
  let protectedRecent := profileProtectedRecentMessages request.config
  let protectedTail := request.entries.drop (request.entries.length - protectedRecent)
  let tailPreserved := protectedRecent = 0 ∨
    protectedTail.length ≤ kept.length ∧
      kept.drop (kept.length - protectedTail.length) = protectedTail
  let fitsWindow := (tokensAfter : Int) ≤ request.contextWindowTokens
  let fitsChars := within charsAfter request.contextWindowChars
  ⟨tailPreserved, fitsWindow, fitsChars,
    (0 < removedCount ∨ replacesPreviousSummary) ∧ tailPreserved ∧ fitsWindow ∧ fitsChars ∧
      (tokensAfter < tokensBefore ∨ request.trigger = .messageCount)⟩

structure CompactionResult where
  summary : Str
  keptEntries : List Entry
  removedCount : Nat
  chunksProcessed : Nat
  summarySource : SummarySource
  tokensBefore : Nat
  tokensAfter : Nat
  remainingBudgetTokens : Int
  summaryPayload : Option StructuredSummary
  skipReason : Option String
  qualityReport : Option QualityReport
  keptStartIndex : Nat
  replacedPreviousSummary : Bool

def skipped (request : CompactionRequest) (totalTokens : Nat) (reason : String) :
    CompactionResult where
  summary := []
  keptEntries := request.entries
  removedCount := 0
  chunksProcessed := 0
  summarySource := .skipped
  tokensBefore := totalTokens
  tokensAfter := totalTokens
  remainingBudgetTokens := max (request.contextWindowTokens - totalTokens) 0
  summaryPayload := none
  skipReason := some reason
  qualityReport := none
  keptStartIndex := 0
  replacedPreviousSummary := false

def refused (request : CompactionRequest) (totalTokens chunks : Nat) (source : SummarySource)
    (summary : StructuredSummary) (report : QualityReport) (reason : String) :
    CompactionResult :=
  { skipped request totalTokens reason with
    chunksProcessed := chunks
    summarySource := source
    summaryPayload := some summary
    qualityReport := some report }

/-! ### The compaction -/

def previousSummaryPrefix : Str := "__prev_summary__:".toList

def previousSummaryOf (request : CompactionRequest) : Str :=
  let instructions := request.customInstructions.getD []
  match request.previousSummary with
  | some text => strip text
  | none =>
      if previousSummaryPrefix.isPrefixOf instructions then
        (instructions.drop previousSummaryPrefix.length).takeWhile (· ≠ '\n')
      else []

def replayed (request : CompactionRequest) (text : Str) : Str :=
  match request.summaryReplayRenderer with
  | some renderer => renderer text
  | none => text

/-- The sizes a compaction starts from. -/
structure Sizes where
  previousSummary : Str
  previousSummaryTokens : Nat
  totalTokens : Nat
  overBudget : Bool

def sizesOf (request : CompactionRequest) : Sizes :=
  let previous := previousSummaryOf request
  let replay := if previous = [] then previous else replayed request previous
  let previousTokens := if replay = [] then 0 else env.estimateTokens replay
  let total := tokensOf env request.entries + previousTokens
  let totalChars := replayChars env request.entries + replay.length
  ⟨previous, previousTokens, total,
    request.config.overBudget total request.contextWindowTokens ||
      !within totalChars request.contextWindowChars⟩

def wrapperProbe : Str := "__OPEN_SQUILLA_SUMMARY_BODY__".toList

/-- The structured summary, bounded to what the window leaves beside the kept entries. -/
def boundedSummary (request : CompactionRequest) (kept : List Entry) (summary : StructuredSummary) :
    StructuredSummary :=
  let probed := (request.summaryReplayRenderer.map fun renderer => renderer wrapperProbe).getD []
  let wrapperTokens := if probed = [] then 0 else env.estimateTokens probed
  let wrapperChars := if probed = [] then 0 else probed.length - wrapperProbe.length
  fitStructuredSummaryCurrentStatus env summary
    (max 1 (request.contextWindowTokens - tokensOf env kept - wrapperTokens))
    (request.contextWindowChars.map fun chars =>
      max 1 (chars - replayChars env kept - wrapperChars))

def obligationEntries (sizes : Sizes) (toCompact : List Entry) : List Entry :=
  if sizes.previousSummary = [] then toCompact
  else
    [("role".toList, .str "assistant".toList), ("content".toList, .str sizes.previousSummary)]
      :: toCompact

/-- What happens once the chunks are summarized: the summary is built and has to pass the gates. -/
def finish (request : CompactionRequest) (sizes : Sizes) (cut : Nat) (replaceOnly : Bool)
    (chunks : Nat) (rolling : Rolling) : CompactionResult :=
  let kept := request.entries.drop cut
  let toCompact := request.entries.take cut
  let source := summarySource rolling
  let built := env.structuredSummary rolling.text (obligationEntries sizes toCompact)
    (sizes.previousSummary ≠ []) sizes.previousSummaryTokens
  let summary := boundedSummary env request kept built.1
  let replaySummary := env.render summary
  let consumerReplay := replayed request replaySummary
  let tokensAfter := env.estimateTokens consumerReplay + tokensOf env kept
  let charsAfter := consumerReplay.length + replayChars env kept
  if request.config.coverageBlocking ∧ built.2 then
    refused request sizes.totalTokens chunks source summary
      (compactionQualityReport request request.entries sizes.totalTokens sizes.totalTokens 0
        charsAfter replaceOnly)
      "coverage_blocked"
  else
    let report := compactionQualityReport request kept sizes.totalTokens tokensAfter
      toCompact.length charsAfter replaceOnly
    if !(request.consumerAdmission.map fun admits => admits replaySummary kept).getD true then
      refused request sizes.totalTokens chunks source summary report "consumer_admission_failed"
    else if !report.passesStructuralGate then
      refused request sizes.totalTokens chunks source summary report "quality_gate_failed"
    else
      { summary := summary.currentStatus
        keptEntries := kept
        removedCount := toCompact.length
        chunksProcessed := chunks
        summarySource := source
        tokensBefore := sizes.totalTokens
        tokensAfter
        remainingBudgetTokens := max (request.contextWindowTokens - tokensAfter) 0
        summaryPayload := some summary
        skipReason := none
        qualityReport := some report
        keptStartIndex := cut
        replacedPreviousSummary := replaceOnly }

def summarizeAndFinish (request : CompactionRequest) (sizes : Sizes) (cut : Nat)
    (replaceOnly : Bool) : Except CompactionError CompactionResult :=
  let plan := planChunks env request (request.entries.take cut) replaceOnly
  let start := prepruned env sizes.previousSummary plan.1 plan.2
  (summarizeChunks env request.config 1 start (plan.1.drop plan.2)).map
    (finish env request sizes cut replaceOnly plan.1.length)

/-- What is done with a request whose forced cut, if any, was accepted. -/
def compactAt (request : CompactionRequest) (sizes : Sizes) (forced : Option Nat) :
    Except CompactionError CompactionResult :=
  if forced = none ∧ ¬ sizes.overBudget then
    pure (skipped request sizes.totalTokens "within_compaction_budget")
  else
    let cut := chooseCut env request forced
    if request.entries.take cut ≠ [] then
      summarizeAndFinish env request sizes cut false
    else if sizes.previousSummary ≠ [] ∧ sizes.overBudget then
      summarizeAndFinish env request sizes 0 true
    else
      pure (skipped request sizes.totalTokens
        (if 0 < profileProtectedRecentMessages request.config then
          "protected_tail_exhausts_compaction_window"
        else "no_safe_turn_boundary"))

/-- `compact_context_new`. -/
def compactContextNew (request : CompactionRequest) : Except CompactionError CompactionResult :=
  let sizes := sizesOf env request
  if request.entries = [] ∧ sizes.previousSummary = [] then
    pure { skipped request 0 "no_entries" with
      remainingBudgetTokens :=
        max (request.contextWindowTokens - sizes.previousSummaryTokens) 0 }
  else
    match validateForcedPrefixCut env request.entries request.forcedPrefixCut request.config with
    | .error reason => pure (skipped request sizes.totalTokens reason)
    | .ok forced => compactAt env request sizes forced

end OpenStarry.Compaction
