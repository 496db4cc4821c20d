import OpenStarry.Lib.SortedSize
import OpenStarry.Replay.Projection

/-!
# The length of projected payloads

What stands for a payload has a length of its own: the fixed lines, the names, the numbers and the
two ends that are shown. A payload gets no longer exactly when what is left out is at least as long.
-/

namespace OpenStarry.Replay

open Lib Lib.Text Lib.Json

variable {σ β : Type} (runtime : Runtime)

/-! ### Lengths -/

def lastPart (text : Str) : Str := text.drop (text.length - 240)

def shownChars (text : Str) : Nat :=
  escapedChars (text.take 240) +
    if lastPart text = text.take 240 then 0 else escapedChars (lastPart text) + 14

def argumentStubChars (block : ToolUse) (inputChars : Nat) (field : Str × Json) : Nat :=
  285 + escapedChars block.name + escapedChars block.id + escapedChars field.1 +
    (decimal (argumentText field.2).length).length + (decimal inputChars).length +
    (decimal ((argumentText field.2).length - 480)).length + shownChars (argumentText field.2)

def longFields (block : ToolUse) : Dict := block.input.filter fun field => isLong field.2

def omissionSizes (block : ToolUse) (inputChars : Nat) : List (String × Nat) :=
  [("_opensquilla_compacted_tool_arguments", 4),
    ("tool", escapedChars block.name + 2),
    ("reason", 35),
    ("original_chars", (decimal inputChars).length),
    ("argument_keys", (block.input.map fun field => escapedChars field.1 + 4).sum)]

/-- What is left out of the input is at least as long as what stands for it. -/
def UseFits (block : ToolUse) : Prop :=
  let inputChars := jsonChars (.obj block.input)
  keepsInput block = false →
    if longFields block = [] then
      ((omissionSizes block inputChars).map fun field =>
          addedChars block.input field.1 field.2).sum ≤
        ((omissionSizes block inputChars).map fun field => freedChars block.input field.1).sum
    else
      ((longFields block).map (argumentStubChars block inputChars)).sum ≤
        ((longFields block).map fun field => jsonChars field.2).sum

def resultPartChars (content toolUseId : Str) : Nat :=
  toolUseId.length + (decimal content.length).length + (decimal (content.length - 480)).length +
    if lastPart content = content.take 240 then 240 else 491

def preservedLines (content : Str) : List Str :=
  (splitlines content).take 1 ++ (splitlines content).tail.filter isPreserved

def resultStubChars (content toolUseId : Str) : Nat :=
  if isProjection content then
    425 + ((preservedLines content).map fun line => line.length + 1).sum +
      resultPartChars content toolUseId
  else 463 + resultPartChars content toolUseId

section

variable (recoverableReferences : Str × Str → Prop)

def ResultFits (block : ToolResult σ) : Prop :=
  historicalToolResultMaxChars < block.content.asText.length →
    ∀ reference, recoverableToolResultReference runtime block.content.asText = some reference →
      recoverableReferences reference →
        resultStubChars block.content.asText block.toolUseId ≤ block.content.asText.length

def BlockFits : Block σ β → Prop
  | .toolUse block => UseFits block
  | .toolResult block => ResultFits runtime recoverableReferences block
  | .other _ => True

end

/-! ### Stubs -/

theorem escape_of_isLowerHex {c : Char} (h : isLowerHex c = true) : escape c = [c] := by
  have hall : ∀ c ∈ "0123456789abcdef".toList, escape c = [c] := by decide
  exact hall c (of_decide_eq_true h)

theorem length_sha256 (text : Str) : (runtime.sha256 text).1.length = 64 := by
  have h := (runtime.sha256 text).2
  rw [isSha256, Bool.and_eq_true] at h
  exact beq_iff_eq.mp h.1

theorem escapedChars_sha256 (text : Str) : escapedChars (runtime.sha256 text) = 64 := by
  have h := (runtime.sha256 text).2
  rw [isSha256, Bool.and_eq_true] at h
  have hhex := List.all_eq_true.mp h.2
  rw [escapedChars_eq_length fun c hc => escape_of_isLowerHex (hhex c hc)]
  exact length_sha256 runtime text

theorem escapedChars_labelled (label : String) (value : Str) :
    escapedChars (labelled label value) = escapedChars label.toList + 2 + escapedChars value := by
  rw [labelled, escapedChars_append, escapedChars_append]
  rfl

theorem length_labelled (label : String) (value : Str) :
    (labelled label value).length = label.toList.length + 2 + value.length := by
  rw [labelled, List.length_append, List.length_append]
  rfl

theorem headTail_of_long {text : Str} (h : 480 < text.length) :
    headTail text historicalToolResultPreviewChars =
      (text.take 240, lastPart text, text.length - 480) := by
  have homitted : text.length - 480 = text.length - 240 - 240 := by omega
  rw [headTail, historicalToolResultPreviewChars, if_neg (by omega), homitted]
  rfl

theorem lastPart_ne_nil {text : Str} (h : 480 < text.length) : lastPart text ≠ [] := by
  rw [lastPart, Ne, List.drop_eq_nil_iff]
  omega

theorem length_lastPart {text : Str} (h : 480 < text.length) : (lastPart text).length = 240 := by
  rw [lastPart, List.length_drop]
  omega

theorem sum_previewLines {text : Str} (h : 480 < text.length) :
    ((previewLines (text.take 240) (lastPart text)).map fun line => escapedChars line + 2).sum =
      9 + shownChars text := by
  have hhead : escapedChars "head:".toList = 5 := by decide
  have htail : escapedChars "tail:".toList = 5 := by decide
  have hdots : escapedChars "...".toList = 3 := by decide
  rw [previewLines, shownChars]
  by_cases hsame : lastPart text = text.take 240
  · rw [if_neg fun hshown => hshown.2 hsame, if_pos hsame]
    simp only [List.append_nil, List.map_cons, List.map_nil, List.sum_cons, List.sum_nil, hhead]
    omega
  · rw [if_pos ⟨lastPart_ne_nil h, hsame⟩, if_neg hsame]
    simp only [List.cons_append, List.nil_append, List.map_cons, List.map_nil, List.sum_cons,
      List.sum_nil, hhead, htail, hdots]
    omega

theorem length_previewLines {text : Str} (h : 480 < text.length) :
    ((previewLines (text.take 240) (lastPart text)).map fun line => line.length + 1).sum =
      7 + if lastPart text = text.take 240 then 240 else 491 := by
  have hhead : "head:".toList.length = 5 := by decide
  have htail : "tail:".toList.length = 5 := by decide
  have hdots : "...".toList.length = 3 := by decide
  have htake : (text.take 240).length = 240 := by
    rw [List.length_take]
    omega
  have hlast := length_lastPart h
  rw [previewLines]
  by_cases hsame : lastPart text = text.take 240
  · rw [if_neg fun hshown => hshown.2 hsame, if_pos hsame]
    simp only [List.append_nil, List.map_cons, List.map_nil, List.sum_cons, List.sum_nil, hhead,
      htake, Nat.reduceAdd]
  · rw [if_pos ⟨lastPart_ne_nil h, hsame⟩, if_neg hsame]
    simp only [List.cons_append, List.nil_append, List.map_cons, List.map_nil, List.sum_cons,
      List.sum_nil, hhead, htail, hdots, htake, hlast, Nat.reduceAdd]

theorem sortedChars_toolArgumentProjection {block : ToolUse} {field : Str × Json}
    (hlong : isLong field.2 = true) (inputChars : Nat) :
    sortedChars (.str (toolArgumentProjection runtime block.name block.id field.1
      (argumentText field.2) inputChars)) = argumentStubChars block inputChars field := by
  have hlength : 480 < (argumentText field.2).length := by
    have := of_decide_eq_true hlong
    rw [historicalToolArgumentFieldMaxChars] at this
    omega
  have hmark : escapedChars "[historical_tool_argument_omitted]".toList = 34 := by decide
  have htool : escapedChars "tool".toList = 4 := by decide
  have huse : escapedChars "tool_use_id".toList = 11 := by decide
  have hfield : escapedChars "field".toList = 5 := by decide
  have hchars : escapedChars "original_chars".toList = 14 := by decide
  have hinput : escapedChars "original_input_chars".toList = 20 := by decide
  have hsha : escapedChars "sha256".toList = 6 := by decide
  have homitted : escapedChars "omitted_chars".toList = 13 := by decide
  have hreason : escapedChars
    "reason: historical tool argument omitted from later-turn provider replay.".toList = 73 := by
    decide
  rw [sortedChars_str, toolArgumentProjection, headTail_of_long hlength, argumentStubChars]
  apply (escapedChars_unlines (by simp)).trans
  rw [List.map_append, List.sum_append, sum_previewLines hlength]
  simp only [List.map_cons, List.map_nil, List.sum_cons, List.sum_nil, escapedChars_labelled,
    escapedChars_sha256, escapedChars_decimal, hmark, htool, huse, hfield, hchars, hinput, hsha,
    homitted, hreason]
  omega

theorem length_compactHistoricalText {text : Str} (hlong : 480 < text.length) (label : String)
    (metadata : List (String × Str)) :
    (compactHistoricalText runtime text label metadata).length =
      193 + label.toList.length +
        (metadata.map fun field => field.1.toList.length + field.2.length + 3).sum +
        (decimal text.length).length + (decimal (text.length - 480)).length +
        if lastPart text = text.take 240 then 240 else 491 := by
  have hmark : "_compacted]".toList.length = 11 := by decide
  have hchars : "original_chars".toList.length = 14 := by decide
  have hsha : "sha256".toList.length = 6 := by decide
  have homitted : "omitted_chars".toList.length = 13 := by decide
  have hreason :
    "reason: historical payload omitted from later-turn provider replay.".toList.length = 67 := by
    decide
  have hmetadata : ((metadata.map fun field => labelled field.1 field.2).map
        fun line => line.length + 1).sum =
      (metadata.map fun field => field.1.toList.length + field.2.length + 3).sum := by
    rw [List.map_map]
    congr 1
    apply List.map_congr_left
    intro field _
    simp only [Function.comp, length_labelled]
    omega
  have hlines := length_previewLines hlong
  rw [compactHistoricalText, headTail_of_long hlong]
  apply Nat.add_right_cancel (m := 1)
  apply (length_unlines (by simp)).trans
  rw [List.map_append, List.map_append, List.sum_append, List.sum_append, hmetadata, hlines]
  simp only [List.map_cons, List.map_nil, List.sum_cons, List.sum_nil, length_labelled,
    length_sha256, List.length_append, List.length_cons, hmark, hchars, hsha, homitted, hreason]
  omega

theorem valid_of_checkedReference {handle sha256 : Str} {reference : Str × Str}
    (h : checkedReference handle sha256 = some reference) :
    isHandle reference.1 = true ∧ isSha256 reference.2 = true := by
  rw [checkedReference] at h
  split_ifs at h with hhandle hsha
  obtain rfl := Option.some.inj h
  rw [Bool.not_eq_false] at hhandle hsha
  exact ⟨hhandle, hsha⟩

theorem valid_of_reference {content : Str} {reference : Str × Str}
    (h : recoverableToolResultReference runtime content = some reference) :
    isHandle reference.1 = true ∧ isSha256 reference.2 = true := by
  rw [recoverableToolResultReference] at h
  split_ifs at h
  · exact valid_of_checkedReference h
  · exact valid_of_checkedReference h
  · obtain ⟨value, -, h⟩ := Option.bind_eq_some_iff.mp h
    obtain ⟨payload, -, h⟩ := Option.bind_eq_some_iff.mp h
    rw [truncatedReference] at h
    split_ifs at h
    split at h
    · exact valid_of_checkedReference h
    · exact nomatch h

theorem length_reference {content : Str} {reference : Str × Str}
    (h : recoverableToolResultReference runtime content = some reference) :
    reference.1.length = 35 ∧ reference.2.length = 64 := by
  obtain ⟨hhandle, hsha⟩ := valid_of_reference runtime h
  rw [isHandle, Bool.and_eq_true, Bool.and_eq_true, beq_iff_eq, List.length_drop] at hhandle
  rw [isSha256, Bool.and_eq_true, beq_iff_eq] at hsha
  constructor
  · omega
  · exact hsha.1

theorem length_compactedResult {content : Str} (toolUseId : Str) {reference : Str × Str}
    (hlong : historicalToolResultMaxChars < content.length)
    (hreference : recoverableToolResultReference runtime content = some reference) :
    (compactedResult runtime content toolUseId reference).length =
      resultStubChars content toolUseId := by
  have hlength : 480 < content.length := by
    rw [historicalToolResultMaxChars] at hlong
    omega
  have huse : "tool_use_id".toList.length = 11 := by decide
  rw [compactedResult, resultStubChars, resultPartChars]
  by_cases hprojection : isProjection content = true
  · have hnote : "historical_replay_projection".toList.length = 28 := by decide
    have htext :
        "recoverability header preserved; projected body compacted.".toList.length = 58 := by decide
    have hsha : "historical_replay_sha256".toList.length = 24 := by decide
    have hlabel : "historical_tool_result_projection_body".toList.length = 38 := by decide
    rw [if_pos hprojection, if_pos hprojection, compactHistoricalToolResultProjection]
    apply Nat.add_right_cancel (m := 1)
    apply (length_unlines (by simp)).trans
    rw [← preservedLines, List.map_append, List.sum_append]
    simp only [List.map_cons, List.map_nil, List.sum_cons, List.sum_nil, length_labelled,
      length_sha256, length_compactHistoricalText runtime hlength, hnote, htext, hsha, hlabel, huse]
    omega
  · have hlabel : "historical_tool_result".toList.length = 22 := by decide
    have hhint : "retrieve_hint".toList.length = 13 := by decide
    have htext : ("Use retrieve_tool_result with this handle to inspect the original raw output."
        ).toList.length = 77 := by decide
    have hhandle : "tool_result_handle".toList.length = 18 := by decide
    have hsha : "tool_result_sha256".toList.length = 18 := by decide
    obtain ⟨hfirst, hsecond⟩ := length_reference runtime hreference
    rw [if_neg hprojection, if_neg hprojection, length_compactHistoricalText runtime hlength,
      resultMetadata]
    simp only [List.map_cons, List.map_nil, List.sum_cons, List.sum_nil, hlabel, hhint, htext,
      hhandle, hsha, huse, hfirst, hsecond]
    omega

/-! ### Inputs -/

theorem longFields_eq_nil_iff {block : ToolUse} :
    longFields block = [] ↔ (block.input.any fun field => isLong field.2) = false := by
  rw [longFields, List.filter_eq_nil_iff, List.any_eq_false]

theorem jsonChars_obj {d : Dict} (hne : d ≠ []) : jsonChars (.obj d) = (d.map fieldChars).sum :=
  sortedChars_obj hne

theorem input_ne_nil {block : ToolUse} (h : keepsInput block = false) : block.input ≠ [] := by
  intro hnil
  rw [keepsInput, hnil] at h
  exact absurd h (by decide)

theorem sum_projectedFields (block : ToolUse) (inputChars : Nat) :
    ((projectedFields runtime block inputChars).map fieldChars).sum +
        ((longFields block).map fun field => jsonChars field.2).sum =
      (block.input.map fieldChars).sum +
        ((longFields block).map (argumentStubChars block inputChars)).sum := by
  have hchars : ∀ value, jsonChars value = sortedChars value := fun _ => rfl
  rw [projectedFields, longFields]
  generalize block.input = fields
  rw [List.map_map]
  induction fields with
  | nil => simp
  | cons field rest ih =>
      rw [List.filter_cons, List.map_cons, List.map_cons, List.sum_cons, List.sum_cons,
        Function.comp_apply, fieldChars, fieldChars]
      by_cases hlong : isLong field.2 = true
      · rw [if_pos hlong, if_pos hlong,
          sortedChars_toolArgumentProjection runtime hlong inputChars]
        simp only [List.map_cons, List.sum_cons, hchars] at ih ⊢
        omega
      · simp only [if_neg hlong]
        omega

theorem projectedFields_eq_self {block : ToolUse} (h : longFields block = []) (inputChars : Nat) :
    projectedFields runtime block inputChars = block.input := by
  rw [longFields, List.filter_eq_nil_iff] at h
  rw [projectedFields]
  conv_rhs => rw [← List.map_id block.input]
  apply List.map_congr_left
  intro field hfield
  rw [if_neg (h field hfield)]
  rfl

theorem sum_omissionFields {block : ToolUse} (hne : block.input ≠ []) (inputChars : Nat)
    (d : Dict) :
    ((omissionFields block inputChars).map fun field =>
        addedChars d field.1 (sortedChars field.2)).sum =
      ((omissionSizes block inputChars).map fun field => addedChars d field.1 field.2).sum := by
  have htrue : sortedChars (.bool true) = 4 := by decide
  have hreason : sortedChars (.str "historical_tool_arguments_omitted".toList) = 35 := by decide
  have hperm := sortByKey_perm block.input
  have hkeys : sortedChars (.arr ((sortByKey block.input).map fun field => .str field.1)) =
      (block.input.map fun field => escapedChars field.1 + 4).sum := by
    have hsorted : (sortByKey block.input).map (fun field => Json.str field.1) ≠ [] := by
      rw [Ne, List.map_eq_nil_iff]
      intro hnil
      rw [hnil] at hperm
      exact hne hperm.symm.eq_nil
    rw [sortedChars_arr hsorted, List.map_map]
    have hmap : ((fun x => sortedChars x + 2) ∘ fun field : Str × Json => Json.str field.1) =
        fun field => escapedChars field.1 + 4 := by
      funext field
      rw [Function.comp_apply, sortedChars_str]
    rw [hmap]
    exact (hperm.map _).sum_nat
  simp only [omissionFields, omissionSizes, List.map_cons, List.map_nil, htrue, hreason, hkeys,
    sortedChars_str, sortedChars_ofNat]

theorem input_of_longFields {block : ToolUse} (hkeep : keepsInput block = false)
    (hlong : longFields block ≠ []) : (projectHistoricalToolUse runtime block).1.input =
      projectedFields runtime block (jsonChars (.obj block.input)) := by
  have hany : (block.input.any fun field => isLong field.2) = true := by
    rw [← Bool.not_eq_false]
    exact mt longFields_eq_nil_iff.mpr hlong
  simp only [projectHistoricalToolUse, hkeep, hany, Bool.false_eq_true, if_false, if_true]

theorem input_of_omission {block : ToolUse} (hkeep : keepsInput block = false)
    (hlong : longFields block = []) : (projectHistoricalToolUse runtime block).1.input =
      (omissionFields block (jsonChars (.obj block.input))).foldl
        (fun d field => d.set field.1 field.2) block.input := by
  have hany := longFields_eq_nil_iff.mp hlong
  have hsame := projectedFields_eq_self runtime hlong (jsonChars (.obj block.input))
  simp only [projectHistoricalToolUse, hkeep, hany, hsame, Bool.false_eq_true, if_false]

theorem foldl_set_ne_nil {d : Dict} (hne : d ≠ []) (fields : List (String × Json)) :
    fields.foldl (fun d field => d.set field.1 field.2) d ≠ [] := by
  induction fields generalizing d with
  | nil => exact hne
  | cons field rest ih => exact ih (set_ne_nil d field.1 field.2)

theorem useFits_iff (block : ToolUse) : UseFits block ↔
    jsonChars (.obj (projectHistoricalToolUse runtime block).1.input) ≤
      jsonChars (.obj block.input) := by
  rw [UseFits]
  cases hkeep : keepsInput block with
  | true => simp [projectHistoricalToolUse, hkeep]
  | false =>
      have hne := input_ne_nil hkeep
      have hinput := jsonChars_obj hne
      generalize hcount : jsonChars (.obj block.input) = inputChars at hinput ⊢
      by_cases hlong : longFields block = []
      · have hnodup : ((omissionFields block inputChars).map Prod.fst).Nodup := by
          show ["_opensquilla_compacted_tool_arguments", "tool", "reason", "original_chars",
            "argument_keys"].Nodup
          decide
        have hset := sum_foldl_set hnodup block.input
        have hfreed : (omissionFields block inputChars).map
              (fun field => freedChars block.input field.1) =
            (omissionSizes block inputChars).map fun field => freedChars block.input field.1 := rfl
        have hsize := jsonChars_obj (foldl_set_ne_nil hne (omissionFields block inputChars))
        rw [sum_omissionFields hne, hfreed] at hset
        rw [if_pos hlong, forall_prop_of_true rfl, input_of_omission runtime hkeep hlong, hcount]
        omega
      · have hsum := sum_projectedFields runtime block inputChars
        have hfields : projectedFields runtime block inputChars ≠ [] := by
          rw [projectedFields, Ne, List.map_eq_nil_iff]
          exact hne
        have hsize := jsonChars_obj hfields
        rw [if_neg hlong, forall_prop_of_true rfl, input_of_longFields runtime hkeep hlong, hcount]
        omega

/-! ### Messages -/

section

variable (recoverableReferences : Str × Str → Prop) [DecidablePred recoverableReferences]

omit [DecidablePred recoverableReferences] in
theorem blockFits_toolUse (block : ToolUse) :
    BlockFits runtime recoverableReferences (.toolUse block : Block σ β) ↔ UseFits block :=
  Iff.rfl

theorem resultFits_iff (block : ToolResult σ) :
    ResultFits runtime recoverableReferences block ↔
      (projectHistoricalToolResult runtime recoverableReferences block).1.content.asText.length ≤
        block.content.asText.length := by
  have htext : ∀ text, (ResultContent.text text).asText = text := fun _ => rfl
  rw [ResultFits, projectHistoricalToolResult]
  by_cases hlong : historicalToolResultMaxChars < block.content.asText.length
  · rw [if_neg (Nat.not_le.mpr hlong), forall_prop_of_true hlong]
    cases href : recoverableToolResultReference runtime block.content.asText with
    | none => simp
    | some reference =>
        have hlength := length_compactedResult runtime block.toolUseId hlong href
        by_cases hrecover : recoverableReferences reference
        · simp only [if_pos hrecover, htext, hlength]
          constructor
          · intro h
            exact h reference rfl hrecover
          · intro h other hother _
            exact h
        · simp only [if_neg hrecover, Nat.le_refl, iff_true]
          intro other hother hrecovered
          obtain rfl := Option.some.inj hother
          exact absurd hrecovered hrecover
  · rw [if_pos (Nat.not_lt.mp hlong)]
    simp [hlong]

theorem projectHistoricalToolUse_names (block : ToolUse) :
    (projectHistoricalToolUse runtime block).1.id = block.id ∧
      (projectHistoricalToolUse runtime block).1.name = block.name := by
  simp only [projectHistoricalToolUse]
  split
  · exact ⟨rfl, rfl⟩
  · exact ⟨rfl, rfl⟩

theorem projectHistoricalToolResult_frame (block : ToolResult σ) :
    let projected := (projectHistoricalToolResult runtime recoverableReferences block).1
    projected.toolUseId = block.toolUseId ∧ projected.isError = block.isError ∧
      projected.executionStatus = block.executionStatus := by
  intro projected
  have hcases : projected = block ∨
      ∃ content, projected = { block with content := content } := by
    simp only [projected, projectHistoricalToolResult]
    split
    · exact .inl rfl
    · split
      · exact .inl rfl
      · split
        · exact .inr ⟨_, rfl⟩
        · exact .inl rfl
  obtain hsame | ⟨content, hsame⟩ := hcases
  · rw [hsame]
    exact ⟨rfl, rfl, rfl⟩
  · rw [hsame]
    exact ⟨rfl, rfl, rfl⟩

/-- A block in the place of another one: the same but for a payload that is no longer. -/
def NoLongerBlock : Block σ β → Block σ β → Prop
  | .toolUse block, .toolUse projected =>
      projected.id = block.id ∧ projected.name = block.name ∧
        jsonChars (.obj projected.input) ≤ jsonChars (.obj block.input)
  | .toolResult block, .toolResult projected =>
      projected.toolUseId = block.toolUseId ∧ projected.isError = block.isError ∧
        projected.executionStatus = block.executionStatus ∧
          projected.content.asText.length ≤ block.content.asText.length
  | .other block, .other projected => projected = block
  | _, _ => False

def NoLongerContent : Content σ β → Content σ β → Prop
  | .text text, .text projected => projected = text
  | .blocks blocks, .blocks projected => List.Forall₂ NoLongerBlock blocks projected
  | _, _ => False

def NoLongerMessage (message projected : Message σ β) : Prop :=
  projected.role = message.role ∧ NoLongerContent message.content projected.content

def NeverLarger (messages projected : List (Message σ β)) : Prop :=
  List.Forall₂ NoLongerMessage messages projected

theorem noLongerBlock_iff (block : Block σ β) :
    NoLongerBlock block (projectBlock runtime recoverableReferences block).1 ↔
      BlockFits runtime recoverableReferences block := by
  cases block with
  | toolUse block =>
      obtain ⟨hid, hname⟩ := projectHistoricalToolUse_names runtime block
      show (_ ∧ _ ∧ _) ↔ UseFits block
      rw [useFits_iff runtime block, hid, hname]
      simp
  | toolResult block =>
      obtain ⟨huse, herror, hstatus⟩ :=
        projectHistoricalToolResult_frame runtime recoverableReferences block
      show (_ ∧ _ ∧ _ ∧ _) ↔ ResultFits runtime recoverableReferences block
      rw [resultFits_iff runtime recoverableReferences block]
      simp only [huse, herror, hstatus, true_and]
  | other block => simp [projectBlock, NoLongerBlock, BlockFits]

theorem projectBlock_of_unchanged {block : Block σ β}
    (h : (projectBlock runtime recoverableReferences block).2 = false) :
    (projectBlock runtime recoverableReferences block).1 = block := by
  cases block with
  | toolUse block =>
      simp only [projectBlock, projectHistoricalToolUse] at h ⊢
      split at h
      · simp_all
      · exact absurd h (by simp)
  | toolResult block =>
      simp only [projectBlock, projectHistoricalToolResult] at h ⊢
      split at h
      · simp_all
      · split at h
        · simp_all
        · split at h
          · exact absurd h (by simp)
          · simp_all
  | other block => rfl

theorem projectContent_blocks (blocks : List (Block σ β)) :
    projectContent runtime recoverableReferences (.blocks blocks) =
      .blocks (blocks.map fun block => (projectBlock runtime recoverableReferences block).1) := by
  simp only [projectContent, List.map_map]
  split
  · rfl
  · rename_i hsame
    rw [Bool.not_eq_true, List.any_map, List.any_eq_false] at hsame
    have hblocks : blocks.map (fun block => (projectBlock runtime recoverableReferences block).1) =
        blocks.map id := by
      apply List.map_congr_left
      intro block hblock
      exact projectBlock_of_unchanged runtime recoverableReferences
        (by simpa using hsame block hblock)
    rw [hblocks, List.map_id]

def Message.blocks (message : Message σ β) : List (Block σ β) :=
  match message.content with
  | .text _ => []
  | .blocks blocks => blocks

theorem noLongerMessage_iff (message : Message σ β) (preserveReasoningContent : Bool) :
    NoLongerMessage message
        (projectMessage runtime recoverableReferences preserveReasoningContent message) ↔
      ∀ block ∈ message.blocks, BlockFits runtime recoverableReferences block := by
  rw [NoLongerMessage, projectMessage, Message.blocks]
  cases message.content with
  | text text => simp [projectContent, NoLongerContent]
  | blocks blocks =>
      rw [projectContent_blocks]
      simp only [NoLongerContent, true_and]
      rw [List.forall₂_map_right_iff, List.forall₂_same]
      exact forall₂_congr fun block _ => noLongerBlock_iff runtime recoverableReferences block

/-- The projected messages are the same but for payloads that are no longer exactly when every
payload that is replaced is at least as long as its stub. -/
theorem never_larger_iff (messages : List (Message σ β)) (preserveReasoningContent : Bool) :
    NeverLarger messages (projectHistoricalToolPayloads runtime recoverableReferences messages
        preserveReasoningContent) ↔
      ∀ message ∈ messages, ∀ block ∈ message.blocks,
        BlockFits runtime recoverableReferences block := by
  rw [NeverLarger, projectHistoricalToolPayloads, List.forall₂_map_right_iff, List.forall₂_same]
  exact forall₂_congr fun message _ =>
    noLongerMessage_iff runtime recoverableReferences message preserveReasoningContent

end

/-! ### A call with several arguments of middle length -/

theorem not_useFits_of_omission {block : ToolUse} (hkeep : keepsInput block = false)
    (hlong : longFields block = [])
    (hkeys : ∀ key ∈ (omissionSizes block 0).map Prod.fst, block.input.has key = false) :
    ¬ UseFits block := by
  intro h
  have hsmaller := h hkeep
  generalize jsonChars (.obj block.input) = inputChars at hsmaller
  have hnames : (omissionSizes block inputChars).map Prod.fst =
      (omissionSizes block 0).map Prod.fst := rfl
  have hhas : ∀ field ∈ omissionSizes block inputChars, block.input.has field.1 = false :=
    fun field hfield => hkeys field.1 (hnames ▸ List.mem_map_of_mem hfield)
  have hfreed : (omissionSizes block inputChars).map (fun field => freedChars block.input field.1) =
      (omissionSizes block inputChars).map fun _ => 0 := by
    apply List.map_congr_left
    intro field hfield
    rw [freedChars, hhas field hfield, if_neg Bool.false_ne_true]
  have hadded : 0 < ((omissionSizes block inputChars).map fun field =>
      addedChars block.input field.1 field.2).sum := by
    have hfirst := hhas _ List.mem_cons_self
    rw [omissionSizes, List.map_cons, List.sum_cons, addedChars, hfirst,
      if_neg Bool.false_ne_true]
    omega
  rw [if_pos hlong, hfreed] at hsmaller
  have hzero : ((omissionSizes block inputChars).map fun _ => 0).sum = 0 := rfl
  omega

def zeroDigest : Runtime where
  sha256 _ := ⟨List.replicate 64 '0', by decide⟩
  normal := id

@[irreducible] def threeParts : ToolUse where
  id := "call_1".toList
  name := "edit_file".toList
  input := ["path", "old_text", "new_text"].map fun key =>
    (key.toList, .str (List.replicate 1500 'a'))

def threePartsCall : Message Unit Unit := ⟨.assistant, .blocks [.toolUse threeParts], none⟩

/-- The arguments stay, and the fields that say they were left out are added. -/
theorem omitted_arguments_stay_and_grow :
    ¬ NeverLarger [threePartsCall]
      (projectHistoricalToolPayloads zeroDigest (fun _ => False) [threePartsCall] false) := by
  have hkeep : keepsInput threeParts = false := by decide +kernel
  have hlong : longFields threeParts = [] := by decide +kernel
  have hkeys : ∀ key ∈ (omissionSizes threeParts 0).map Prod.fst,
      threeParts.input.has key = false := by decide +kernel
  intro h
  obtain ⟨hmessage, -⟩ := List.forall₂_cons.mp h
  have hfits := (noLongerMessage_iff zeroDigest (fun _ => False) threePartsCall false).mp hmessage
  have hblocks : threePartsCall.blocks = [.toolUse threeParts] := rfl
  rw [hblocks, List.forall_mem_singleton, blockFits_toolUse] at hfits
  have hgrows := not_useFits_of_omission hkeep hlong hkeys
  exact absurd hfits hgrows

end OpenStarry.Replay
