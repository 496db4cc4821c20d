import Mathlib.Data.List.Sort
import OpenStarry.Compaction.Entries
import OpenStarry.Lib.JsonParse
import OpenStarry.Lib.Outcome
import OpenStarry.Lib.Padded

/-!
# The text of a chunk

A chunk of a transcript is given to the summarizing model as text. Contents are written out, calls
and their results are summarized. Arguments that are a text are decoded first; writing them fails
when what they hold has no fields.
-/

namespace OpenStarry.Compaction

open Lib Lib.Text Lib.Json

/-- How values are shown, decoded and digested. -/
structure Formats extends Texts where
  /-- A number as Python shows it. -/
  normal : Number → Number
  /-- `_json_text`. -/
  jsonText : Json → Str
  /-- The first 16 digits of the digest of a text in UTF-8. -/
  digest : Str → Str

/-- What writing a chunk raises. -/
inductive FormatError where
  /-- A value without `get` is asked for a key. -/
  | noGet
  | notIterable
  deriving DecidableEq, Repr

variable (formats : Formats)

/-! ### Values -/

def number (n : Nat) : Str := (toString n).toList

/-- `_preview_text`. -/
def previewText (text : Str) : Str :=
  if text.length ≤ 240 then text
  else
    text.take 120 ++ "\n[...omitted ".toList ++ number (text.length - 120 - 120) ++
      " chars...]\n".toList ++ text.drop (text.length - 120)

def valueStub (kind : String) (rendered : Str) : Str :=
  '<' :: kind.toList ++ " chars=".toList ++ number rendered.length ++ " sha256=".toList ++
    formats.digest rendered ++ " preview=".toList ++ formats.repr (.str (previewText rendered)) ++
    ">".toList

/-- `_summarize_tool_value`. -/
def summarizeToolValue : Json → Str
  | .str value => if value.length ≤ 240 then value else valueStub formats "string" value
  | .arr items =>
      let rendered := formats.jsonText (.arr items)
      if rendered.length ≤ 240 then rendered else valueStub formats "json" rendered
  | .obj fields =>
      let rendered := formats.jsonText (.obj fields)
      if rendered.length ≤ 240 then rendered else valueStub formats "json" rendered
  | value => formats.repr value

/-- `type(value).__name__` of a value that is no dict. -/
def typeName : Json → Str
  | .null => "NoneType".toList
  | .bool _ => "bool".toList
  | .num n => if n.text.all fun c => c.isDigit || c = '-' then "int".toList else "float".toList
  | .str _ => "str".toList
  | .arr _ => "list".toList
  | .obj _ => "dict".toList

/-- `sorted` of texts. -/
def sortedTexts (texts : List Str) : List Str := texts.insertionSort fun s t => notAfter s t

/-- `bool(value)` as it is shown. -/
def shownBool (value : Json) : Str := if value.truthy then "True".toList else "False".toList

/-! ### Calls and results -/

/-- `segment.get("name") or segment.get("function", {}).get("name") or "unknown"`. -/
def callName (segment : Dict) : Except FormatError Json :=
  if (segment.get "name").truthy then pure (segment.get "name")
  else if segment.has "function" = false then pure (.str "unknown".toList)
  else
    match segment.get "function" with
    | .obj fields => pure (either (Dict.get fields "name") (.str "unknown".toList))
    | _ => throw .noGet

def rawInput (segment : Dict) : Json :=
  match segment.get "input", segment.get "function" with
  | .null, .obj fields => Dict.get fields "arguments"
  | input, _ => input

def parsedInput (segment : Dict) : Json :=
  match rawInput segment with
  | .str raw => (loads formats.normal raw).getD (.obj [("_raw".toList, .str raw)])
  | .obj fields => .obj fields
  | _ => .obj []

def keysOf : Json → Except FormatError (List Str)
  | .obj fields => pure (fields.map Prod.fst)
  | .arr items => pure (items.map formats.str)
  | .str s => pure (s.map fun c => [c])
  | _ => throw .notIterable

/-- `value.get(key)`. -/
def getKey (value : Json) (key : Str) : Except FormatError Json :=
  match value with
  | .obj fields => pure ((fields.lookup key).getD .null)
  | _ => throw .noGet

def argumentLine (value : Json) (key : Str) : Except FormatError Str :=
  (getKey value key).map fun field =>
    "  ".toList ++ key ++ ": ".toList ++ summarizeToolValue formats field

def isCall (segment : Dict) : Bool :=
  segment.get "type" = .str "tool_use".toList || (segment.get "function").fields?.isSome

/-- The lines of a call. -/
def callLines (segment : Dict) : Except FormatError (List Str) := do
  let toolName ← callName segment
  let toolId := either (either (segment.get "tool_use_id") (segment.get "id"))
    (.str "unknown".toList)
  let parsed := parsedInput formats segment
  let keys ← (keysOf formats parsed).map sortedTexts
  let lines ← keys.mapM (argumentLine formats parsed)
  return ("- tool_use ".toList ++ formats.str toolId ++ ": ".toList ++ formats.str toolName ++
    " keys=".toList ++ formats.repr (.arr (keys.map Json.str))) :: lines

/-- `status=…` and `reason=…`, where they are given. -/
def statusFields (value : Json) : List Str :=
  let parts := executionStatusParts formats.toTexts value
  (if parts.1 ≠ [] then ["status=".toList ++ parts.1] else []) ++
    if parts.2.1 ≠ [] then ["reason=".toList ++ parts.2.1] else []

/-- The line of a result. -/
def resultLine (segment : Dict) : Str :=
  let result := if segment.has "result" then segment.get "result" else .str []
  let rendered := (result.str?).getD (formats.jsonText result)
  let fields := statusFields formats (either (segment.get "execution_status")
    (segment.get "status"))
  "- tool_result ".toList ++ formats.str (either (segment.get "tool_use_id")
      (.str "unknown".toList)) ++ ": is_error=".toList ++ shownBool (segment.get "is_error") ++
    " ".toList ++ [' '].intercalate fields ++ " chars=".toList ++ number rendered.length ++
    " sha256=".toList ++ formats.digest rendered ++ " preview=".toList ++
    formats.repr (.str (previewText rendered))

/-- The lines of the segment with a number. -/
def segmentLines (index : Nat) (segment : Json) : Except FormatError (List Str) :=
  match segment with
  | .obj fields =>
      let segType := either (Dict.get fields "type") (.str "unknown".toList)
      if isCall fields then callLines formats fields
      else if segType = .str "tool_result".toList then pure [resultLine formats fields]
      else if segType = .str "text".toList then
        let text := formats.strOr (Dict.get fields "text")
        pure ["- text chars=".toList ++ number text.length ++ " preview=".toList ++
          formats.repr (.str (previewText text))]
      else
        pure ["- ".toList ++ formats.str segType ++ " keys=".toList ++
          formats.repr (.arr ((sortedTexts (fields.map Prod.fst)).map Json.str))]
  | value => pure ["- segment ".toList ++ number index ++ ": ".toList ++ typeName value]

/-- `_summarize_tool_calls_for_llm`. -/
def summarizeToolCallsForLlm (toolCalls : Json) : Except FormatError Str :=
  match toolCalls with
  | .arr (first :: rest) => do
      let lines ← ((first :: rest).zipIdx 1).mapM fun p => segmentLines formats p.2 p.1
      return unlines ("[tool payload summary]".toList :: lines.flatten)
  | _ => pure []

/-- `_top_level_tool_result_status`. -/
def topLevelToolResultStatus (entry : Entry) : Str :=
  if !isToolResultEntry formats.toTexts entry ||
      nestedToolResultSegments formats.toTexts entry ≠ [] then []
  else
    let fields := statusFields formats (either (entry.get "execution_status") (entry.get "status"))
    let toolCallId := strip (formats.strOr (entry.get "tool_call_id"))
    if toolCallId = [] ∧ fields = [] ∧ (entry.get "is_error").truthy = false then []
    else
      "[tool result status] ".toList ++ [' '].intercalate
        (("tool_call_id=".toList ++ if toolCallId = [] then "unknown".toList else toolCallId) ::
          ("is_error=".toList ++ shownBool (entry.get "is_error")) :: fields)

/-! ### Contents -/

def attachmentText (attachment : Dict) : Str :=
  formats.str (either (attachment.get "name") (.str "image".toList)) ++ " (".toList ++
    formats.str (either (attachment.get "type") (.str "image/*".toList)) ++ ")".toList

/-- `_summarize_if_envelope`. -/
def summarizeIfEnvelope (content : Str) : Str :=
  if !"\x7b\"text\":".toList.isPrefixOf content then content
  else
    match loads formats.normal content with
    | some (.obj fields) =>
        match Dict.get fields "text", Dict.get fields "attachments" with
        | .str text, .arr attachments =>
            let descs := (attachments.filterMap fields?).map (attachmentText formats)
            if descs = [] then text
            else text ++ "\n[user attached: ".toList ++ ", ".toList.intercalate descs ++ "]".toList
        | .str text, _ => text
        | _, _ => content
    | _ => content

/-- `entry.get("role", "unknown")` as it is shown. -/
def roleText (entry : Entry) : Str :=
  if entry.has "role" then formats.str (entry.get "role") else "unknown".toList

def contentText (entry : Entry) : Str :=
  summarizeIfEnvelope formats (formats.strOr (entry.get "content"))

/-! ### Chunks -/

def reasoningNote (entry : Entry) : Str :=
  match entry.get "reasoning_content" with
  | .str reasoning =>
      if reasoning = [] then []
      else
        "[assistant reasoning omitted from compaction input: ".toList ++ number reasoning.length ++
          " chars]".toList
  | _ => []

def entryText (entry : Entry) : Except FormatError Str := do
  let toolSummary ← summarizeToolCallsForLlm formats (entry.get "tool_calls")
  let parts := ["[".toList ++ roleText formats entry ++ "]: ".toList ++ contentText formats entry,
    toolSummary, topLevelToolResultStatus formats entry, reasoningNote entry]
  return unlines (parts.filter (· ≠ []))

/-- `_format_chunk_for_llm`. -/
def formatChunkForLlm (chunk : List Entry) : Except FormatError Str := do
  let texts ← chunk.mapM (entryText formats)
  return "\n\n".toList.intercalate texts

/-- `_build_strict_identifier_instruction`. -/
def strictIdentifierInstruction : Str :=
  ("IMPORTANT: Preserve all opaque identifiers exactly as written — UUIDs, hashes, IDs, tokens, " ++
    "API keys, hostnames, IPs, ports, URLs, file names. Do NOT shorten, reconstruct, or " ++
    "paraphrase any identifier.").toList

/-- The lines of an entry in a summary that no model wrote. -/
def fallbackLines (entry : Entry) : Except FormatError (List Str) := do
  let content := contentText formats entry
  let preview := content.take 200 ++ if 200 < content.length then "...".toList else []
  let toolSummary ← summarizeToolCallsForLlm formats (entry.get "tool_calls")
  let status := topLevelToolResultStatus formats entry
  return ("  [".toList ++ roleText formats entry ++ "]: ".toList ++ preview) ::
    ((splitlines toolSummary).map ("    ".toList ++ ·) ++
      if status = [] then [] else ["    ".toList ++ status])

/-- `_summarize_chunk_fallback`. -/
def summarizeChunkFallback (chunk : List Entry) (strict : Bool) : Except FormatError Str := do
  let lines ← chunk.mapM (fallbackLines formats)
  return unlines ((if strict then [strictIdentifierInstruction] else []) ++
    ("[Summary of ".toList ++ number chunk.length ++ " messages]".toList) :: lines.flatten)

/-! ### Which chunks can be written -/

def Listable : Json → Prop
  | .obj _ => True
  | .arr items => items = []
  | .str s => s = []
  | _ => False

def ReadableCall (segment : Dict) : Prop :=
  ((segment.get "name").truthy = true ∨ segment.has "function" = false ∨
      (segment.get "function").fields?.isSome = true) ∧
    ∀ raw, rawInput segment = .str raw →
      ∀ value, loads formats.normal raw = some value → Listable value

def ReadableCalls (entry : Entry) : Prop :=
  ∀ segment ∈ (entry.get "tool_calls").items.filterMap fields?,
    isCall segment = true → ReadableCall formats segment

section

variable {formats} {segment : Dict}

theorem returns_callName : Returns (callName segment) ↔
    (segment.get "name").truthy = true ∨ segment.has "function" = false ∨
      (segment.get "function").fields?.isSome = true := by
  unfold callName
  by_cases hname : (segment.get "name").truthy = true
  · rw [if_pos hname]
    exact iff_of_true (returns_pure _) (Or.inl hname)
  · rw [if_neg hname]
    by_cases hfunction : segment.has "function" = false
    · rw [if_pos hfunction]
      exact iff_of_true (returns_pure _) (Or.inr (Or.inl hfunction))
    · rw [if_neg hfunction]
      cases hvalue : segment.get "function" with
      | obj fields => exact iff_of_true (returns_pure _) (Or.inr (Or.inr rfl))
      | _ =>
          apply iff_of_false (not_returns_throw _)
          simp [hname, hfunction, fields?]

theorem returns_lines_of_no_fields {value : Json} (hvalue : value.fields? = none)
    {keys : List Str} :
    Returns ((sortedTexts keys).mapM (argumentLine formats value)) ↔ keys = [] := by
  have hline : ∀ key, ¬Returns (argumentLine formats value key) := by
    intro key
    rw [argumentLine, returns_map]
    cases value with
    | obj fields => cases hvalue
    | _ => exact not_returns_throw _
  rw [returns_mapM]
  constructor
  · intro h
    cases keys with
    | nil => rfl
    | cons key rest =>
        have hmem : key ∈ sortedTexts (key :: rest) :=
          (List.mem_insertionSort _).mpr List.mem_cons_self
        exact absurd (h key hmem) (hline key)
  · rintro rfl
    exact fun key hkey => absurd hkey List.not_mem_nil

theorem returns_argumentLines {value : Json} :
    Returns ((keysOf formats value).map sortedTexts >>= fun keys =>
      keys.mapM (argumentLine formats value)) ↔ Listable value := by
  cases value with
  | obj fields =>
      apply iff_of_true _ trivial
      refine returns_bind.mpr ⟨_, rfl, returns_mapM.mpr fun key _ => ?_⟩
      exact returns_map.mpr (returns_pure _)
  | arr items =>
      show Returns ((sortedTexts (items.map formats.str)).mapM _) ↔ items = []
      rw [returns_lines_of_no_fields rfl, List.map_eq_nil_iff]
  | str s =>
      show Returns ((sortedTexts (s.map fun c => [c])).mapM _) ↔ s = []
      rw [returns_lines_of_no_fields rfl, List.map_eq_nil_iff]
  | null => exact iff_of_false (not_returns_throw _) id
  | bool b => exact iff_of_false (not_returns_throw _) id
  | num n => exact iff_of_false (not_returns_throw _) id

theorem listable_parsedInput : Listable (parsedInput formats segment) ↔
    ∀ raw, rawInput segment = .str raw →
      ∀ value, loads formats.normal raw = some value → Listable value := by
  unfold parsedInput
  cases hraw : rawInput segment with
  | str raw =>
      dsimp only
      cases hvalue : loads formats.normal raw with
      | none =>
          refine iff_of_true trivial ?_
          intro text htext value hread
          rw [← Json.str.inj htext, hvalue] at hread
          cases hread
      | some value =>
          constructor
          · intro h text htext other hread
            rw [← Json.str.inj htext, hvalue] at hread
            exact Option.some.inj hread ▸ h
          · intro h
            exact h raw rfl value hvalue
  | _ => exact iff_of_true trivial nofun

theorem returns_callLines : Returns (callLines formats segment) ↔ ReadableCall formats segment := by
  rw [ReadableCall, ← returns_callName, ← listable_parsedInput, ← returns_argumentLines, callLines]
  constructor
  · intro h
    obtain ⟨toolName, hname, h⟩ := returns_bind.mp h
    obtain ⟨keys, hkeys, h⟩ := returns_bind.mp h
    obtain ⟨lines, hlines, -⟩ := returns_bind.mp h
    exact ⟨⟨toolName, hname⟩, returns_bind.mpr ⟨keys, hkeys, lines, hlines⟩⟩
  · intro ⟨⟨toolName, hname⟩, h⟩
    obtain ⟨keys, hkeys, lines, hlines⟩ := returns_bind.mp h
    refine returns_bind.mpr ⟨toolName, hname, ?_⟩
    refine returns_bind.mpr ⟨keys, hkeys, ?_⟩
    exact returns_bind.mpr ⟨lines, hlines, returns_pure _⟩

theorem returns_segmentLines {index : Nat} {value : Json} :
    Returns (segmentLines formats index value) ↔
      ∀ segment, value.fields? = some segment → isCall segment = true →
        ReadableCall formats segment := by
  cases value with
  | obj fields =>
      simp only [segmentLines, fields?, Option.some.injEq, forall_eq']
      by_cases hcall : isCall fields = true
      · rw [if_pos hcall, returns_callLines]
        exact ⟨fun h _ => h, fun h => h hcall⟩
      · rw [if_neg hcall]
        refine iff_of_true ?_ (fun h => absurd h hcall)
        split_ifs
        · exact returns_pure _
        · exact returns_pure _
        · exact returns_pure _
  | _ =>
      refine iff_of_true (returns_pure _) fun segment hfields => ?_
      cases hfields

theorem returns_summarizeToolCallsForLlm {toolCalls : Json} :
    Returns (summarizeToolCallsForLlm formats toolCalls) ↔
      ∀ segment ∈ toolCalls.items.filterMap fields?,
        isCall segment = true → ReadableCall formats segment := by
  have hpure : Returns (pure [] : Except FormatError Str) := returns_pure _
  cases toolCalls with
  | arr items =>
      cases items with
      | nil => exact iff_of_true hpure nofun
      | cons first rest =>
          rw [summarizeToolCallsForLlm, returns_bind_of fun _ => returns_pure _, returns_mapM]
          constructor
          · intro h segment hsegment
            obtain ⟨value, hvalue, hfields⟩ := List.mem_filterMap.mp hsegment
            obtain ⟨i, hi, rfl⟩ := List.mem_iff_getElem.mp hvalue
            have hmem : ((first :: rest)[i], 1 + i) ∈ (first :: rest).zipIdx 1 := by
              rw [List.mk_mem_zipIdx_iff_le_and_getElem?_sub]
              exact ⟨Nat.le_add_right _ _, by
                rw [Nat.add_sub_cancel_left]
                exact List.getElem?_eq_getElem hi⟩
            exact returns_segmentLines.mp (h _ hmem) segment hfields
          · intro h p hp
            have hmem : p.1 ∈ first :: rest := List.fst_mem_of_mem_zipIdx hp
            apply returns_segmentLines.mpr
            intro segment hfields
            exact h segment (List.mem_filterMap.mpr ⟨p.1, hmem, hfields⟩)
  | _ => exact iff_of_true hpure nofun

theorem returns_formatChunkForLlm {chunk : List Entry} :
    Returns (formatChunkForLlm formats chunk) ↔ ∀ entry ∈ chunk, ReadableCalls formats entry := by
  rw [formatChunkForLlm, returns_bind_of fun _ => returns_pure _, returns_mapM]
  have hentry : ∀ entry, Returns (entryText formats entry) ↔ ReadableCalls formats entry := by
    intro entry
    rw [entryText, returns_bind_of fun _ => returns_pure _, returns_summarizeToolCallsForLlm]
    rfl
  exact forall₂_congr fun entry _ => hentry entry

theorem returns_summarizeChunkFallback {chunk : List Entry} (strict : Bool) :
    Returns (summarizeChunkFallback formats chunk strict) ↔
      ∀ entry ∈ chunk, ReadableCalls formats entry := by
  rw [summarizeChunkFallback, returns_bind_of fun _ => returns_pure _, returns_mapM]
  have hentry : ∀ entry, Returns (fallbackLines formats entry) ↔ ReadableCalls formats entry := by
    intro entry
    rw [fallbackLines, returns_bind_of fun _ => returns_pure _, returns_summarizeToolCallsForLlm]
    rfl
  exact forall₂_congr fun entry _ => hentry entry

end

end OpenStarry.Compaction
