import Mathlib.Data.List.Infix
import OpenStarry.ToolResults.Records

/-!
# Tool payloads of earlier turns

A later turn is given the messages of the earlier ones with their large tool payloads cut down. An
argument gives way to its two ends and a digest. A result does only when it names a record of the
store that the caller has checked.
-/

namespace OpenStarry.Replay

open Lib Lib.Text Lib.Json

variable {σ β : Type}

/-! ### Messages -/

structure ToolUse where
  id : Str
  name : Str
  input : Dict
  deriving DecidableEq, Repr

/-- The content of a result. -/
inductive ResultContent where
  | text (text : Str)
  | items (items : List Json)
  deriving DecidableEq, Repr

structure ToolResult (σ : Type) where
  toolUseId : Str
  content : ResultContent
  isError : Bool
  executionStatus : Option σ
  deriving DecidableEq, Repr

inductive Block (σ β : Type) where
  | toolUse (block : ToolUse)
  | toolResult (block : ToolResult σ)
  | other (block : β)
  deriving DecidableEq, Repr

inductive Role where
  | user
  | assistant
  deriving DecidableEq, Repr

inductive Content (σ β : Type) where
  | text (text : Str)
  | blocks (blocks : List (Block σ β))
  deriving DecidableEq, Repr

structure Message (σ β : Type) where
  role : Role
  content : Content σ β
  reasoningContent : Option Str
  deriving DecidableEq, Repr

/-! ### Digests and references -/

def isLowerHex (c : Char) : Bool := c ∈ "0123456789abcdef".toList

/-- `_TOOL_RESULT_HANDLE_RE`. -/
def isHandle (text : Str) : Bool :=
  "tr-".toList.isPrefixOf text && (text.drop 3).length == 32 && (text.drop 3).all isLowerHex

/-- `_TOOL_RESULT_SHA256_RE`. -/
def isSha256 (text : Str) : Bool := text.length == 64 && text.all isLowerHex

structure Runtime where
  /-- The digest of a text in UTF-8, in hexadecimal. -/
  sha256 : Str → { digest : Str // isSha256 digest = true }
  /-- A number as Python shows it. -/
  normal : Number → Number

variable (runtime : Runtime)

/-- `_json_text`. -/
def jsonText (value : Json) : Str := dumpsWith defaultSeparators (sortKeys value)

/-- `_json_chars`. -/
def jsonChars (value : Json) : Nat := (jsonText value).length

def toolResultProjectionPrefix : Str := "[tool_result_projection]\n".toList
def aggregateToolResultProjectionPrefix : Str := "[aggregate_tool_result_compacted]\n".toList
def historicalToolResultCompactedPrefix : Str := "[historical_tool_result_compacted]\n".toList

def isProjection (content : Str) : Bool :=
  toolResultProjectionPrefix.isPrefixOf content ||
    aggregateToolResultProjectionPrefix.isPrefixOf content

def headerField (line : Str) : Option (Str × Str) :=
  if ':' ∈ line then some (strip (beforeFirst ':' line), strip (afterFirst ':' line)) else none

def headerFields (content : Str) : List (Str × Str) :=
  (splitlines content).tail.filterMap headerField

/-- `fields.get(key, "")`. -/
def fieldOf (fields : List (Str × Str)) (key : String) : Str := (fields.lookup key.toList).getD []

def checkedReference (handle sha256 : Str) : Option (Str × Str) :=
  if isHandle handle = false then none
  else if isSha256 sha256 = false then none
  else some (handle, sha256)

def looksTruncated (content : Str) : Bool :=
  let inner := (skipSpace content).rdropWhile isJsonSpace
  inner.head? == some '\x7b' && inner.getLast? == some '\x7d' &&
    (["\"result_truncated\"", "\"retrieve_hint\"", "\"tool_result_handle\"",
      "\"tool_result_sha256\""].all fun mark => decide (mark.toList <:+: content))

def truncatedReference (payload : Dict) : Option (Str × Str) :=
  if payload.get "result_truncated" ≠ .bool true ∨
      (payload.get "retrieve_hint").truthy = false then none
  else
    match payload.get "tool_result_handle", payload.get "tool_result_sha256" with
    | .str handle, .str sha256 => checkedReference (strip handle) (strip sha256)
    | _, _ => none

/-- `recoverable_tool_result_reference`. -/
def recoverableToolResultReference (content : Str) : Option (Str × Str) :=
  if isProjection content then
    checkedReference (fieldOf (headerFields content) "tool_result_handle")
      (fieldOf (headerFields content) "sha256")
  else if historicalToolResultCompactedPrefix.isPrefixOf content then
    checkedReference (fieldOf (headerFields content) "tool_result_handle")
      (fieldOf (headerFields content) "tool_result_sha256")
  else if looksTruncated content then
    (loads runtime.normal content).bind fun value => value.fields?.bind truncatedReference
  else none

/-! ### Previews -/

def historicalToolArgumentFieldMaxChars : Nat := 2048
def historicalToolArgumentTotalMaxChars : Nat := 4096
def historicalToolResultMaxChars : Nat := 4096
def historicalToolResultPreviewChars : Nat := 480

/-- `_head_tail`. -/
def headTail (text : Str) (budget : Nat) : Str × Str × Nat :=
  if text.length ≤ budget then (text, [], 0)
  else
    let headChars := max 1 (budget / 2)
    let tailChars := max 1 (budget - headChars)
    (text.take headChars, text.drop (text.length - tailChars),
      text.length - headChars - tailChars)

def labelled (label : String) (value : Str) : Str := label.toList ++ ": ".toList ++ value

def previewLines (head tail : Str) : List Str :=
  ["head:".toList, head] ++
    if tail ≠ [] ∧ tail ≠ head then ["...".toList, "tail:".toList, tail] else []

/-- `_tool_argument_projection`. -/
def toolArgumentProjection (toolName toolUseId field value : Str) (originalInputChars : Nat) :
    Str :=
  let ends := headTail value historicalToolResultPreviewChars
  unlines (["[historical_tool_argument_omitted]".toList,
    labelled "tool" toolName,
    labelled "tool_use_id" toolUseId,
    labelled "field" field,
    labelled "original_chars" (decimal value.length),
    labelled "original_input_chars" (decimal originalInputChars),
    labelled "sha256" (runtime.sha256 value),
    labelled "omitted_chars" (decimal ends.2.2),
    "reason: historical tool argument omitted from later-turn provider replay.".toList] ++
    previewLines ends.1 ends.2.1)

/-- `_compact_historical_text`; the fields of the metadata come in the order of their keys. -/
def compactHistoricalText (text : Str) (label : String) (metadata : List (String × Str)) : Str :=
  let ends := headTail text historicalToolResultPreviewChars
  unlines ([('[' :: label.toList) ++ "_compacted]".toList,
    labelled "original_chars" (decimal text.length),
    labelled "sha256" (runtime.sha256 text),
    labelled "omitted_chars" (decimal ends.2.2),
    "reason: historical payload omitted from later-turn provider replay.".toList] ++
    (metadata.map fun field => labelled field.1 field.2) ++ previewLines ends.1 ends.2.1)

/-! ### Projections -/

def argumentText : Json → Str
  | .str value => value
  | value => jsonText value

def isLong (value : Json) : Bool :=
  historicalToolArgumentFieldMaxChars < (argumentText value).length

def omissionFields (block : ToolUse) (inputChars : Nat) : List (String × Json) :=
  [("_opensquilla_compacted_tool_arguments", .bool true),
    ("tool", .str block.name),
    ("reason", .str "historical_tool_arguments_omitted".toList),
    ("original_chars", .num (Number.ofNat inputChars)),
    ("argument_keys", .arr ((sortByKey block.input).map fun field => .str field.1))]

def hasLongText (input : Dict) : Bool :=
  input.any fun field => field.2.str?.isSome && isLong field.2

def keepsInput (block : ToolUse) : Bool :=
  jsonChars (.obj block.input) ≤ historicalToolArgumentTotalMaxChars && !hasLongText block.input

def projectedFields (block : ToolUse) (inputChars : Nat) : Dict :=
  block.input.map fun field =>
    (field.1, if isLong field.2 then
      .str (toolArgumentProjection runtime block.name block.id field.1 (argumentText field.2)
        inputChars)
    else field.2)

/-- `_project_historical_tool_use`. -/
def projectHistoricalToolUse (block : ToolUse) : ToolUse × Bool :=
  let inputChars := jsonChars (.obj block.input)
  if keepsInput block then (block, false)
  else
    let fields := projectedFields runtime block inputChars
    let input :=
      if block.input.any fun field => isLong field.2 then fields
      else (omissionFields block inputChars).foldl (fun d field => d.set field.1 field.2) fields
    ({ block with input := input }, true)

def headerPrefixes : List String :=
  ["tool_result_handle:", "sha256:", "original_chars:", "preview_complete:", "retrieve_hint:",
    "search_hints:", "signal_scan:", "signal_next_call:"]

def isPreserved (line : Str) : Bool :=
  (headerPrefixes.any fun start => start.toList.isPrefixOf (strip line)) ||
    "- L".toList.isPrefixOf (strip line)

/-- `_compact_historical_tool_result_projection`. -/
def compactHistoricalToolResultProjection (text toolUseId : Str) : Str :=
  let lines := splitlines text
  unlines (lines.take 1 ++ lines.tail.filter isPreserved ++
    [labelled "historical_replay_projection"
        "recoverability header preserved; projected body compacted.".toList,
      labelled "historical_replay_sha256" (runtime.sha256 text),
      compactHistoricalText runtime text "historical_tool_result_projection_body"
        [("tool_use_id", toolUseId)]])

def ResultContent.asText : ResultContent → Str
  | .text content => content
  | .items content => jsonText (.arr content)

def resultMetadata (reference : Str × Str) (toolUseId : Str) : List (String × Str) :=
  [("retrieve_hint",
      "Use retrieve_tool_result with this handle to inspect the original raw output.".toList),
    ("tool_result_handle", reference.1),
    ("tool_result_sha256", reference.2),
    ("tool_use_id", toolUseId)]

def compactedResult (content toolUseId : Str) (reference : Str × Str) : Str :=
  if isProjection content then compactHistoricalToolResultProjection runtime content toolUseId
  else
    compactHistoricalText runtime content "historical_tool_result"
      (resultMetadata reference toolUseId)

section

variable (recoverableReferences : Str × Str → Prop) [DecidablePred recoverableReferences]

/-- `_project_historical_tool_result`. -/
def projectHistoricalToolResult (block : ToolResult σ) : ToolResult σ × Bool :=
  let content := block.content.asText
  if content.length ≤ historicalToolResultMaxChars then (block, false)
  else
    match recoverableToolResultReference runtime content with
    | none => (block, false)
    | some reference =>
        if recoverableReferences reference then
          let compacted := compactedResult runtime content block.toolUseId reference
          ({ block with content := .text compacted }, true)
        else (block, false)

def projectBlock : Block σ β → Block σ β × Bool
  | .toolUse block =>
      let projected := projectHistoricalToolUse runtime block
      (.toolUse projected.1, projected.2)
  | .toolResult block =>
      let projected := projectHistoricalToolResult runtime recoverableReferences block
      (.toolResult projected.1, projected.2)
  | .other block => (.other block, false)

def projectContent : Content σ β → Content σ β
  | .text text => .text text
  | .blocks blocks =>
      let projected := blocks.map (projectBlock runtime recoverableReferences)
      if projected.any Prod.snd then .blocks (projected.map Prod.fst) else .blocks blocks

def nextReasoning (preserveReasoningContent : Bool) (message : Message σ β) : Option Str :=
  if message.role = .assistant ∧ message.reasoningContent.any (· ≠ []) ∧
      preserveReasoningContent = false then none
  else message.reasoningContent

def projectMessage (preserveReasoningContent : Bool) (message : Message σ β) : Message σ β :=
  { message with
    content := projectContent runtime recoverableReferences message.content
    reasoningContent := nextReasoning preserveReasoningContent message }

/-- `project_historical_tool_payloads`. -/
def projectHistoricalToolPayloads (messages : List (Message σ β))
    (preserveReasoningContent : Bool) : List (Message σ β) :=
  messages.map (projectMessage runtime recoverableReferences preserveReasoningContent)

end

end OpenStarry.Replay
