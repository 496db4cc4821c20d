import OpenStarry.RequestProof.Shorten
import OpenStarry.Lib.Substring

/-!
# Messages and their tool results

A tool result is a message of the role `tool` whose content is a text, or a `tool_result` block. The
recent ones are protected, and those that report an error or are not settled yet.
-/

namespace OpenStarry.RequestProof

open Lib Lib.Text Lib.Json

/-- `payload["messages"]`. -/
def messagesOf (payload : Dict) : List Json := (payload.get "messages").items

def onMessages (f : List Json → List Json) (payload : Dict) : Dict := payload.update "messages" (mapArr f)

/-- `message.get("role") == role`. -/
def hasRole (role : String) (message : Dict) : Bool := message.get "role" = .str role.toList

/-- `block.get("type") == type`. -/
def hasType (type : String) (block : Dict) : Bool := block.get "type" = .str type.toList

def blocksOf (content : Json) : List Dict := content.items.filterMap fields?

def lastIndex? {α : Type} (p : α → Bool) (xs : List α) : Option Nat :=
  (List.range xs.length).reverse.find? fun index => xs[index]?.any p

section

variable (runtime : Runtime) (settings : Settings)

/-! ### The active request of the user -/

def syntheticUserPrefixes : List Str :=
  ["[Available skills for this turn]".toList, "[Context summary]".toList,
    "[Request context for this turn]".toList, "[Runtime context for this turn]".toList,
    "[Current user request reminder]".toList, "Runtime state capsule:".toList,
    "You are the aggregator in a multi-model B5 fusion experiment.".toList]

def isUserRolePromptShape (message : Json) : Bool :=
  message.fields?.any fun message =>
    hasRole "user" message &&
      match message.get "content" with
      | .arr blocks =>
          let blocks := blocksOf (.arr blocks)
          blocks.isEmpty || blocks.any fun block => !hasType "tool_result" block
      | _ => true

def syntheticUserText (message : Dict) : Option Str :=
  match message.get "content" with
  | .str s => some s
  | content => (blocksOf content).findSome? fun block => (block.get "text").str?

def isUserPromptMessage (message : Json) : Bool :=
  isUserRolePromptShape message &&
    message.fields?.all fun message =>
      (syntheticUserText message).all fun text =>
        !syntheticUserPrefixes.any fun start => start.isPrefixOf text

inductive AnchorSource where
  | explicit
  | inferred
  deriving DecidableEq, Repr

def activeUserAnchor (messages : List Json) (activeUserMessageIndex : Option Int) :
    Option (Nat × AnchorSource) :=
  let given := activeUserMessageIndex.filter fun index =>
    decide (0 ≤ index) && messages[index.toNat]?.any isUserRolePromptShape
  match given with
  | some index => some (index.toNat, .explicit)
  | none => (lastIndex? isUserPromptMessage messages).map fun index => (index, .inferred)

def isAssistant (message : Json) : Bool := message.fields?.any (hasRole "assistant")

def protectedRecentAssistantIndex (messages : List Json) : Option Nat :=
  if settings.protectRecentAssistant then lastIndex? isAssistant messages else none

/-! ### Errors and unsettled results -/

def failureStatuses : List Str := ["error".toList, "timeout".toList, "cancelled".toList]

def unresolvedStatuses : List Str :=
  ["unknown".toList, "pending".toList, "queued".toList, "running".toList, "in_progress".toList,
    "requires_action".toList, "awaiting_approval".toList]

/-- `str(value or "").lower()`. What is no text never reads as one of the statuses. -/
def statusWord : Json → Str
  | .str s => runtime.lower s
  | _ => []

def executionStatusIsFailure (status : Json) : Bool :=
  status.fields?.any fun status => statusWord runtime (status.get "status") ∈ failureStatuses

def executionStatusIsUnresolved (status : Json) : Bool :=
  status.fields?.any fun status => statusWord runtime (status.get "status") ∈ unresolvedStatuses

mutual

def contentHas (text : Str → Bool) (block : Dict → Bool) : Json → Bool
  | .str s => text s
  | .arr blocks => blocksHave text block blocks
  | _ => false

def blocksHave (text : Str → Bool) (block : Dict → Bool) : List Json → Bool
  | [] => false
  | .obj fields :: rest =>
      block fields || contentFieldHas text block fields || blocksHave text block rest
  | _ :: rest => blocksHave text block rest

/-- The test of what stands under `content`. -/
def contentFieldHas (text : Str → Bool) (block : Dict → Bool) : List (Str × Json) → Bool
  | [] => false
  | (key, value) :: rest =>
      if "content".toList = key then contentHas text block value
      else contentFieldHas text block rest

end

def textIsError (content : Str) : Bool :=
  ((loads runtime.normal content).bind fields?).any fun parsed =>
    executionStatusIsFailure runtime (parsed.get "execution_status") ||
      parsed.get "is_error" = .bool true

def textIsUnresolved (content : Str) : Bool :=
  ((loads runtime.normal content).bind fields?).any fun parsed =>
    executionStatusIsUnresolved runtime (parsed.get "execution_status") ||
      decide (statusWord runtime (parsed.get "status") ∈ unresolvedStatuses)

def criticalFragments : List Str :=
  ["\"status\":\"error\"".toList, "\"status\": \"error\"".toList, "\"status\":\"timeout\"".toList,
    "\"status\": \"timeout\"".toList, "\"status\":\"cancelled\"".toList,
    "\"status\": \"cancelled\"".toList]

def textIsCritical (content : Str) : Bool :=
  let lowered := runtime.lower content
  textIsError runtime content ||
    ((find "execution_status".toList lowered).isSome &&
      criticalFragments.any fun fragment => (find fragment lowered).isSome)

def toolContentIsCritical : Json → Bool :=
  contentHas (textIsCritical runtime) fun block => block.get "is_error" = .bool true

def toolResultContentIsError : Json → Bool :=
  contentHas (textIsError runtime) fun block => block.get "is_error" = .bool true

def toolResultContentIsUnresolved : Json → Bool :=
  contentHas (textIsUnresolved runtime) fun block =>
    executionStatusIsUnresolved runtime (block.get "execution_status")

def toolResultEntryIsError (entry : Dict) : Bool :=
  entry.get "is_error" = .bool true ||
    executionStatusIsFailure runtime (entry.get "execution_status") ||
    toolResultContentIsError runtime (entry.get "content")

def toolResultEntryIsUnresolved (entry : Dict) : Bool :=
  executionStatusIsUnresolved runtime (entry.get "execution_status") ||
    toolResultContentIsUnresolved runtime (entry.get "content")

/-! ### Tool results and their protection -/

def isToolResult (block : Json) : Bool := block.fields?.any (hasType "tool_result")

def isToolMessage (message : Dict) : Bool := hasRole "tool" message && (message.get "content").str?.isSome

def messageEntries : Json → List Dict
  | .obj message =>
      if isToolMessage message then [message]
      else (blocksOf (Dict.get message "content")).filter (hasType "tool_result")
  | _ => []

def toolResultEntries (messages : List Json) : List Dict := messages.flatMap messageEntries

/-- `_normalized_tool_result_indexes`. -/
def normalizedToolResultIndexes (indexes : List Int) : List Nat :=
  (indexes.filter fun index => decide (0 ≤ index)).map Int.toNat

/-- Whether a tool result is protected: by its ordinal among `count`, or by what it reports. -/
def isProtectedEntry (indexes : List Nat) (count index : Nat) (entry : Dict) : Bool :=
  decide (index ∈ indexes) ||
    (decide (settings.protectRecentResults ≠ 0) &&
      decide (count ≤ index + settings.protectRecentResults)) ||
    (settings.protectErrorResults && toolResultEntryIsError runtime entry) ||
    (settings.protectUnresolvedResults && toolResultEntryIsUnresolved runtime entry)

def protectedToolResultFlags (protectedToolResultIndexes : List Int) (messages : List Json) :
    List Bool :=
  let entries := toolResultEntries messages
  entries.mapIdx
    (isProtectedEntry runtime settings (normalizedToolResultIndexes protectedToolResultIndexes)
      entries.length)

/-- A block of a message whose results are not serialized yet, or what else stands there. -/
def protectedToolResultIndexesFrom (ordinal : Nat) : List Dict → List Nat
  | [] => []
  | block :: rest =>
      let status := block.get "execution_status"
      let isError := block.get "is_error" = .bool true
      if (settings.protectErrorResults = true ∧
            (isError ∨ executionStatusIsFailure runtime status = true)) ∨
          (settings.protectUnresolvedResults = true ∧
            executionStatusIsUnresolved runtime status = true) then
        ordinal :: protectedToolResultIndexesFrom (ordinal + 1) rest
      else protectedToolResultIndexesFrom (ordinal + 1) rest

/-- `protected_tool_result_indexes`, of messages whose results are all blocks. -/
def protectedToolResultIndexes (messages : List Json) : List Nat :=
  protectedToolResultIndexesFrom runtime settings 0
    ((messages.filterMap fields?).flatMap fun (message : Dict) =>
      (blocksOf (message.get "content")).filter (hasType "tool_result"))

end

end OpenStarry.RequestProof
