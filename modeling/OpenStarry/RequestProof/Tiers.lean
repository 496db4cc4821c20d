import Mathlib.Algebra.GroupWithZero.Nat
import OpenStarry.RequestProof.ToolResults

/-!
# The passes over a request

Leaked markers are scrubbed first. Then come the four tiers, each harsher than the one before: long
tool results, the older assistant messages, the whole turn, and stubs for all that is not protected.
Each pass works on a copy of its own.
-/

namespace OpenStarry.RequestProof

open Lib Lib.Text Lib.Json

/-! ### Places in a message -/

def mapArguments (f : Dict → Str → Str) (message : Dict) : Dict :=
  message.update "tool_calls" (mapItems (mapObj fun call =>
    call.update "function" (mapObj fun function => function.update "arguments" (mapStr (f call)))))

def callArguments (call : Json) : Option Str :=
  call.fields?.bind fun call =>
    (call.get "function").fields?.bind fun function => (function.get "arguments").str?

def messageArguments (message : Dict) : List Str :=
  (message.get "tool_calls").items.filterMap callArguments

def mapResultContent (f g : Str → Str) : Json → Json
  | .str s => .str (f s)
  | content => mapItems (mapObj (Dict.update "text" (mapStr g))) content

def mapBlocks (f : Bool → Dict → Dict) : List Bool → List Json → List Json
  | _, [] => []
  | flags, block :: rest =>
      if isToolResult block then
        mapObj (f (flags.headD false)) block :: mapBlocks f flags.tail rest
      else mapObj (f false) block :: mapBlocks f flags rest

def mapMessagesFrom (f : Nat → List Bool → Dict → Dict) : Nat → List Bool → List Json → List Json
  | _, _, [] => []
  | index, flags, message :: rest =>
      let count := (messageEntries message).length
      mapObj (f index (flags.take count)) message ::
        mapMessagesFrom f (index + 1) (flags.drop count) rest

section

variable (runtime : Runtime) (settings : Settings)

/-! ### Leaked markers -/

def scrubbedArguments (arguments : Str) : Str :=
  (providerContextArgumentsJson runtime true arguments).getD arguments

/-- `compacted_input != tool_input`, where the order of the fields does not count. -/
def sameFields (a b : Dict) : Bool :=
  a.length = b.length && a.all fun p => b.lookup p.1 = some p.2

def scrubbedInput (input : Dict) : Dict :=
  let compacted := compactToolInput runtime settings input
  if sameFields compacted input then input else compacted

def scrubBlock (block : Dict) : Dict :=
  if hasType "tool_use" block then block.update "input" (mapObj (scrubbedInput runtime settings))
  else block

def scrubMessage (message : Dict) : Dict :=
  if hasRole "assistant" message then
    (mapArguments (fun _ => scrubbedArguments runtime) message).update "content"
      (mapItems (mapObj (scrubBlock runtime settings)))
  else message

def scrubsMessage (message : Dict) : Bool :=
  hasRole "assistant" message &&
    ((messageArguments message).any
        (fun arguments => (providerContextArgumentsJson runtime true arguments).isSome) ||
      (blocksOf (message.get "content")).any fun block =>
        hasType "tool_use" block &&
          (block.get "input").fields?.any fun (input : Dict) =>
            !sameFields (compactToolInput runtime settings input) input)

/-- `_scrub_leaked_tool_argument_projections_once`, and whether it changed something. -/
def scrubLeakedToolArgumentProjections (payload : Dict) : Dict × Bool :=
  if (messagesOf payload).any fun message => message.fields?.any (scrubsMessage runtime settings) then
    (onMessages (List.map (mapObj (scrubMessage runtime settings))) payload, true)
  else (payload, false)

/-! ### Tier 1 -/

def boundaryProjectedResultPrefixes : List Str :=
  ["[tool_result_projection]\n".toList, "[aggregate_tool_result_compacted]\n".toList,
    "[duplicate_tool_result_elided]\n".toList]

def toolResultContentIsProviderProjection (content : Str) : Bool :=
  boundaryProjectedResultPrefixes.any fun start => start.isPrefixOf content

def compactResultText (text : Str) : Str :=
  if settings.skipProjected && toolResultContentIsProviderProjection text then text
  else compactString settings text

def compactToolEntry (isProtected : Bool) (entry : Dict) : Dict :=
  if isProtected then entry
  else entry.update "content" (mapResultContent (compactResultText settings) (compactResultText settings))

def compactToolMessage (_index : Nat) (flags : List Bool) (message : Dict) : Dict :=
  if isToolMessage message then compactToolEntry settings (flags.headD false) message
  else
    message.update "content" (mapArr (mapBlocks
      (fun flag block =>
        if hasType "tool_result" block then compactToolEntry settings flag block else block)
      flags))

def compactToolPayload (protectedIndexes : List Int) (payload : Dict) : Dict :=
  onMessages
    (fun messages =>
      mapMessagesFrom (compactToolMessage settings) 0
        (protectedToolResultFlags runtime settings protectedIndexes messages) messages)
    payload

/-! ### Tier 2 -/

def aggregateToolArguments (messages : List Json) : Bool :=
  let protectedIndex := protectedRecentAssistantIndex settings messages
  let arguments := (messages.mapIdx fun index message =>
    if some index = protectedIndex ∨ isAssistant message = false then []
    else (message.fields?.map messageArguments).getD []).flatten
  decide (1 < arguments.length) && decide (640 * 4 < (arguments.map List.length).sum)

def tailArguments (aggregate : Bool) (arguments : Str) : Str :=
  (providerContextArgumentsJson runtime false arguments).getD
    (compactToolArguments runtime settings (!aggregate) arguments)

def compactRecentTailBlock (ofAssistant : Bool) (block : Dict) : Dict :=
  if hasType "tool_use" block then
    block.set "input" (mapObj (compactToolInput runtime settings) (block.get "input"))
  else if hasType "thinking" block then
    block.update "thinking" (mapStr (compactTailString settings runtime "thinking_block".toList))
  else if ofAssistant && hasType "text" block then
    block.update "text" (mapStr (compactTailString settings runtime "text_block".toList))
  else block

def compactRecentTailMessage (aggregate : Bool) (message : Dict) : Dict :=
  let ofAssistant := hasRole "assistant" message
  let called :=
    if ofAssistant then
      mapArguments (fun _ => tailArguments runtime settings aggregate)
        (message.update "reasoning_content"
          (mapStr (compactTailString settings runtime "reasoning_content".toList)))
    else message
  called.update "content" (mapItems (mapObj (compactRecentTailBlock runtime settings ofAssistant)))

/-- `_compact_recent_tail_payload_once`, and whether the arguments were taken together. -/
def compactRecentTailPayload (protectedIndexes : List Int) (payload : Dict) : Dict × Bool :=
  let messages := messagesOf payload
  let protectedIndex := protectedRecentAssistantIndex settings messages
  let aggregate := aggregateToolArguments settings messages
  let compacted := onMessages
    (fun messages =>
      messages.mapIdx fun index message =>
        if some index = protectedIndex then message
        else mapObj (compactRecentTailMessage runtime settings aggregate) message)
    payload
  (compactToolPayload runtime settings protectedIndexes compacted, aggregate)

/-! ### Tier 3 -/

def emergencyArguments (arguments : Str) : Str :=
  (providerContextArgumentsJson runtime false arguments).getD
    (emergencyCompactString settings runtime "tool_arguments".toList arguments)

def compactUserContentForProvider : Json → Json
  | .str s => .str (emergencyCompactString settings runtime "user_context".toList s)
  | content =>
      mapItems (mapObj fun block =>
        if hasType "text" block then
          block.update "text" (mapStr (emergencyCompactString settings runtime "user_text".toList))
        else block)
        content

def emergencyCompactBlock (ofAssistant flag : Bool) (block : Dict) : Dict :=
  if hasType "tool_result" block then
    if flag then block
    else
      block.update "content" (mapResultContent
        (emergencyCompactString settings runtime "tool_result".toList)
        (emergencyCompactString settings runtime "tool_result_text".toList))
  else if hasType "thinking" block then
    block.update "thinking" (mapStr (emergencyCompactString settings runtime "thinking_block".toList))
  else if ofAssistant && hasType "text" block then
    block.update "text" (mapStr (emergencyCompactString settings runtime "text_block".toList))
  else block

def emergencyCompactUser (isActive isProtected : Bool) (message : Dict) : Dict :=
  if hasRole "user" message && !isActive && !isProtected then
    message.set "content" (compactUserContentForProvider runtime settings (message.get "content"))
  else message

def emergencyCompactText (isProtected : Bool) (message : Dict) : Dict :=
  if hasRole "assistant" message && !isProtected then
    message.update "content"
      (mapStr (emergencyCompactString settings runtime "assistant_content".toList))
  else if hasRole "tool" message && !isProtected then
    message.update "content" (mapStr (emergencyCompactString settings runtime "tool_content".toList))
  else message

def emergencyCompactCalls (message : Dict) : Dict :=
  if hasRole "assistant" message then
    mapArguments (fun _ => emergencyArguments runtime settings)
      (message.update "reasoning_content"
        (mapStr (emergencyCompactString settings runtime "reasoning_content".toList)))
  else message

def emergencyCompactMessage (protectedIndex activeIndex : Option Nat) (index : Nat)
    (flags : List Bool) (message : Dict) : Dict :=
  if some index = protectedIndex then message
  else
    let isProtected := flags.any id
    let isActive := decide (some index = activeIndex)
    let called := emergencyCompactCalls runtime settings (emergencyCompactText runtime settings
      isProtected (emergencyCompactUser runtime settings isActive isProtected message))
    called.update "content" (mapArr (mapBlocks
      (emergencyCompactBlock runtime settings (hasRole "assistant" message)) flags))

def emergencyCompactCurrentTurnPayload (activeUserMessageIndex : Option Int)
    (protectedIndexes : List Int) (payload : Dict) : Dict :=
  let messages := messagesOf payload
  let protectedIndex := protectedRecentAssistantIndex settings messages
  let activeIndex := (activeUserAnchor messages activeUserMessageIndex).map Prod.fst
  onMessages
    (mapMessagesFrom (emergencyCompactMessage runtime settings protectedIndex activeIndex) 0
      (protectedToolResultFlags runtime settings protectedIndexes messages))
    payload

/-! ### Tier 4 -/

def resolvedToolCallIds (messages : List Json) : List Str :=
  (messages.filterMap fields?).flatMap fun (message : Dict) =>
    (if hasRole "tool" message then (message.get "tool_call_id").str?.toList else []) ++
      ((blocksOf (message.get "content")).filter (hasType "tool_result")).filterMap fun block =>
        (block.get "tool_use_id").str?

def hardCompactContentForProvider (label : Str) : Json → Json
  | .str s => .str (hardCompactString settings runtime label s)
  | content =>
      let hard (suffix : String) : Json → Json :=
        mapStr (hardCompactString settings runtime (label ++ suffix.toList))
      mapItems (mapObj fun block =>
        ((block.update "text" (hard "_text")).update "content" (hard "_content")).update "thinking"
          (hard "_thinking"))
        content

def criticalToolContentForProvider : Json → Json
  | .str s => .str (emergencyCompactString settings runtime "tool_result".toList s)
  | content =>
      mapItems (mapObj fun block =>
        block.update "content" (mapStr (emergencyCompactString settings runtime "tool_result".toList)))
        content

def finalArguments (resolved : List Str) (call : Dict) (arguments : Str) : Str :=
  match call.get "id" with
  | .str id =>
      if id ∈ resolved then compactToolArgumentsForFinalCap runtime settings arguments else arguments
  | _ => arguments

def hardCapToolContent (content : Json) : Json :=
  if toolContentIsCritical runtime content then criticalToolContentForProvider runtime settings content
  else hardCompactContentForProvider runtime settings "tool_result".toList content

def hardCapAssistant (resolved : List Str) (message : Dict) : Dict :=
  mapArguments (finalArguments runtime settings resolved)
    ((message.set "content"
      (hardCompactContentForProvider runtime settings "assistant_content".toList
        (message.get "content"))).update "reasoning_content"
      (mapStr (hardCompactString settings runtime "reasoning_content".toList)))

def hardCapMessage (resolved : List Str) (protectedIndex activeIndex : Option Nat) (index : Nat)
    (flags : List Bool) (message : Dict) : Dict :=
  let content := message.get "content"
  if some index = protectedIndex then message
  else if flags.any id then message
  else if hasRole "user" message then
    if some index = activeIndex then message
    else
      message.set "content"
        (hardCompactContentForProvider runtime settings "user_context".toList content)
  else if hasRole "tool" message then
    message.set "content" (hardCapToolContent runtime settings content)
  else if hasRole "assistant" message then hardCapAssistant runtime settings resolved message
  else message

def finalHardCapPayload (activeUserMessageIndex : Option Int) (protectedIndexes : List Int)
    (payload : Dict) : Dict :=
  let messages := messagesOf payload
  let protectedIndex := protectedRecentAssistantIndex settings messages
  let activeIndex := (activeUserAnchor messages activeUserMessageIndex).map Prod.fst
  onMessages
    (mapMessagesFrom
      (hardCapMessage runtime settings (resolvedToolCallIds messages) protectedIndex activeIndex) 0
      (protectedToolResultFlags runtime settings protectedIndexes messages))
    payload

end

end OpenStarry.RequestProof
