import Mathlib.Algebra.GroupWithZero.Nat
import OpenStarry.Lib.Json
import OpenStarry.Lib.Keyed

/-!
# The tool stream accumulator

Streamed tool-call fragments are assembled into the events of a call: its start, its argument deltas
and its end. The identity of a call may arrive late and in pieces; until it is complete the events are
held back.
-/

namespace OpenStarry.ToolStream

open Lib Text

/-- An argument as a provider hands it over: no value, a text, or something else, which is true or
false in a condition. -/
inductive Arg where
  | none
  | text (value : Str)
  | foreign (truthy : Bool)
  deriving DecidableEq

def Arg.truthy : Arg → Bool
  | none => false
  | text value => value ≠ []
  | foreign truthy => truthy

/-- The text, where `isinstance(value, str)` holds. -/
def Arg.asText {ε : Type} (error : ε) : Arg → Except ε Str
  | text value => .ok value
  | _ => .error error

def Arg.asOptionalText {ε : Type} (error : ε) : Arg → Except ε (Option Str)
  | none => .ok Option.none
  | text value => .ok (some value)
  | foreign _ => .error error

inductive StreamEvent where
  | toolUseStart (toolUseId toolName : Str)
  | toolUseDelta (toolUseId jsonFragment : Str)
  | toolUseEnd (toolUseId toolName : Str) (arguments : Json)

def StreamEvent.toolUseId : StreamEvent → Str
  | toolUseStart toolUseId _ => toolUseId
  | toolUseDelta toolUseId _ => toolUseId
  | toolUseEnd toolUseId _ _ => toolUseId

/-! ### Protocol errors -/

inductive Verb where
  | start
  | appendOrStart
  | append
  | setMetadata
  | finishWithArguments
  deriving DecidableEq

def Verb.text : Verb → String
  | start => "start"
  | appendOrStart => "append_or_start"
  | append => "append"
  | setMetadata => "set_metadata"
  | finishWithArguments => "finish_with_arguments"

inductive Reason where
  | closedMutation
  | conflictingToolUseId
  | conflictingToolName
  | duplicateToolUseId
  | invalidToolUseId
  | invalidToolName
  | toolUseIdTooLarge
  | toolNameTooLarge
  | invalidArgumentsFragment
  | invalidToolArguments
  | unknownToolCall
  | incompleteToolIdentity
  | tooManyToolCalls
  | toolArgumentsTooLarge
  | totalToolArgumentsTooLarge
  | tooManyToolEvents
  deriving DecidableEq

def Reason.message : Reason → String
  | closedMutation => "closed tool call received a late mutation"
  | conflictingToolUseId => "tool call key received a conflicting id"
  | conflictingToolName => "tool call key received a conflicting name"
  | duplicateToolUseId => "different tool call keys reused one public id"
  | invalidToolUseId => "tool call id must be a string"
  | invalidToolName => "tool name must be a string"
  | toolUseIdTooLarge => "tool call id exceeded the identity limit"
  | toolNameTooLarge => "tool name exceeded the identity limit"
  | invalidArgumentsFragment => "tool argument fragment must be a string"
  | invalidToolArguments => "tool arguments must be a finite JSON object"
  | unknownToolCall => "tool lifecycle event referenced an unknown call"
  | incompleteToolIdentity => "tool call ended before its identity was complete"
  | tooManyToolCalls => "provider response exceeded the tool call limit"
  | toolArgumentsTooLarge => "one tool call exceeded the argument limit"
  | totalToolArgumentsTooLarge => "provider response exceeded the aggregate tool argument limit"
  | tooManyToolEvents => "provider response exceeded the tool event limit"

structure ToolStreamProtocolError (κ : Type) where
  operation : Verb
  key : κ
  toolUseId : Str
  reason : Reason := .closedMutation
  limit : Option Nat := none
  observed : Option Nat := none

/-! ### State -/

structure Limits where
  maxCalls : Nat := 256
  maxToolUseIdChars : Nat := 1024
  maxToolNameChars : Nat := 256
  maxArgumentChars : Nat := 256000
  maxTotalArgumentChars : Nat := 1024000
  maxEvents : Nat := 65536
  positive : ∀ limit ∈ [maxCalls, maxToolUseIdChars, maxToolNameChars, maxArgumentChars,
    maxTotalArgumentChars, maxEvents], 1 ≤ limit := by decide

structure PendingToolCall (ν : Type) where
  toolUseId : Str
  toolName : Str
  wireId : Option Str := none
  jsonParts : List Str := []
  metadata : List (Str × ν) := []
  startEmitted : Bool := false
  argumentChars : Nat := 0

structure ToolStreamAccumulator (κ ν : Type) where
  limits : Limits
  calls : List (κ × PendingToolCall ν) := []
  closed : List κ := []
  /-- Public ids and late wire ids share one namespace. -/
  identityKeys : List (Str × κ) := []
  totalArgumentChars : Nat := 0
  eventCount : Nat := 0
  pendingUnemittedEvents : Int := 0
  pendingUnemittedChars : Int := 0

/-- `_has_identity_value`. -/
def hasIdentityValue (value : Str) : Bool := strip value ≠ []

namespace ToolStreamAccumulator

variable {κ ν : Type} [DecidableEq κ] (acc : ToolStreamAccumulator κ ν)

def rejectClosedMutation (key : κ) (operation : Verb) : Except (ToolStreamProtocolError κ) Unit :=
  if key ∈ acc.closed then
    .error
      { operation, key,
        toolUseId := ((acc.calls.lookup key).map PendingToolCall.toolUseId).getD [] }
  else .ok ()

def reserveEvent (operation : Verb) (key : κ) (toolUseId : Str) :
    Except (ToolStreamProtocolError κ) (ToolStreamAccumulator κ ν) :=
  let observed := acc.eventCount + 1
  if acc.limits.maxEvents < observed then
    .error
      { operation, key, toolUseId, reason := .tooManyToolEvents, limit := acc.limits.maxEvents,
        observed }
  else .ok { acc with eventCount := observed }

def reserveIdentity (operation : Verb) (key : κ) (toolUseId : Str) :
    Except (ToolStreamProtocolError κ) (ToolStreamAccumulator κ ν) :=
  if acc.limits.maxToolUseIdChars < toolUseId.length then
    .error
      { operation, key, toolUseId := [], reason := .toolUseIdTooLarge,
        limit := acc.limits.maxToolUseIdChars, observed := toolUseId.length }
  else if hasIdentityValue toolUseId = false then .ok acc
  else if (acc.identityKeys.lookup toolUseId).any fun existing => existing ≠ key then
    .error { operation, key, toolUseId, reason := .duplicateToolUseId }
  else .ok { acc with identityKeys := Keyed.assign Prod.fst (toolUseId, key) acc.identityKeys }

def validateToolName (operation : Verb) (key : κ) (toolUseId toolName : Str) :
    Except (ToolStreamProtocolError κ) Unit :=
  if acc.limits.maxToolNameChars < toolName.length then
    .error
      { operation, key, toolUseId, reason := .toolNameTooLarge, limit := acc.limits.maxToolNameChars,
        observed := toolName.length }
  else .ok ()

def store (key : κ) (call : PendingToolCall ν) : ToolStreamAccumulator κ ν :=
  { acc with calls := Keyed.assign Prod.fst (key, call) acc.calls }

def appendFragment (operation : Verb) (key : κ) (call : PendingToolCall ν) (fragment : Arg) :
    Except (ToolStreamProtocolError κ) (ToolStreamAccumulator κ ν × PendingToolCall ν) :=
  match fragment with
  | .text fragment =>
      let perCallObserved := call.argumentChars + fragment.length
      let totalObserved := acc.totalArgumentChars + fragment.length
      if acc.limits.maxArgumentChars < perCallObserved then
        .error
          { operation, key, toolUseId := call.toolUseId, reason := .toolArgumentsTooLarge,
            limit := acc.limits.maxArgumentChars, observed := perCallObserved }
      else if acc.limits.maxTotalArgumentChars < totalObserved then
        .error
          { operation, key, toolUseId := call.toolUseId, reason := .totalToolArgumentsTooLarge,
            limit := acc.limits.maxTotalArgumentChars, observed := totalObserved }
      else do
        let acc ← acc.reserveEvent operation key call.toolUseId
        return ({ acc with totalArgumentChars := totalObserved },
          { call with
            jsonParts := call.jsonParts ++ [fragment], argumentChars := perCallObserved })
  | _ =>
      .error
        { operation, key, toolUseId := call.toolUseId, reason := .invalidArgumentsFragment }

def growPending (call : PendingToolCall ν) (new old : Str) : ToolStreamAccumulator κ ν :=
  if call.startEmitted then acc
  else { acc with
    pendingUnemittedChars := acc.pendingUnemittedChars + (new.length - old.length : Int) }

def mergeToolName (operation : Verb) (key : κ) (call : PendingToolCall ν) (toolName : Str) :
    Except (ToolStreamProtocolError κ) (ToolStreamAccumulator κ ν × PendingToolCall ν) :=
  if hasIdentityValue toolName = false then .ok (acc, call)
  else if hasIdentityValue call.toolName = true ∧ call.toolName ≠ toolName then
    .error { operation, key, toolUseId := call.toolUseId, reason := .conflictingToolName }
  else if hasIdentityValue call.toolName = true then .ok (acc, call)
  else .ok (acc.growPending call toolName call.toolName, { call with toolName })

def heldChars (call : PendingToolCall ν) : Int :=
  call.toolUseId.length + call.toolName.length + (call.jsonParts.map List.length).sum

def registerPendingCall (call : PendingToolCall ν) : ToolStreamAccumulator κ ν :=
  { acc with
    pendingUnemittedEvents := acc.pendingUnemittedEvents + (1 + call.jsonParts.length)
    pendingUnemittedChars := acc.pendingUnemittedChars + heldChars call }

/-- One start with a complete identity, and the deltas that were held back. -/
def emitStartIfReady (call : PendingToolCall ν) :
    ToolStreamAccumulator κ ν × PendingToolCall ν × List StreamEvent :=
  if call.startEmitted = true ∨ hasIdentityValue call.toolUseId = false ∨
      hasIdentityValue call.toolName = false then
    (acc, call, [])
  else
    ({ acc with
        pendingUnemittedEvents := acc.pendingUnemittedEvents - (1 + call.jsonParts.length)
        pendingUnemittedChars := acc.pendingUnemittedChars - heldChars call },
      { call with startEmitted := true },
      .toolUseStart call.toolUseId call.toolName ::
        call.jsonParts.map (StreamEvent.toolUseDelta call.toolUseId))

/-- A call on its first sight. `reported` is the id an error names. -/
def openCall (operation : Verb) (key : κ) (reported publicId toolName : Str) (wireId : Option Str) :
    Except (ToolStreamProtocolError κ) (ToolStreamAccumulator κ ν × PendingToolCall ν) :=
  let observed := acc.calls.length + 1
  if acc.limits.maxCalls < observed then
    .error
      { operation, key, toolUseId := reported, reason := .tooManyToolCalls,
        limit := acc.limits.maxCalls, observed }
  else do
    let acc ← acc.reserveIdentity operation key publicId
    let acc ← acc.reserveEvent operation key publicId
    let call : PendingToolCall ν := { toolUseId := publicId, toolName, wireId }
    return ((acc.store key call).registerPendingCall call, call)

/-! ### Operations -/

/-- The id a later `start` brings. -/
def mergeToolUseId (key : κ) (call : PendingToolCall ν) (toolUseId : Str) :
    Except (ToolStreamProtocolError κ) (ToolStreamAccumulator κ ν × PendingToolCall ν) :=
  if hasIdentityValue toolUseId = false then .ok (acc, call)
  else if hasIdentityValue call.toolUseId = true ∧ call.toolUseId ≠ toolUseId then
    .error
      { operation := .start, key, toolUseId := call.toolUseId, reason := .conflictingToolUseId }
  else if hasIdentityValue call.toolUseId = true then .ok (acc, call)
  else do
    let acc ← acc.reserveIdentity .start key toolUseId
    return (acc.growPending call toolUseId call.toolUseId,
      { call with toolUseId, wireId := some toolUseId })

/-- The call of a `start`, new or with its identity merged. -/
def identifyStart (key : κ) (toolUseId toolName : Str) :
    Except (ToolStreamProtocolError κ) (ToolStreamAccumulator κ ν × PendingToolCall ν) :=
  match acc.calls.lookup key with
  | none =>
      acc.openCall .start key toolUseId toolUseId toolName
        (if toolUseId = [] then none else some toolUseId)
  | some call => do
      let (acc, call) ← acc.mergeToolUseId key call toolUseId
      acc.mergeToolName .start key call toolName

def start (key : κ) (toolUseId toolName : Arg) :
    Except (ToolStreamProtocolError κ) (ToolStreamAccumulator κ ν × List StreamEvent) := do
  acc.rejectClosedMutation key .start
  let toolUseId ← toolUseId.asText
    { operation := .start, key, toolUseId := [], reason := .invalidToolUseId }
  let toolName ← toolName.asText
    { operation := .start, key, toolUseId, reason := .invalidToolName }
  acc.validateToolName .start key toolUseId toolName
  let (acc, call) ← acc.identifyStart key toolUseId toolName
  let (acc, call, events) := acc.emitStartIfReady call
  return (acc.store key call, events)

/-- The wire id a later chunk brings; the public id stays. -/
def mergeWireId (key : κ) (call : PendingToolCall ν) (toolCallId : Str) :
    Except (ToolStreamProtocolError κ) (ToolStreamAccumulator κ ν × PendingToolCall ν) :=
  if toolCallId = [] then .ok (acc, call)
  else if call.wireId.any fun wireId => wireId ≠ [] ∧ wireId ≠ toolCallId then
    .error
      { operation := .appendOrStart, key, toolUseId := call.toolUseId,
        reason := .conflictingToolUseId }
  else do
    let acc ← acc.reserveIdentity .appendOrStart key toolCallId
    return (acc, { call with wireId := some toolCallId })

/-- The fragment of a chunk, emitted or held back. -/
def feedFragment (operation : Verb) (key : κ) (call : PendingToolCall ν) (fragment : Arg) :
    Except (ToolStreamProtocolError κ)
      (ToolStreamAccumulator κ ν × PendingToolCall ν × List StreamEvent) := do
  let (acc, call) ← acc.appendFragment operation key call fragment
  match fragment with
  | .text text =>
      if call.startEmitted then return (acc, call, [.toolUseDelta call.toolUseId text])
      else
        return ({ acc with
          pendingUnemittedEvents := acc.pendingUnemittedEvents + 1
          pendingUnemittedChars := acc.pendingUnemittedChars + text.length }, call, [])
  | _ => return (acc, call, [])

/-- The call of a chunk, new or with its identity merged. -/
def identifyChunk (hex : Str) (key : κ) (toolCallId : Option Str) (toolName : Str) :
    Except (ToolStreamProtocolError κ) (ToolStreamAccumulator κ ν × PendingToolCall ν) :=
  let reported := toolCallId.getD []
  match acc.calls.lookup key with
  | none =>
      let publicId := if reported = [] then "call_".toList ++ hex.take 12 else reported
      acc.openCall .appendOrStart key reported publicId toolName toolCallId
  | some call => do
      let (acc, call) ← acc.mergeWireId key call reported
      acc.mergeToolName .appendOrStart key call toolName

/-- One delta whose identity may arrive late. `hex` is that of the identifier drawn for a call
without an id. -/
def appendOrStart (hex : Str) (key : κ) (toolCallId toolName fragment : Arg) :
    Except (ToolStreamProtocolError κ) (ToolStreamAccumulator κ ν × List StreamEvent) := do
  acc.rejectClosedMutation key .appendOrStart
  let toolCallId ← toolCallId.asOptionalText
    { operation := .appendOrStart, key, toolUseId := [], reason := .invalidToolUseId }
  let reported := toolCallId.getD []
  let toolName ← toolName.asText
    { operation := .appendOrStart, key, toolUseId := reported, reason := .invalidToolName }
  acc.validateToolName .appendOrStart key reported toolName
  let (acc, call) ← acc.identifyChunk hex key toolCallId toolName
  let (acc, call, events) := acc.emitStartIfReady call
  if fragment.truthy then
    let (acc, call, delta) ← acc.feedFragment .appendOrStart key call fragment
    return (acc.store key call, events ++ delta)
  else return (acc.store key call, events)

def append (key : κ) (fragment : Arg) :
    Except (ToolStreamProtocolError κ) (ToolStreamAccumulator κ ν × List StreamEvent) := do
  acc.rejectClosedMutation key .append
  match acc.calls.lookup key with
  | none => .error { operation := .append, key, toolUseId := [], reason := .unknownToolCall }
  | some call =>
      let (acc, call, events) ← acc.feedFragment .append key call fragment
      return (acc.store key call, events)

def setMetadata (key : κ) (name : Str) (value : ν) :
    Except (ToolStreamProtocolError κ) (ToolStreamAccumulator κ ν) := do
  acc.rejectClosedMutation key .setMetadata
  match acc.calls.lookup key with
  | none => .error { operation := .setMetadata, key, toolUseId := [], reason := .unknownToolCall }
  | some call =>
      return acc.store key
        { call with metadata := Keyed.assign Prod.fst (name, value) call.metadata }

def canonicalArguments : Json → Option Str
  | .obj fields => if (Json.obj fields).isFinite then some (Json.obj fields).dumps else none
  | _ => none

/-- `none` stands for arguments that are no JSON value. -/
def finishWithArguments (key : κ) (arguments : Option Json) :
    Except (ToolStreamProtocolError κ) (ToolStreamAccumulator κ ν × List StreamEvent) :=
  match acc.calls.lookup key with
  | none =>
      .error
        { operation := .finishWithArguments, key, toolUseId := [], reason := .unknownToolCall }
  | some call =>
      if key ∈ acc.closed then .ok (acc, [])
      else if call.startEmitted = false then
        .error
          { operation := .finishWithArguments, key, toolUseId := call.toolUseId,
            reason := .incompleteToolIdentity }
      else
        match arguments.bind fun value => (canonicalArguments value).map fun text => (value, text) with
        | none =>
            .error
              { operation := .finishWithArguments, key, toolUseId := call.toolUseId,
                reason := .invalidToolArguments }
        | some (value, text) =>
            let effectiveChars := max call.argumentChars text.length
            let totalObserved := acc.totalArgumentChars + (effectiveChars - call.argumentChars)
            if acc.limits.maxArgumentChars < effectiveChars then
              .error
                { operation := .finishWithArguments, key, toolUseId := call.toolUseId,
                  reason := .toolArgumentsTooLarge, limit := acc.limits.maxArgumentChars,
                  observed := effectiveChars }
            else if acc.limits.maxTotalArgumentChars < totalObserved then
              .error
                { operation := .finishWithArguments, key, toolUseId := call.toolUseId,
                  reason := .totalToolArgumentsTooLarge, limit := acc.limits.maxTotalArgumentChars,
                  observed := totalObserved }
            else do
              let acc ← acc.reserveEvent .finishWithArguments key call.toolUseId
              return ({ acc.store key { call with argumentChars := effectiveChars } with
                  totalArgumentChars := totalObserved
                  closed := acc.closed ++ [key] },
                [.toolUseEnd call.toolUseId call.toolName value])

end ToolStreamAccumulator

end OpenStarry.ToolStream
