import OpenStarry.History.SilentReply
import OpenStarry.History.WellPaired

/-!
# Messages from a stored turn

A turn of the assistant is one row: the texts, calls and results of all its rounds in one list. To
send it again the rounds are told apart. A result closes its round, and what comes after opens the
next one.
-/

namespace OpenStarry.History

open Lib Text

/-! ### The status of a result -/

inductive StatusValue where
  | success
  | error
  | timeout
  | cancelled
  | unknown
  deriving DecidableEq, Repr

inductive StatusSource where
  | toolRuntime
  | adapter
  | replay
  | legacy
  | unknown
  deriving DecidableEq, Repr

inductive Preservation where
  | normal
  | diagnostic
  | retainSummary
  | retainFull
  | ephemeral
  deriving DecidableEq, Repr

namespace StatusValue

def name : StatusValue → Str
  | success => "success".toList
  | error => "error".toList
  | timeout => "timeout".toList
  | cancelled => "cancelled".toList
  | unknown => "unknown".toList

def all : List StatusValue := [success, error, timeout, cancelled, unknown]

end StatusValue

namespace StatusSource

def name : StatusSource → Str
  | toolRuntime => "tool_runtime".toList
  | adapter => "adapter".toList
  | replay => "replay".toList
  | legacy => "legacy".toList
  | unknown => "unknown".toList

def all : List StatusSource := [toolRuntime, adapter, replay, legacy, unknown]

end StatusSource

namespace Preservation

def name : Preservation → Str
  | normal => "normal".toList
  | diagnostic => "diagnostic".toList
  | retainSummary => "retain_summary".toList
  | retainFull => "retain_full".toList
  | ephemeral => "ephemeral".toList

def all : List Preservation := [normal, diagnostic, retainSummary, retainFull, ephemeral]

end Preservation

def named {κ : Type} (all : List κ) (name : κ → Str) (value : Json) : Option κ :=
  value.str?.bind fun s => all.find? fun k => name k = s

/-- An `int`. -/
structure IntNumber where
  number : Number
  isInt : (number.text.all fun c => c.isDigit || c = '-') = true
  deriving DecidableEq, Repr

structure ExecutionStatus where
  status : StatusValue
  exitCode : Option IntNumber
  timedOut : Bool
  truncated : Bool
  reason : Option Str
  source : StatusSource
  preservationClass : Preservation
  deriving DecidableEq, Repr

/-- `_as_exit_code`. -/
def asExitCode : Json → Option IntNumber
  | .num n => if h : (n.text.all fun c => c.isDigit || c = '-') = true then some ⟨n, h⟩ else none
  | _ => none

/-- `_as_bool`. -/
def asBool : Json → Bool
  | .bool b => b
  | _ => false

/-- `normalize_execution_status`. -/
def normalizeExecutionStatus (value : Json) : ExecutionStatus :=
  match value.fields? with
  | none => ⟨.unknown, none, false, false, none, .unknown, .normal⟩
  | some fields =>
      let status := named StatusValue.all StatusValue.name (fields.get "status")
      ⟨status.getD .unknown, asExitCode (fields.get "exit_code"), asBool (fields.get "timed_out"),
        asBool (fields.get "truncated"),
        if status.isSome then (fields.get "reason").str? else some "invalid_status".toList,
        (named StatusSource.all StatusSource.name (fields.get "source")).getD .unknown,
        (named Preservation.all Preservation.name (fields.get "preservation_class")).getD .normal⟩

/-- `normalize_legacy_execution_status`. -/
def normalizeLegacyExecutionStatus (isError : Bool) : ExecutionStatus :=
  ⟨if isError then .error else .unknown, none, false, false, some "legacy_missing_status".toList,
    .legacy, if isError then .diagnostic else .normal⟩

/-! ### From segments to messages -/

/-- What a block holds that pairing calls and results never looks at. -/
inductive Payload where
  | input (fields : Dict)
  | result (content : Json) (status : ExecutionStatus)
  deriving DecidableEq, Repr

/-- `_coerce_tool_input`. -/
def coerceToolInput (host : Host) : Json → Dict
  | .obj fields => fields
  | .str s => ((Json.loads host.number s).bind Json.fields?).getD []
  | _ => []

/-- What the closure `_flush` works on. -/
structure Pending where
  messages : List (Message Payload)
  assistant : List (Block Payload)
  results : List (Block Payload)
  deriving DecidableEq, Repr

namespace Pending

/-- `_flush`. -/
def flush (p : Pending) : Pending :=
  ⟨p.messages ++
      ((if p.assistant = [] then [] else [⟨.assistant, .blocks p.assistant, none⟩]) ++
        if p.results = [] then [] else [⟨.user, .blocks p.results, none⟩]), [], []⟩

def opened (p : Pending) : Pending := if p.results = [] then p else p.flush

def addAssistant (p : Pending) (block : Block Payload) : Pending :=
  { p.opened with assistant := p.opened.assistant ++ [block] }

end Pending

/-- A `text` segment. A text that is no string is refused. -/
def addText (p : Pending) (segment : Segment) : Option Pending :=
  if (segment.get "text").truthy then
    (segment.get "text").str?.map fun s => p.addAssistant (.text (String.ofList s))
  else some p

def orElse (a b : Json) : Json := if a.truthy then a else b

/-- A `tool_use` segment. -/
def addToolUse (host : Host) (p : Pending) (segment : Segment) : Option Pending :=
  let toolUseId := orElse (segment.get "tool_use_id") (segment.get "id")
  let name := segment.get "name"
  if toolUseId.truthy && name.truthy then
    toolUseId.str?.bind fun toolUseId => name.str?.map fun name =>
      p.addAssistant (.toolUse (String.ofList toolUseId) (String.ofList name)
        (.input (coerceToolInput host (segment.get "input"))))
  else some p

def resultContent (host : Host) (segment : Segment) : Json :=
  if segment.has "result" then
    match segment.get "result" with
    | .str s => .str s
    | .arr items => .arr items
    | value => .str (host.str value)
  else .str []

/-- A `tool_result` segment. -/
def addToolResult (host : Host) (p : Pending) (segment : Segment) : Option Pending :=
  let isError := (segment.get "is_error").truthy
  if (segment.get "tool_use_id").truthy then
    (segment.get "tool_use_id").str?.map fun toolUseId =>
      let status := if segment.has "execution_status" then
        normalizeExecutionStatus (segment.get "execution_status")
        else normalizeLegacyExecutionStatus isError
      { p with results := p.results ++
          [.toolResult (String.ofList toolUseId) (.result (resultContent host segment) status)
            isError] }
  else some p

/-- One turn of the loop. `none` when a block is refused. -/
def addSegment (host : Host) (p : Pending) (segment : Segment) : Option Pending :=
  if segment.get "type" = .str "text".toList then addText p segment
  else if segment.get "type" = .str "tool_use".toList then addToolUse host p segment
  else if segment.get "type" = .str "tool_result".toList then addToolResult host p segment
  else some p

/-! ### What the content of the row adds -/

namespace Block

def textOf : Block Payload → Option String
  | text s => some s
  | _ => none

end Block

def modifyFirst {β : Type} (p : β → Bool) (f : β → β) : List β → List β
  | [] => []
  | x :: rest => if p x then f x :: rest else x :: modifyFirst p f rest

def isAssistant (m : Message Payload) : Bool := m.role = .assistant

def hasBlocks (m : Message Payload) : Bool :=
  match m.content with
  | .text _ => false
  | .blocks _ => isAssistant m

def textsOf (m : Message Payload) : List String := m.content.list.filterMap Block.textOf

def withBlocks (f : List (Block Payload) → List (Block Payload)) (m : Message Payload) :
    Message Payload :=
  { m with content := .blocks (f m.content.list) }

def preserveText (content : Str) (messages : List (Message Payload)) : List (Message Payload) :=
  if strip content = [] ∨ messages.any (fun m => isAssistant m && !(textsOf m).isEmpty) then messages
  else if messages = [] then [⟨.assistant, .text (String.ofList content), none⟩]
  else modifyFirst isAssistant (withBlocks (Block.text (String.ofList content) :: ·)) messages

def artifactMarker : Str := "[generated artifact omitted:".toList

/-- `marker_text`. -/
def markerText (content : Str) : Str :=
  ['\n'].intercalate
    (((splitlines content).map strip).filter fun line => artifactMarker.isPrefixOf line)

/-- `existing`. -/
def existingText (m : Message Payload) : Str := ['\n'].intercalate ((textsOf m).map String.toList)

def contains (pattern text : Str) : Bool := (find pattern text).isSome

/-- The lines about artifacts are added where the last message of the assistant lacks them. -/
def preserveMarkers (content : Str) (messages : List (Message Payload)) : List (Message Payload) :=
  if !contains artifactMarker content || markerText content = [] then messages
  else
    let marker := Block.text (String.ofList (markerText content))
    match messages.reverse.find? hasBlocks with
    | some m =>
        if contains (markerText content) (existingText m) then messages
        else (modifyFirst hasBlocks (withBlocks (· ++ [marker])) messages.reverse).reverse
    | none =>
        if messages = [] then
          [⟨.assistant, .text (String.ofList (markerText content)), none⟩]
        else messages

def withReasoning (reasoning : Option String) (messages : List (Message Payload)) :
    List (Message Payload) :=
  match reasoning.filter (· ≠ "") with
  | none => messages
  | some reasoning => modifyFirst isAssistant ({ · with reasoningContent := some reasoning }) messages

/-- The content and the segments once the control tokens are gone. -/
def sanitized (host : Host) (turnContext : Option Dict) (content : Content Payload)
    (toolCalls : Option (List Segment)) : Content Payload × Option (List Segment) :=
  match content with
  | .text s =>
      let silent := sanitizeHistoricalSilentReply host turnContext s.toList toolCalls
      (.text (String.ofList silent.content), silent.segments)
  | .blocks bs =>
      (.blocks bs, toolCalls.map fun segments =>
        (sanitizeSilentReplySegments host (historyContext host turnContext) segments).segments)

namespace Content

def truthy : Content Payload → Bool
  | .text s => s ≠ ""
  | .blocks bs => !bs.isEmpty

end Content

def reconstructAssistant (host : Host) (content : Content Payload) (segments : List Segment)
    (reasoning : Option String) : Option (List (Message Payload)) :=
  (segments.foldlM (addSegment host) ⟨[], [], []⟩).map fun p =>
    match content with
    | .text s =>
        withReasoning reasoning
          (preserveMarkers s.toList (preserveText s.toList p.flush.messages))
    | .blocks _ => withReasoning reasoning p.flush.messages

/-- `reconstruct_messages_from_entry`. -/
def reconstructMessagesFromEntry (host : Host) (role : Str) (content : Content Payload)
    (toolCalls : Option (List Segment)) (reasoning : Option String) (turnContext : Option Dict) :
    Option (List (Message Payload)) :=
  if role = "user".toList then
    some (if content.truthy then [⟨.user, content, none⟩] else [])
  else if role = "assistant".toList then
    let cleaned := sanitized host turnContext content toolCalls
    match cleaned.2 with
    | some (segment :: rest) => reconstructAssistant host cleaned.1 (segment :: rest) reasoning
    | _ => some (if cleaned.1.truthy then [⟨.assistant, cleaned.1, reasoning⟩] else [])
  else some []

end OpenStarry.History
