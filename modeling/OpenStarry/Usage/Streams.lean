import OpenStarry.Lib.TransitionSystem
import OpenStarry.Usage.Receipts

/-!
# Accounted provider streams

A physical provider call is a generator: it opens a row in the ledger, passes the events of the
provider on, and closes the row. Each await is a boundary between steps. What comes back from the
provider and from the sink, when the task is cancelled, and what the consumer does, is up to the
environment.
-/

namespace OpenStarry.Usage

open Lib Text

/-! ### Reasons -/

/-- The error code of an event: a number, a text or anything else. -/
inductive ErrorCode where
  | int (n : Int)
  | text (s : Str)
  | other

def internalUsageUnknownReasons : List Str :=
  ["cancelled", "cancelled_before_provider_request", "direct_request_failed", "iteration_timeout",
    "missing_or_invalid_usage_receipt", "model_repetition_loop_detected", "process_restarted",
    "provider_error", "provider_exception", "provider_stream_ended_without_usage", "total_timeout",
    "usage_unknown"].map String.toList

def providerErrorCodeAliases : List (Str × Str) :=
  [("authentication_error", "authentication"), ("bad_request", "invalid_request"),
    ("canceled", "cancelled"), ("cancelled", "cancelled"), ("connection_error", "transport"),
    ("content_filter", "policy"), ("content_policy_violation", "policy"),
    ("context_length_exceeded", "context_limit"), ("context_window_exceeded", "context_limit"),
    ("deadline_exceeded", "timeout"), ("ensemble_aggregator_error", "internal"),
    ("ensemble_aggregator_incomplete", "incomplete_stream"),
    ("ensemble_aggregator_timeout", "timeout"),
    ("ensemble_fallback_incomplete", "incomplete_stream"), ("ensemble_fallback_timeout", "timeout"),
    ("forbidden", "permission"), ("incomplete_stream", "incomplete_stream"),
    ("incomplete_tool_call", "protocol_error"), ("invalid_api_key", "authentication"),
    ("invalid_json", "invalid_response"), ("invalid_request", "invalid_request"),
    ("invalid_request_error", "invalid_request"), ("invalid_response", "invalid_response"),
    ("invalid_response_status", "invalid_response"), ("invalid_stream_frame", "protocol_error"),
    ("invalid_stream_order", "protocol_error"), ("model_not_found", "not_found"),
    ("not_found", "not_found"), ("overloaded", "unavailable"), ("overloaded_error", "unavailable"),
    ("permission_error", "permission"), ("provider_internal", "internal"),
    ("provider_protocol_error", "protocol_error"),
    ("provider_request_budget_exhausted", "request_budget"), ("rate_limit_error", "rate_limit"),
    ("rate_limit_exceeded", "rate_limit"), ("rate_limited", "rate_limit"),
    ("request_error", "transport"), ("request_timeout", "timeout"),
    ("service_unavailable", "unavailable"), ("stream_incomplete", "incomplete_stream"),
    ("timeout", "timeout"), ("too_many_requests", "rate_limit"), ("unauthorized", "authentication"),
    ("unavailable", "unavailable")].map fun (code, category) => (code.toList, category.toList)

def providerError : Str := "provider_error".toList

/-- `provider_error_usage_reason`. -/
def providerErrorUsageReason (lower : Str → Str) : ErrorCode → Str
  | .int n => if 100 ≤ n ∧ n ≤ 599 then providerError ++ ":".toList ++ decimal n.toNat else providerError
  | .other => providerError
  | .text code =>
      if code = [] ∨ code ≠ strip code then providerError
      else if code.any fun c => c.toNat < 0x20 || c.toNat = 0x7F then providerError
      else if code.length = 3 ∧ code.all Char.isDigit ∧ 100 ≤ intOf code ∧ intOf code ≤ 599 then
        providerError ++ ":".toList ++ code
      else
        match providerErrorCodeAliases.lookup (lower code) with
        | some category => providerError ++ ":".toList ++ category
        | none => providerError

/-- `normalize_usage_unknown_reason`. -/
def normalizeUsageUnknownReason (lower : Str → Str) (reason : Str) : Str :=
  if reason ∈ internalUsageUnknownReasons then reason
  else if "provider_error:".toList.isPrefixOf reason then
    providerErrorUsageReason lower (.text (reason.drop "provider_error:".length))
  else if "raised:".toList.isPrefixOf reason then "provider_exception".toList
  else "usage_unknown".toList

/-! ### Calls -/

/-- The identity of the execution that a scope accounts for. -/
structure UsageExecutionContext where
  executionId : Str
  agentRunId : Str
  turnId : Option Str
  parentTurnId : Option Str
  sessionId : Option Str
  sessionEpoch : Int
  agentId : Str
  runKind : Str

structure UsageCallStart where
  eventId : Str
  callIndex : Nat
  context : UsageExecutionContext
  provider : Str
  model : Str
  startedAtMs : Int

def callName (executionId : Str) (callIndex : Nat) : Str :=
  "opensquilla:usage:".toList ++ executionId ++ ":".toList ++ decimal callIndex

/-- `UsageAccountingScope.new_call` for the next index. `uuid5` makes an id of a name. -/
def newCall (uuid5 : Str → Str) (context : UsageExecutionContext) (callIndex : Nat)
    (provider model : Str) (startedAtMs : Int) : UsageCallStart where
  eventId := uuid5 (callName context.executionId callIndex)
  callIndex := callIndex
  context := context
  provider := provider
  model := model
  startedAtMs := startedAtMs

/-! ### The generator -/

/-- An event object: what the provider put into it, and the deployment that accounting notes on it. -/
structure Event (V : Type) where
  fields : EventFields V
  deployment : Option (Str × Str)

/-- A terminal operation that is handed to the sink. -/
inductive TerminalWrite where
  | finalize (result : UsageCallResult)
  | markUnknown (reason : Str)

/-- How an awaited operation ends. -/
inductive Outcome where
  | completed | raised | cancelled
  deriving DecidableEq

/-- Where the generator is suspended. -/
inductive Phase (V : Type) where
  /-- Behind the shield of `sink.start`. -/
  | starting
  /-- Cancelled there, and waiting for `sink.start` itself. -/
  | resolvingStart
  /-- Closing a row that was opened when the cancellation came. -/
  | closingStart
  /-- Waiting for the next event of the provider. -/
  | streaming
  /-- Behind the shield of `sink.finalize`. -/
  | finalizing (event : Event V)
  /-- Cancelled there, and waiting for `sink.finalize` itself. -/
  | resolvingFinalize
  /-- An event is with the consumer. -/
  | yielded
  /-- Behind the shield of `sink.mark_unknown`. -/
  | marking
  /-- Waiting out the grace period after a cancellation. -/
  | markingAfterCancellation
  | exited

/-- A generator for one call, with what it has asked of the sink and of the provider so far. -/
structure Stream (V : Type) where
  call : UsageCallStart
  phase : Phase V
  terminal : Bool
  unknownReason : Str
  committed : Bool
  providerStarted : Bool
  issued : List TerminalWrite
  received : List (Event V)
  passed : List (Event V)

inductive StreamAction (V : Type) where
  /-- The operation of the sink that is waited for ends. -/
  | sinkEnds (outcome : Outcome)
  /-- The task is cancelled. -/
  | cancel
  | providerEvent (event : Event V)
  | providerEnds
  | providerRaises
  /-- The provider's coroutine ends by a cancellation. -/
  | providerCancelled
  | graceEnds
  | resume
  /-- The consumer closes the generator, or throws an exception or a cancellation into it. -/
  | close
  | throwException
  | throwCancellation

namespace Stream

variable {V : Type} (values : Values V) (code : V → ErrorCode) (s : Stream V)

def opened (call : UsageCallStart) : Stream V where
  call := call
  phase := .starting
  terminal := false
  unknownReason := "provider_stream_ended_without_usage".toList
  committed := false
  providerStarted := false
  issued := []
  received := []
  passed := []

def exit : Stream V := { s with phase := .exited }

/-- The `finally` of the generator. -/
def unwind (cancelled : Bool) (reason : Str) : Stream V :=
  if s.terminal then s.exit
  else
    { s with
      phase := if cancelled then .markingAfterCancellation else .marking
      unknownReason := reason
      issued := s.issued ++ [.markUnknown (normalizeUsageUnknownReason values.lower reason)] }

/-- The end of `sink.start`. -/
def startEnds : Outcome → Stream V
  | .completed => { s with phase := .streaming, committed := true, providerStarted := true }
  | .raised => s.exit
  | .cancelled => s.exit

/-- The end of `sink.start` after a cancellation: a row that is open is closed. -/
def resolveStart : Outcome → Stream V
  | .completed =>
      { s with
        phase := .closingStart
        committed := true
        issued := s.issued ++ [.markUnknown "cancelled_before_provider_request".toList] }
  | .raised => s.exit
  | .cancelled => s.exit

def pass (event : Event V) : Stream V :=
  { s with phase := .yielded, passed := s.passed ++ [event] }

/-- `finalize_usage_call` up to its first await; what raises there unwinds the generator. -/
def finalize (event : Event V) : Stream V :=
  let terminated := { s with terminal := true }
  match normalizeProviderUsage values event.fields s.call.provider s.call.model with
  | .ok result =>
      { terminated with phase := .finalizing event, issued := s.issued ++ [.finalize result] }
  | .error _ => terminated.unwind values false "provider_exception".toList

/-- One event of the provider. -/
def receive (event : Event V) : Stream V :=
  let taken := { s with received := s.received ++ [event] }
  if event.fields.kind = "done".toList ∧ s.terminal = false then
    taken.finalize values { event with deployment := some (s.call.provider, s.call.model) }
  else if event.fields.kind = "error".toList then
    let reasoned := { taken with
      unknownReason := providerErrorUsageReason values.lower (code event.fields.code) }
    if hasKnownProviderUsageReceipt values event.fields ∧ s.terminal = false then
      reasoned.finalize values event
    else reasoned.pass event
  else taken.pass event

/-- The end of `sink.finalize`; what it raises is logged. -/
def finalizeEnds (event : Event V) : Outcome → Stream V
  | .completed => s.pass event
  | .raised => s.pass event
  | .cancelled => s.unwind values true "cancelled".toList

def step : StreamAction V → Option (Stream V)
  | .sinkEnds outcome =>
      match s.phase with
      | .starting => some (s.startEnds outcome)
      | .resolvingStart => some (s.resolveStart outcome)
      | .closingStart => some s.exit
      | .finalizing event => some (s.finalizeEnds values event outcome)
      | .resolvingFinalize => some (s.unwind values true "cancelled".toList)
      | .marking => some s.exit
      | .markingAfterCancellation => some s.exit
      | _ => none
  | .cancel =>
      match s.phase with
      | .starting => some { s with phase := .resolvingStart }
      | .finalizing _ => some { s with phase := .resolvingFinalize }
      | .marking => some s.exit
      | .markingAfterCancellation => some s.exit
      -- the cancellation goes to the operation that is waited for
      | .resolvingStart | .closingStart | .streaming | .resolvingFinalize => some s
      | .yielded | .exited => none
  | .providerEvent event =>
      match s.phase with
      | .streaming => some (s.receive values code event)
      | _ => none
  | .providerEnds =>
      match s.phase with
      | .streaming => some (s.unwind values false s.unknownReason)
      | _ => none
  | .providerRaises =>
      match s.phase with
      | .streaming => some (s.unwind values false "provider_exception".toList)
      | _ => none
  | .providerCancelled =>
      match s.phase with
      | .streaming => some (s.unwind values true "cancelled".toList)
      | _ => none
  | .graceEnds =>
      match s.phase with
      | .markingAfterCancellation => some s.exit
      | _ => none
  | .resume =>
      match s.phase with
      | .yielded => some { s with phase := .streaming }
      | _ => none
  | .close =>
      match s.phase with
      | .yielded => some (s.unwind values false s.unknownReason)
      | _ => none
  | .throwException =>
      match s.phase with
      | .yielded => some (s.unwind values false "provider_exception".toList)
      | _ => none
  | .throwCancellation =>
      match s.phase with
      | .yielded => some (s.unwind values true "cancelled".toList)
      | _ => none

end Stream

/-! ### Scopes -/

/-- A scope and the streams it accounts for. -/
structure Scope (V : Type) where
  context : UsageExecutionContext
  callIndex : Nat
  streams : List (Stream V)

inductive Action (V : Type) where
  | newCall (provider model : Str) (startedAtMs : Int)
  | act (i : Nat) (action : StreamAction V)

def Scope.step {V : Type} (values : Values V) (code : V → ErrorCode) (uuid5 : Str → Str)
    (s : Scope V) : Action V → Option (Scope V)
  | .newCall provider model startedAtMs =>
      let call := Usage.newCall uuid5 s.context (s.callIndex + 1) provider model startedAtMs
      some { s with callIndex := s.callIndex + 1, streams := s.streams ++ [.opened call] }
  | .act i action =>
      (s.streams[i]?.bind fun stream => stream.step values code action).map fun stream =>
        { s with streams := s.streams.set i stream }

def Scope.initial {V : Type} (s : Scope V) : Prop := s.callIndex = 0 ∧ s.streams = []

end OpenStarry.Usage
