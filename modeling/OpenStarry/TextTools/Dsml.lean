import OpenStarry.Lib.JsonParse
import OpenStarry.TextTools.CodeRanges

/-!
# DSML candidates

A response may end in an envelope of tool calls: tags with a name each, around parameters that are
text or JSON. It is read from the first opening that stands on a line of its own outside code, to
the end of the text, and nothing but the envelope and blank space may stand there.
-/

namespace OpenStarry.TextTools

open Lib Lib.Text

/-! ### Tokens -/

def toolCallsOpen : Str := "<｜DSML｜tool_calls>".toList
def toolCallsClose : Str := "</｜DSML｜tool_calls>".toList
def invokeClose : Str := "</｜DSML｜invoke>".toList
def parameterClose : Str := "</｜DSML｜parameter>".toList
def recognitionPrefix : Str := "<｜DSML｜".toList

def invokeHead : Str := "<｜DSML｜invoke name=\"".toList
def parameterHead : Str := "<｜DSML｜parameter name=\"".toList

def invokeTail : Str := "\">".toList
def parameterTail (isString : Bool) : Str :=
  if isString then "\" string=\"true\">".toList else "\" string=\"false\">".toList

def isAsciiWhitespace (c : Char) : Bool := c = ' ' || c = '\t' || c = '\r' || c = '\n'

def defaultMaxToolCalls : Nat := 256

inductive TextToolRejectionReason where
  | dsmlMalformed | dsmlIncomplete | dsmlOversized | dsmlUnknownTool | dsmlSchemaInvalid
  deriving DecidableEq

structure DsmlCandidateCall where
  toolName : Str
  arguments : Dict

inductive DsmlCandidateStatus where
  | notCandidate | complete | rejected
  deriving DecidableEq

structure DsmlCandidateResult where
  status : DsmlCandidateStatus
  calls : List DsmlCandidateCall := []
  reason : Option TextToolRejectionReason := none
  start : Nat := 0
  stop : Nat := 0
  callCount : Nat := 0

/-! ### Values -/

variable (normal : Number → Number)

/-- `unique_object`. -/
def uniqueObject (pairs : List (Str × Json)) : Option Dict :=
  if (pairs.map Prod.fst).Nodup then some pairs else none

/-- `_strict_dsml_json_loads`. -/
def strictDsmlJsonLoads (text : Str) : Option Json :=
  Json.loadsHooked (fun n => if n.isFinite then some (normal n) else none) uniqueObject text

def parameterValue (isString : Bool) (raw : Str) : Option Json :=
  if isString then some (.str raw) else (strictDsmlJsonLoads normal raw).filter Json.isFinite

/-! ### Tags -/

def skipDsmlWhitespace (text : Str) : Str := text.dropWhile isAsciiWhitespace

def openTag (head text : Str) : Option (Str × Str) :=
  if head <+: text then
    let rest := text.drop head.length
    let name := rest.takeWhile (· ≠ '"')
    if name = [] then none else some (name, rest.drop name.length)
  else none

/-- `_DSML_INVOKE_OPEN_RE`: the name, and what stands behind the tag. -/
def invokeOpen (text : Str) : Option (Str × Str) :=
  (openTag invokeHead text).bind fun p =>
    if invokeTail <+: p.2 then some (p.1, p.2.drop invokeTail.length) else none

/-- `_DSML_PARAMETER_OPEN_RE`. -/
def parameterOpen (text : Str) : Option (Str × Bool × Str) :=
  (openTag parameterHead text).bind fun p =>
    if parameterTail true <+: p.2 then some (p.1, true, p.2.drop (parameterTail true).length)
    else if parameterTail false <+: p.2 then
      some (p.1, false, p.2.drop (parameterTail false).length)
    else none

/-- `_dsml_expected_token_reason` for the rest of a text. -/
def dsmlExpectedTokenReason (suffix : Str) (expected : List Str) : TextToolRejectionReason :=
  if suffix = [] ∨ ∃ token ∈ expected, suffix <+: token then .dsmlIncomplete else .dsmlMalformed

/-! ### The parser -/

/-- The parameters of a call and the tag that closes it. -/
def parseParameters : Nat → Str → Dict → Except TextToolRejectionReason (Dict × Str)
  | 0, _, _ => .error .dsmlMalformed
  | fuel + 1, text, arguments =>
      let text := skipDsmlWhitespace text
      if invokeClose <+: text then .ok (arguments, text.drop invokeClose.length)
      else
        match parameterOpen text with
        | none => .error (dsmlExpectedTokenReason text [parameterHead, invokeClose])
        | some (name, isString, rest) =>
            if (arguments.lookup name).isSome then .error .dsmlMalformed
            else
              match find parameterClose rest with
              | none => .error .dsmlIncomplete
              | some offset =>
                  match parameterValue normal isString (rest.take offset) with
                  | none => .error .dsmlMalformed
                  | some value =>
                      parseParameters fuel (rest.drop (offset + parameterClose.length))
                        (arguments ++ [(name, value)])

/-- The calls of an envelope up to the end of the text. The result is what stands behind the
envelope; an error comes with the number of calls. -/
def parseCalls : Nat → Str → List DsmlCandidateCall →
    Except (TextToolRejectionReason × Nat) (List DsmlCandidateCall × Str)
  | 0, _, calls => .error (.dsmlMalformed, calls.length)
  | fuel + 1, text, calls =>
      let text := skipDsmlWhitespace text
      if toolCallsClose <+: text then
        let rest := text.drop toolCallsClose.length
        if calls = [] ∨ rest.all isAsciiWhitespace = false then
          .error (.dsmlMalformed, calls.length)
        else .ok (calls, rest)
      else
        match invokeOpen text with
        | none =>
            .error (dsmlExpectedTokenReason text [invokeHead, toolCallsClose], calls.length)
        | some (name, rest) =>
            match parseParameters normal (rest.length + 1) rest [] with
            | .error reason => .error (reason, calls.length)
            | .ok (arguments, rest) =>
                if defaultMaxToolCalls ≤ calls.length then
                  .error (.dsmlOversized, calls.length + 1)
                else parseCalls fuel rest (calls ++ [⟨name, arguments⟩])

/-- `_parse_dsml_envelope_at`. -/
def parseDsmlEnvelopeAt (text : Str) (start : Nat) : DsmlCandidateResult :=
  let body := text.drop (start + toolCallsOpen.length)
  match parseCalls normal (body.length + 1) body [] with
  | .ok (calls, rest) =>
      { status := .complete, calls := calls, start := start, stop := text.length - rest.length
        callCount := calls.length }
  | .error (reason, callCount) =>
      { status := .rejected, reason := some reason, start := start, stop := text.length
        callCount := callCount }

/-! ### Candidates -/

def candidateStartsOnStandaloneLine (text : Str) (position : Nat) : Bool :=
  let linePrefix := (text.take position).rtakeWhile (!isNewline ·)
  linePrefix.all (· = ' ') && linePrefix.length ≤ 3

def positionsOf (token text : Str) : List Nat :=
  (List.range text.length).filter fun position => token <+: text.drop position

variable (u : Unicode)

def standsAlone (text : Str) (position : Nat) : Bool :=
  !positionIsInCode position (markdownCodeRanges u text) &&
    candidateStartsOnStandaloneLine text position

def parseDsmlCandidate (fullText : Str) : DsmlCandidateResult :=
  match (positionsOf toolCallsOpen fullText).find? (standsAlone u fullText) with
  | some opening => parseDsmlEnvelopeAt normal fullText opening
  | none =>
      match (positionsOf recognitionPrefix fullText).find? fun marker =>
        standsAlone u fullText marker && fullText.drop marker <+: toolCallsOpen with
      | some marker =>
          { status := .rejected, reason := some .dsmlIncomplete, start := marker
            stop := fullText.length }
      | none => { status := .notCandidate }

end OpenStarry.TextTools
