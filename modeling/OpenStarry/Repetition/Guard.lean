import OpenStarry.Lib.Scan
import OpenStarry.Lib.Substring

/-!
# Repeated text at the end of a buffer

The detector looks for periods with anchors near the end of the buffered text and compares the end
with itself, one period earlier. Code, tables and logs need more repetitions.
-/

namespace OpenStarry.Repetition

open Lib Lib.Text

/-- The regular expressions for one line. -/
inductive LinePattern where
  | logLine
  | containerLogLine
  | criLogLine
  | kubectlPrefixLogLine
  | queryBorder
  | queryFooter
  | codePrefix
  | codeCall
  deriving DecidableEq, Repr

/-- What lies outside of this code: `re.match`, and the floats with their division and comparison. -/
structure Runtime (R : Type) where
  regexMatch : LinePattern → Str → Bool
  ratio : Nat → Nat → R
  below : R → R → Bool

structure RepetitionGuardPolicy (R : Type) where
  maxBufferChars : Nat
  checkStrideChars : Nat
  requiredConsecutiveChecks : Nat
  minPeriodChars : Nat
  maxPeriodChars : Nat
  minRepeatedChars : Nat
  minRepetitions : Nat
  minSimilarity : R
  largePeriodThresholdChars : Nat
  largePeriodMinRepeatedChars : Nat
  largePeriodMinRepetitions : Nat
  structuredMinRepeatedChars : Nat
  structuredMinRepetitions : Nat
  structuredMinSimilarity : R
  maxCandidatePeriods : Nat
  deriving DecidableEq, Repr

structure RepetitionDetection (R : Type) where
  periodChars : Nat
  repeatedChars : Nat
  repetitions : Nat
  similarity : R
  structured : Bool
  deriving DecidableEq, Repr

inductive GuardError where
  | zeroDivision
  deriving DecidableEq, Repr

/-- `text[-count:]`, for a positive count. -/
def lastChars (count : Nat) (text : Str) : Str := text.drop (text.length - count)

/-! ### Code, tables and logs -/

def looksDelimitedRows (lines : List Str) : Bool :=
  decide (4 ≤ lines.length) && ['\t', ','].any fun delimiter =>
    let eligible := (lines.map (List.count delimiter)).filter fun count => decide (1 ≤ count)
    decide (max 4 (lines.length * 3 / 4) ≤ eligible.length) &&
      eligible.any fun count => decide (max 3 (lines.length / 2) ≤ eligible.count count)

section

variable {R : Type} (runtime : Runtime R)

def looksQueryResult (lines : List Str) : Bool :=
  decide (3 ≤ lines.length) &&
    decide (max 3 (lines.length / 2) ≤ lines.countP fun line =>
      decide (1 ≤ line.count '|') || runtime.regexMatch .queryBorder line ||
        runtime.regexMatch .queryFooter line)

def isLogLine (line : Str) : Bool :=
  runtime.regexMatch .logLine line || runtime.regexMatch .containerLogLine line ||
    runtime.regexMatch .criLogLine line || runtime.regexMatch .kubectlPrefixLogLine line

def isCodeLine (line : Str) : Bool :=
  runtime.regexMatch .codePrefix line || runtime.regexMatch .codeCall line ||
    (["//".toList, "# ".toList, "/*".toList, "* ".toList, "@".toList].any
      fun start => start.isPrefixOf line) ||
    ([[';'], ['\x7b'], ['\x7d']].any fun stop => stop.isSuffixOf line) ||
    (['<'].isPrefixOf line && ['>'].isSuffixOf line) ||
    ["()".toList, "=>".toList, " = ".toList, " := ".toList, " == ".toList].any
      fun marker => (find marker line).isSome

def looksStructured (text : Str) (period : Nat) : Bool :=
  let unit := strip (lastChars period text)
  let all := splitlines text
  let stripped := ((all.drop (all.length - 128)).map strip).filter fun line => !line.isEmpty
  let lines := if stripped.isEmpty then (if unit.isEmpty then [] else [unit]) else stripped
  if (find "```".toList text).isSome then true
  else if lines.isEmpty then false
  else if looksDelimitedRows lines || looksQueryResult runtime lines then true
  else
    let structuredLines := lines.countP fun line =>
      decide (2 ≤ line.count '|') || isLogLine runtime line || isCodeLine runtime line
    -- At most 128 lines: their share is compared with 0.4 exactly.
    decide (2 * lines.length ≤ 5 * structuredLines)

/-! ### Periods -/

/-- `text.rfind(pattern, start, end)`. -/
def rfind (pattern text : Str) (start stop : Nat) : Option Nat :=
  (List.range (stop + 1)).reverse.find? fun i =>
    decide (start ≤ i) && decide (i + pattern.length ≤ stop) && decide (OccursAt pattern text i)

def anchorPeriods (anchor text : Str) (anchorStart searchStart : Nat) : Nat → Nat → List Nat
  | 0, _ => []
  | fuel + 1, searchEnd =>
      if searchStart < searchEnd then
        match rfind anchor text searchStart searchEnd with
        | none => []
        | some previous =>
            (anchorStart - previous) :: anchorPeriods anchor text anchorStart searchStart fuel previous
      else []

variable (policy : RepetitionGuardPolicy R)

/-- The periods that the anchors vote for, each as often as it got a vote. -/
def votes (text : Str) : List Nat :=
  [24, 48, 96].flatMap fun anchorChars =>
    [0, 61, 137, 251, 509].flatMap fun endOffset =>
      let anchorEnd := text.length - endOffset
      let anchorStart := anchorEnd - anchorChars
      if anchorStart = 0 then []
      else
        (anchorPeriods ((text.take anchorEnd).drop anchorStart) text anchorStart
          (anchorStart - policy.maxPeriodChars) 16 anchorStart).filter fun period =>
            decide (policy.minPeriodChars ≤ period) && decide (period ≤ policy.maxPeriodChars)

def candidatePeriods (text : Str) : List Nat :=
  let all := votes policy text
  let ranked := all.dedup.mergeSort fun a b =>
    decide (all.count b < all.count a) || (decide (all.count a = all.count b) && decide (a ≤ b))
  (ranked.take policy.maxCandidatePeriods).mergeSort fun a b => decide (a ≤ b)

/-! ### Detection -/

/-- One period: nothing when the end of the text does not repeat with it often or closely enough. -/
def detectPeriod (text : Str) (period : Nat) : Except GuardError (Option (RepetitionDetection R)) :=
  let structured := looksStructured runtime (lastChars (max 8192 (period * 2)) text) period
  let minRepeated := if structured then policy.structuredMinRepeatedChars else policy.minRepeatedChars
  let minRepetitions := if structured then policy.structuredMinRepetitions else policy.minRepetitions
  let minSimilarity := if structured then policy.structuredMinSimilarity else policy.minSimilarity
  let isLarge := !structured && decide (policy.largePeriodThresholdChars < period)
  let minRepeated :=
    if isLarge then max minRepeated policy.largePeriodMinRepeatedChars else minRepeated
  let minRepetitions :=
    if isLarge then min minRepetitions policy.largePeriodMinRepetitions else minRepetitions
  let repeatedChars := max minRepeated (period * minRepetitions)
  if text.length < repeatedChars + period then .ok none
  else
    let comparison := lastChars (repeatedChars + period) text
    let previous := comparison.take (comparison.length - period)
    let current := comparison.drop period
    let matching := (previous.zip current).countP fun p => p.1 = p.2
    if repeatedChars = 0 then .error .zeroDivision
    else
      let similarity := runtime.ratio matching repeatedChars
      if runtime.below similarity minSimilarity then .ok none
      else
        .ok (some
          { periodChars := period
            repeatedChars := repeatedChars
            repetitions := repeatedChars / period
            similarity := similarity
            structured := structured })

def detectAmong (text : Str) : List Nat → Except GuardError (Option (RepetitionDetection R))
  | [] => .ok none
  | period :: rest => do
      match ← detectPeriod runtime policy text period with
      | some detection => return some detection
      | none => detectAmong text rest

def detect (text : Str) : Except GuardError (Option (RepetitionDetection R)) :=
  if text.length < policy.minRepeatedChars + policy.minPeriodChars then .ok none
  else detectAmong runtime policy text (candidatePeriods policy text)

end

/-!
## The repetition guard

The guard collapses whitespace, keeps the end of the text in a queue of chunks and looks for
repetitions at fixed numbers of characters. It stops where several checks in a row find one.
-/

structure GuardState where
  bufferChunks : List Str
  bufferChars : Nat
  normalizedChars : Nat
  nextCheck : Nat
  lastWhitespace : Option Char
  repeatEvidenceStreak : Nat
  deriving DecidableEq, Repr

section

variable {R : Type} (runtime : Runtime R) (policy : RepetitionGuardPolicy R)

/-- `StreamingRepetitionGuard(policy)`, and what `reset` makes of it. -/
def GuardState.initial : GuardState := ⟨[], 0, 0, policy.checkStrideChars, none, 0⟩

def dropOverflow : List Str → Nat → Nat → List Str × Nat
  | [], _, chars => ([], chars)
  | oldest :: rest, overflow, chars =>
      if overflow = 0 then (oldest :: rest, chars)
      else if oldest.length ≤ overflow then
        dropOverflow rest (overflow - oldest.length) (chars - oldest.length)
      else (oldest.drop overflow :: rest, chars - overflow)

/-- `_append`. -/
def append (text : Str) (state : GuardState) : GuardState :=
  if text = [] then state
  else
    let chars := state.bufferChars + text.length
    let kept := dropOverflow (state.bufferChunks ++ [text]) (chars - policy.maxBufferChars) chars
    { state with bufferChunks := kept.1, bufferChars := kept.2 }

/-- `_detect`: the chunks are joined into one when there are several. -/
def detectIn (state : GuardState) : Except GuardError (GuardState × Option (RepetitionDetection R)) :=
  if state.bufferChars < policy.minRepeatedChars + policy.minPeriodChars then .ok (state, none)
  else
    let text := state.bufferChunks.flatten
    let joined := if state.bufferChunks.length ≤ 1 then state.bufferChunks else [text]
    (detectAmong runtime policy text (candidatePeriods policy text)).map fun candidate =>
      ({ state with bufferChunks := joined }, candidate)

def collapse (lastWhitespace : Option Char) (char : Char) : Option Char :=
  let normalized := if char = '\r' ∨ char = '\n' then '\n' else if char = '\t' then '\t' else ' '
  if lastWhitespace = some '\n' then none
  else if lastWhitespace = some normalized then none
  else if normalized = ' ' ∧ lastWhitespace ≠ none then none
  else some normalized

def normalize (lastWhitespace : Option Char) (char : Char) : Option Char × Option Char :=
  if isSpace char then
    match collapse lastWhitespace char with
    | none => (none, lastWhitespace)
    | some normalized => (some normalized, some normalized)
  else (some char, none)

/-- A check at a fixed number of characters. -/
def checkpoint (state : GuardState) :
    Except GuardError (GuardState × Option (RepetitionDetection R)) := do
  let (state, candidate) ← detectIn runtime policy state
  let state := { state with nextCheck := state.nextCheck + policy.checkStrideChars }
  match candidate with
  | none => return ({ state with repeatEvidenceStreak := 0 }, none)
  | some candidate =>
      let state := { state with repeatEvidenceStreak := state.repeatEvidenceStreak + 1 }
      if policy.requiredConsecutiveChecks ≤ state.repeatEvidenceStreak then
        return (state, some candidate)
      else return (state, none)

/-- The loop of `feed` over the characters, with what is not appended yet. -/
def feedFrom : GuardState → Str → Str → Except GuardError (Scanned GuardState Char (RepetitionDetection R))
  | state, pending, [] => .ok ⟨append policy pending state, [], none⟩
  | state, pending, char :: rest =>
      let (normalized, lastWhitespace) := normalize state.lastWhitespace char
      let state := { state with lastWhitespace := lastWhitespace }
      let continued (state : GuardState) (pending : Str) :=
        (feedFrom state pending rest).map fun after => { after with taken := char :: after.taken }
      match normalized with
      | none => continued state pending
      | some normalized =>
          let pending := pending ++ [normalized]
          let state := { state with normalizedChars := state.normalizedChars + 1 }
          if state.normalizedChars < state.nextCheck then continued state pending
          else
            match checkpoint runtime policy (append policy pending state) with
            | .error e => .error e
            | .ok (state, some detection) => .ok ⟨state, [char], some detection⟩
            | .ok (state, none) => continued state []

/-- `feed`: the accepted prefix, and the detection when there is one. -/
def feed (state : GuardState) (text : Str) :
    Except GuardError (Scanned GuardState Char (RepetitionDetection R)) :=
  if text = [] then .ok ⟨state, text, none⟩ else feedFrom runtime policy state [] text

def feedDeltas (deltas : List Str) : Except GuardError (Scanned GuardState Char (RepetitionDetection R)) :=
  feedAll (feed runtime policy) (.initial policy) deltas

end

end OpenStarry.Repetition
