import OpenStarry.Lib.Dict
import OpenStarry.Lib.JsonParse
import OpenStarry.Lib.Substring

/-!
# Replies that say nothing

An assistant that has nothing to say answers with a control token. A stored reply is cleaned of
these tokens each time it is read: a reply that is only a token loses its text, and in a turn the
runtime started by itself whole lines with a token go at the edges of the reply.
-/

namespace OpenStarry.History

open Lib Text

/-! ### Control tokens -/

def noReplyToken : Str := "NO_REPLY".toList
def heartbeatAckToken : Str := "HEARTBEAT_OK".toList

/-- `SILENT_REPLY_SENTINELS`. -/
def silentReplySentinels : List Str := [noReplyToken, heartbeatAckToken]

/-- `_MARKDOWN_SENTINEL_WRAPPERS`: what stands before the token stands behind it too. -/
def markdownSentinelWrappers : List Str :=
  ["**".toList, "__".toList, "~~".toList, "*".toList, "_".toList, ['`']]

def indentedFrom : Nat → Str → Bool
  | _, [] => false
  | columns, c :: rest =>
      if c = ' ' then 4 ≤ columns + 1 || indentedFrom (columns + 1) rest
      else if c = '\t' then
        4 ≤ columns + (4 - columns % 4) || indentedFrom (columns + (4 - columns % 4)) rest
      else false

def wraps (mark candidate : Str) : Bool :=
  mark.isPrefixOf candidate && mark.isSuffixOf candidate &&
    mark.length + mark.length < candidate.length

def unwrapped (candidate : Str) : Str :=
  match markdownSentinelWrappers.find? fun mark => wraps mark candidate with
  | none => candidate
  | some mark =>
      strip ((candidate.drop mark.length).take (candidate.length - (mark.length + mark.length)))

theorem length_strip_le (s : Str) : (strip s).length ≤ s.length :=
  le_trans (List.rdropWhile_prefix isSpace (lstrip s)).length_le
    (List.dropWhile_suffix isSpace).length_le

theorem length_unwrapped_lt {candidate : Str} (hne : unwrapped candidate ≠ candidate) :
    (unwrapped candidate).length < candidate.length := by
  unfold unwrapped at hne ⊢
  split at hne
  · exact absurd rfl hne
  · rename_i mark hmark
    have hwraps : wraps mark candidate = true := by simpa using List.find?_some hmark
    have hshort : mark.length + mark.length < candidate.length := by
      rw [wraps, Bool.and_eq_true, decide_eq_true_eq] at hwraps
      exact hwraps.2
    have hlisted : mark ∈ markdownSentinelWrappers := List.mem_of_find?_eq_some hmark
    have hall : ∀ mark ∈ markdownSentinelWrappers, 0 < mark.length := by decide
    have hpos := hall mark hlisted
    have hstrip := length_strip_le
      ((candidate.drop mark.length).take (candidate.length - (mark.length + mark.length)))
    rw [List.length_take] at hstrip
    omega

def sentinelWithin (candidate : Str) : Option Str :=
  if _ : candidate = [] ∨ unwrapped candidate = candidate then none
  else if unwrapped candidate ∈ silentReplySentinels then some (unwrapped candidate)
  else sentinelWithin (unwrapped candidate)
termination_by candidate.length
decreasing_by exact length_unwrapped_lt (not_or.mp ‹_›).2

def fence : Str := ['`', '`', '`']

/-- `_sentinel_from_line`. -/
def sentinelFromLine (line : Str) : Option Str :=
  if indentedFrom 0 line then none
  else
    let candidate := strip line
    if candidate ∈ silentReplySentinels then some candidate
    else if fence.isPrefixOf candidate || fence.isSuffixOf candidate then none
    else sentinelWithin candidate

/-! ### Lines at the edges -/

def isNewline (c : Char) : Bool := c = '\r' || c = '\n'

def outdented (line : Str) : Option Str :=
  let body := line.dropWhile (· = ' ')
  if line.length - body.length ≤ 3 then some body else none

/-- `_MARKDOWN_FENCE_OPEN_RE`: the character of a fence and how often it stands there. -/
def fenceOpening (line : Str) : Option (Char × Nat) :=
  (outdented line).bind fun body =>
    body.head?.bind fun c =>
      let run := (body.takeWhile (· = c)).length
      if (c = '`' ∨ c = '~') ∧ 3 ≤ run then some (c, run) else none

def closesFence (opened : Char × Nat) (line : Str) : Bool :=
  (outdented line).any fun body =>
    opened.2 ≤ (body.takeWhile (· = opened.1)).length &&
      (body.dropWhile (· = opened.1)).all fun c => c = ' ' || c = '\t'

/-- `_markdown_fence_mask`, with the fence that is open. -/
def markdownFenceMask : Option (Char × Nat) → List Str → List Bool
  | _, [] => []
  | none, line :: rest =>
      let opening := fenceOpening (line.rdropWhile isNewline)
      opening.isSome :: markdownFenceMask opening rest
  | some opened, line :: rest =>
      true :: markdownFenceMask
        (if closesFence opened (line.rdropWhile isNewline) then none else some opened) rest

def edgeTokens : List (Str × Bool) → List Str × List (Str × Bool)
  | [] => ([], [])
  | (line, fenced) :: rest =>
      if strip line = [] then edgeTokens rest
      else if fenced then ([], (line, fenced) :: rest)
      else
        match sentinelFromLine line with
        | none => ([], (line, fenced) :: rest)
        | some token => (token :: (edgeTokens rest).1, (edgeTokens rest).2)

/-- `_edge_sentinel_lines`. -/
def edgeSentinelLines (text : Str) : Str × List Str :=
  let lines := splitlinesKeepends text
  let marked := lines.zip (markdownFenceMask none lines)
  let leading := edgeTokens marked
  let body := if leading.1 = [] then marked else leading.2
  let trailing := edgeTokens body.reverse
  let kept := if trailing.1 = [] then body else trailing.2.reverse
  let projected := (kept.map Prod.fst).flatten
  if leading.1 = [] ∧ trailing.1 = [] then (text, [])
  else
    (if trailing.1 = [] then projected else projected.rdropWhile isNewline,
      leading.1 ++ trailing.1.reverse)

/-! ### One text -/

/-- `re.sub(pattern, "", text)` for a pattern given by how much of a text it matches. The first
argument is how much is still inside the last match. -/
def dropMatches (matched : Str → Option Nat) : Nat → Str → Str
  | _, [] => []
  | inside + 1, _ :: rest => dropMatches matched inside rest
  | 0, c :: rest =>
      match matched (c :: rest) with
      | some length => dropMatches matched (length - 1) rest
      | none => c :: dropMatches matched 0 rest

def thinkOpen : Str := "<think>".toList
def thinkClose : Str := "</think>".toList

/-- `_HEARTBEAT_THINK_BLOCK_RE`. -/
def thinkBlock (text : Str) : Option Nat :=
  if thinkOpen.isPrefixOf text then
    (find thinkClose (text.drop thinkOpen.length)).map fun i =>
      thinkOpen.length + i + thinkClose.length
  else none

/-- `_HEARTBEAT_FINAL_TAG_RE`. -/
def finalTag (text : Str) : Option Nat :=
  (["<final>".toList, "</final>".toList].find? fun tag => tag.isPrefixOf text).map List.length

def withoutHeartbeatTags (text : Str) : Str :=
  let closed := dropMatches thinkBlock 0 text
  let unclosed := match find thinkOpen closed with
    | none => closed
    | some i => closed.take i
  dropMatches finalTag 0 unclosed

inductive SuppressionReason where
  | noReply
  | heartbeatAck
  deriving DecidableEq, Repr

/-- `_suppression_reason`. -/
def suppressionReason (sentinel : Option Str) : Option SuppressionReason :=
  if sentinel = some noReplyToken then some .noReply
  else if sentinel = some heartbeatAckToken then some .heartbeatAck
  else none

structure Normalization where
  text : Str
  changed : Bool
  suppressed : Bool
  sentinel : Option Str
  reason : Option SuppressionReason
  deriving DecidableEq, Repr

/-- `_result`. -/
def normalization (original text : Str) (sentinel : Option Str) (suppressed : Bool) :
    Normalization :=
  ⟨text, text ≠ original, suppressed, sentinel,
    if suppressed then suppressionReason sentinel else none⟩

/-- `_INTERNAL_MIXED_SENTINEL_RUN_KINDS`. -/
def internalMixedSentinelRunKinds : List Str := ["goal".toList, "heartbeat".toList]

/-- `run_kind` and `input_mode`. -/
structure RunContext where
  runKind : Str
  inputMode : Option Str
  deriving DecidableEq, Repr

def RunContext.mixedSentinelsAllowed (context : RunContext) : Bool :=
  context.inputMode = some "system_event".toList ||
    context.runKind ∈ internalMixedSentinelRunKinds

def heartbeatAckMaxChars : Nat := 300

def isShortAck (payload : Str) : Bool := (strip payload).length ≤ heartbeatAckMaxChars

def heartbeatSentinel (stripped : Str) : Option Str :=
  if stripped ∈ silentReplySentinels then some stripped
  else if heartbeatAckToken.isPrefixOf stripped &&
      isShortAck (strip (stripped.drop heartbeatAckToken.length)) then some heartbeatAckToken
  else if heartbeatAckToken.isSuffixOf stripped &&
      isShortAck (strip (stripped.take (stripped.length - heartbeatAckToken.length))) then
    some heartbeatAckToken
  else none

def normalizeEdges (context : RunContext) (text normalized : Str) : Normalization :=
  if context.mixedSentinelsAllowed then
    let edges := edgeSentinelLines normalized
    match edges.2 with
    | [] => normalization text edges.1 none false
    | sentinel :: _ => normalization text edges.1 (some sentinel) (edges.1 = [])
  else normalization text normalized none false

/-- `normalize_silent_reply`. -/
def normalizeSilentReply (context : RunContext) (text : Str) : Normalization :=
  if strip text ∈ silentReplySentinels then normalization text [] (some (strip text)) true
  else if context.runKind = "heartbeat".toList then
    let untagged := withoutHeartbeatTags text
    let normalized := if untagged ≠ text then strip untagged else untagged
    match heartbeatSentinel (strip normalized) with
    | some sentinel => normalization text [] (some sentinel) true
    | none => normalizeEdges context text normalized
  else normalizeEdges context text text

/-! ### The segments of a reply -/

inductive OpcodeTag where
  | equal
  | delete
  | insert
  | replace
  deriving DecidableEq, Repr

structure Opcode where
  tag : OpcodeTag
  rawStart : Nat
  rawEnd : Nat
  deriving DecidableEq, Repr

/-- How values are shown, how numbers are written back, and `SequenceMatcher.get_opcodes`. -/
structure Host where
  str : Json → Str
  number : Number → Number
  opcodes : Str → Str → List Opcode

abbrev Segment := Dict

def carriedText (segment : Segment) : Option Str :=
  if segment.get "type" = .str "text".toList then (segment.get "text").str? else none

def joinedText (segments : List Segment) : Str := (segments.filterMap carriedText).flatten

/-- What of a text from `start` on lies in the ranges. -/
def keptText (ranges : List (Nat × Nat)) (start : Nat) (value : Str) : Str :=
  ((ranges.filter fun r => r.1 < start + value.length && start < r.2).map fun r =>
    (value.take (min r.2 (start + value.length) - start)).drop (max r.1 start - start)).flatten

def projectSegments (ranges : List (Nat × Nat)) : Nat → List Segment → List Segment
  | _, [] => []
  | cursor, segment :: rest =>
      match carriedText segment with
      | none => segment :: projectSegments ranges cursor rest
      | some value =>
          let kept := keptText ranges cursor value
          let projected := projectSegments ranges (cursor + value.length) rest
          if kept = [] then projected else segment.set "text" (.str kept) :: projected

/-- `_project_canonical_text_to_segments`. -/
def projectCanonicalTextToSegments (host : Host) (segments : List Segment) (canonical : Str) :
    Option (List Segment) :=
  let raw := joinedText segments
  if raw = canonical then some segments
  else if canonical = [] then some (segments.filter fun segment => (carriedText segment).isNone)
  else
    let opcodes := host.opcodes raw canonical
    if opcodes.any fun o => o.tag = .insert || o.tag = .replace then none
    else
      let ranges := (opcodes.filter fun o => o.tag = .equal).map fun o => (o.rawStart, o.rawEnd)
      let projected := projectSegments ranges 0 segments
      if joinedText projected = canonical then some projected else none

def visibleText (segment : Segment) : Option Str :=
  (carriedText segment).filter fun text => strip text ≠ []

/-- The carriers at the front that consist of a token go. Their tokens are given back too. -/
def dropOuterCarriers (context : RunContext) : List Segment → List Segment × List Str × Bool
  | [] => ([], [], false)
  | segment :: rest =>
      match visibleText segment with
      | none =>
          let dropped := dropOuterCarriers context rest
          (segment :: dropped.1, dropped.2)
      | some text =>
          let result := normalizeSilentReply context text
          if result.suppressed then
            let dropped := dropOuterCarriers context rest
            (dropped.1, result.sentinel.toList ++ dropped.2.1, true)
          else (segment :: rest, [], false)

structure SegmentsNormalization where
  segments : List Segment
  changed : Bool
  suppressed : Bool
  sentinels : List Str
  reason : Option SuppressionReason
  deriving DecidableEq, Repr

def dropOuterAtBothEnds (context : RunContext) (segments : List Segment) :
    List Segment × List Str × Bool :=
  if context.mixedSentinelsAllowed then
    let leading := dropOuterCarriers context segments
    let trailing := dropOuterCarriers context leading.1.reverse
    (trailing.1.reverse, leading.2.1 ++ trailing.2.1, leading.2.2 || trailing.2.2)
  else (segments, [], false)

/-- `sanitize_silent_reply_segments`. -/
def sanitizeSilentReplySegments (host : Host) (context : RunContext) (segments : List Segment) :
    SegmentsNormalization :=
  let aggregate := normalizeSilentReply context (joinedText segments)
  let projected :=
    if aggregate.changed then
      (projectCanonicalTextToSegments host segments aggregate.text).getD segments
    else segments
  let outer := dropOuterAtBothEnds context projected
  let sentinels := aggregate.sentinel.toList ++ outer.2.1
  let suppressed := segments.any (fun segment => (carriedText segment).isSome) &&
    !sentinels.isEmpty && !outer.1.any fun segment => (visibleText segment).isSome
  ⟨if suppressed then
      outer.1.filter fun segment => (carriedText segment).isNone || (visibleText segment).isSome
    else outer.1,
    aggregate.changed || outer.2.2, suppressed, sentinels,
    if suppressed then suppressionReason sentinels.head? else none⟩

/-! ### A stored reply -/

/-- `_history_context`. -/
def historyContext (host : Host) (turnContext : Option Dict) : RunContext :=
  let context := turnContext.getD []
  if (context.get "intent").truthy && host.str (context.get "intent") = "goal_continuation".toList then
    ⟨"goal".toList, some "system_event".toList⟩
  else
    ⟨if (context.get "run_kind").truthy then host.str (context.get "run_kind")
      else "default".toList,
      if (context.get "input_mode").truthy then some (host.str (context.get "input_mode"))
      else none⟩

def payloadOf (host : Host) (content : Str) : Option Dict :=
  if (lstrip content).head? = some '\x7b' then
    ((Json.loads host.number content).bind Json.fields?).filter fun payload =>
      (payload.get "text").str?.isSome || (payload.get "display_text").str?.isSome
  else none

structure ContentNormalization where
  content : Str
  changed : Bool
  suppressed : Bool
  reason : Option SuppressionReason
  deriving DecidableEq, Repr

def normalizeField (context : RunContext) (payload : Dict) (key : String) : Dict :=
  match (payload.get key).str? with
  | none => payload
  | some value =>
      let result := normalizeSilentReply context value
      if result.changed then payload.set key (.str result.text) else payload

def payloadKeys : List String := ["display_text", "text"]

/-- `_sanitize_history_content` of a string. -/
def sanitizeHistoryContent (host : Host) (context : RunContext) (content : Str) :
    ContentNormalization :=
  match payloadOf host content with
  | some payload =>
      let results := payloadKeys.filterMap fun key =>
        (payload.get key).str?.map (normalizeSilentReply context)
      let changed := results.any Normalization.changed
      let suppressed := results.any (fun result => result.sentinel.isSome) &&
        !results.any fun result => strip result.text ≠ []
      let reason := if suppressed then (results.filterMap Normalization.reason).head? else none
      ⟨if changed then
          Json.dumpsWith Json.defaultSeparators
            (.obj (payloadKeys.foldl (normalizeField context) payload))
        else content,
        changed, suppressed, reason⟩
  | none =>
      let result := normalizeSilentReply context content
      ⟨result.text, result.changed, result.suppressed, result.reason⟩

def hasVisibleContent (host : Host) (content : Str) : Bool :=
  if (lstrip content).head? = some '\x7b' then
    match (Json.loads host.number content).bind Json.fields? with
    | some payload => payloadKeys.any fun key =>
        (payload.get key).str?.any fun value => strip value ≠ []
    | none => strip content ≠ []
  else strip content ≠ []

structure HistoricalSanitization where
  content : Str
  segments : Option (List Segment)
  changed : Bool
  suppressed : Bool
  reason : Option SuppressionReason
  deriving DecidableEq, Repr

/-- `sanitize_historical_silent_reply` of an assistant's row. -/
def sanitizeHistoricalSilentReply (host : Host) (turnContext : Option Dict) (content : Str)
    (segments : Option (List Segment)) : HistoricalSanitization :=
  let context := historyContext host turnContext
  let contentOut := sanitizeHistoryContent host context content
  let segmentOut := sanitizeSilentReplySegments host context (segments.getD [])
  let suppressed := (contentOut.suppressed || segmentOut.suppressed) &&
    !hasVisibleContent host contentOut.content &&
    !segmentOut.segments.any fun segment => (visibleText segment).isSome
  ⟨contentOut.content, segments.map fun _ => segmentOut.segments,
    contentOut.changed || segmentOut.changed, suppressed,
    if suppressed then contentOut.reason <|> segmentOut.reason else none⟩

/-! ### Replies that are left as they are -/

theorem normalization_self (text : Str) : normalization text text none false =
    ⟨text, false, false, none, none⟩ := by
  rw [normalization, decide_eq_false (not_not_intro rfl)]
  rfl

theorem normalizeSilentReply_eq {context : RunContext} {text : Str}
    (hcontext : context.mixedSentinelsAllowed = false) (htext : strip text ∉ silentReplySentinels) :
    normalizeSilentReply context text = ⟨text, false, false, none, none⟩ := by
  have hheartbeat : context.runKind ≠ "heartbeat".toList := by
    intro hkind
    rw [RunContext.mixedSentinelsAllowed, Bool.or_eq_false_iff, decide_eq_false_iff_not,
      decide_eq_false_iff_not, hkind] at hcontext
    exact hcontext.2 (by decide)
  rw [normalizeSilentReply, if_neg htext, if_neg hheartbeat, normalizeEdges, hcontext,
    if_neg Bool.false_ne_true, normalization_self]

theorem sanitizeSilentReplySegments_segments {host : Host} {context : RunContext}
    {segments : List Segment} (hcontext : context.mixedSentinelsAllowed = false)
    (htext : strip (joinedText segments) ∉ silentReplySentinels) :
    (sanitizeSilentReplySegments host context segments).segments = segments := by
  have houter : dropOuterAtBothEnds context segments = (segments, [], false) := by
    rw [dropOuterAtBothEnds, hcontext, if_neg Bool.false_ne_true]
  rw [sanitizeSilentReplySegments, normalizeSilentReply_eq hcontext htext]
  dsimp only
  rw [if_neg Bool.false_ne_true, houter]
  simp

end OpenStarry.History
