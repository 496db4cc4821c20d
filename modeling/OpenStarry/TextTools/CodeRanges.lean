import Mathlib.Data.List.Sort
import OpenStarry.Lib.Substring

/-!
# Where a text shows code

The parts of a text that Markdown or raw HTML show as code: fenced blocks, inline spans, indented
lines and the inside of the tags that keep their text as it is. Markdown is read first, HTML in what
it leaves, then both again with the other's ranges hidden. Every range starts at some markup, so
nothing in front of the first markup is code.
-/

namespace OpenStarry.TextTools

open Lib Lib.Text

structure MarkdownCodeRange where
  start : Nat
  stop : Nat
  closed : Bool
  deriving DecidableEq

/-- `text[start:stop]`. -/
def slice (text : Str) (start stop : Nat) : Str := (text.drop start).take (stop - start)

def runLength (c : Char) (text : Str) : Nat := (text.takeWhile (· = c)).length

/-! ### Lines -/

/-- Where a line starts, where its content ends and where the next line starts. -/
structure LineSpan where
  start : Nat
  contentEnd : Nat
  stop : Nat

def isNewline (c : Char) : Bool := c = '\r' || c = '\n'

def endingLength : Str → Nat
  | [] => 0
  | '\r' :: '\n' :: _ => 2
  | _ :: _ => 1

/-- The lines of the rest of a text, which starts at `start`. -/
def lineSpansFrom : Nat → Nat → Str → List LineSpan
  | 0, _, _ => []
  | fuel + 1, start, rest =>
      if rest = [] then []
      else
        let content := rest.takeWhile (!isNewline ·)
        let contentEnd := start + content.length
        let stop := contentEnd + endingLength (rest.drop content.length)
        ⟨start, contentEnd, stop⟩ :: lineSpansFrom fuel stop (rest.drop (stop - start))

def markdownLineSpans (text : Str) : List LineSpan := lineSpansFrom text.length 0 text

/-! ### Fences -/

/-- A run of backticks or tildes that opens or closes a fence, and its column. -/
structure Fence where
  column : Nat
  char : Char
  length : Nat

/-- `_MARKDOWN_FENCE_LINE_RE` on a line. -/
def fenceOf (line : Str) : Option Fence :=
  let column := runLength ' ' line
  match line.drop column with
  | [] => none
  | c :: rest =>
      let length := runLength c (c :: rest)
      if column ≤ 3 ∧ (c = '`' ∨ c = '~') ∧ 3 ≤ length then some ⟨column, c, length⟩ else none

/-- A fence that has been opened, and where. -/
structure ActiveFence where
  char : Char
  length : Nat
  start : Nat

def ActiveFence.closedBy (active : ActiveFence) (line : Str) : Bool :=
  (fenceOf line).any fun fence =>
    fence.char = active.char && active.length ≤ fence.length &&
      strip (line.drop (fence.column + fence.length)) = []

def fencedFrom (text : Str) : Option ActiveFence → List LineSpan → List MarkdownCodeRange
  | none, [] => []
  | some active, [] => [⟨active.start, text.length, false⟩]
  | some active, span :: spans =>
      if active.closedBy (slice text span.start span.contentEnd) then
        ⟨active.start, span.stop, true⟩ :: fencedFrom text none spans
      else fencedFrom text (some active) spans
  | none, span :: spans =>
      match fenceOf (slice text span.start span.contentEnd) with
      | some fence =>
          fencedFrom text (some ⟨fence.char, fence.length, span.start + fence.column⟩) spans
      | none => fencedFrom text none spans

def fencedCodeRanges (text : Str) : List MarkdownCodeRange :=
  fencedFrom text none (markdownLineSpans text)

/-! ### Inline spans -/

def fenceAround (fenced : List MarkdownCodeRange) (index : Nat) : Option MarkdownCodeRange :=
  (fenced.dropWhile (·.stop ≤ index)).head?.filter (·.start ≤ index)

/-- Where the run of backticks ends that closes a span, looked for from `search` on. -/
def closeFrom (text : Str) (fenced : List MarkdownCodeRange) (delimiterLen : Nat) :
    Nat → Nat → Option Nat
  | 0, _ => none
  | fuel + 1, search =>
      if text.length ≤ search then none
      else
        match fenceAround fenced search with
        | some fence => closeFrom text fenced delimiterLen fuel fence.stop
        | none =>
            match find ['`'] (text.drop search) with
            | none => none
            | some offset =>
                let close := search + offset
                match fenceAround fenced close with
                | some fence => closeFrom text fenced delimiterLen fuel fence.stop
                | none =>
                    let closeRunEnd := close + runLength '`' (text.drop close)
                    if closeRunEnd - close = delimiterLen then some closeRunEnd
                    else closeFrom text fenced delimiterLen fuel closeRunEnd

def inlineFrom (text : Str) (fenced : List MarkdownCodeRange) :
    Nat → Nat → List MarkdownCodeRange
  | 0, _ => []
  | fuel + 1, index =>
      match fenceAround fenced index with
      | some fence => inlineFrom text fenced fuel fence.stop
      | none =>
          match text[index]? with
          | none => []
          | some c =>
              if c ≠ '`' then inlineFrom text fenced fuel (index + 1)
              else
                let runEnd := index + runLength '`' (text.drop index)
                match closeFrom text fenced (runEnd - index) (text.length + 1) runEnd with
                | none => [⟨index, text.length, false⟩]
                | some closeEnd => ⟨index, closeEnd, true⟩ :: inlineFrom text fenced fuel closeEnd

/-- `ranges.sort(key=lambda item: item.start)`. -/
def sortRanges (ranges : List MarkdownCodeRange) : List MarkdownCodeRange :=
  ranges.insertionSort fun a b => a.start ≤ b.start

def fencedOrInlineCodeRanges (text : Str) : List MarkdownCodeRange :=
  let fenced := fencedCodeRanges text
  sortRanges (fenced ++ inlineFrom text fenced (text.length + 1) 0)

/-! ### Indented lines -/

def isIndented (line : Str) : Bool := ['\t'] <+: line || 4 ≤ runLength ' ' line

def indentedRanges (text : Str) : List MarkdownCodeRange :=
  (markdownLineSpans text).filterMap fun span =>
    if isIndented (slice text span.start span.stop) then some ⟨span.start, span.stop, true⟩ else none

def markdownSyntaxCodeRanges (text : Str) : List MarkdownCodeRange :=
  sortRanges (fencedOrInlineCodeRanges text ++ indentedRanges text)

/-! ### Raw HTML -/

/-- What is not part of the repository: `str.isalnum` of a character, and `str.lower`. -/
structure Unicode where
  isAlnum : Char → Bool
  lower : Str → Str
  /-- Line ends, the mask and the bar of the DSML tags are no letters or digits. -/
  isAlnum_eq_false : ∀ c ∈ ['\r', '\n', '\x00', '｜'], isAlnum c = false
  lower_nil : lower [] = []

def rawHtmlTags : List Str :=
  ["pre".toList, "code".toList, "script".toList, "style".toList, "textarea".toList]

def commentOpen : Str := "<!--".toList
def commentClose : Str := "-->".toList
def rawHtmlTokenMaxChars : Nat := 4096
def rawHtmlMaxDepth : Nat := 32

/-- How the scan of a tag ends: where it is, with the text since the name. -/
inductive TagEnd where
  | complete (stop : Nat) (remainder : Str)
  | oversized
  | unfinished

structure HtmlTagScan where
  name : Str
  closing : Bool
  validNameBoundary : Bool
  tagEnd : TagEnd

variable (u : Unicode)

def isNameChar (c : Char) : Bool := u.isAlnum c || c = '-' || c = '_' || c = ':'

/-- The rest of a tag, of which `cursor` characters have been read. -/
def scanTagEnd : Nat → Option Char → Str → Str → TagEnd
  | _, _, _, [] => .unfinished
  | cursor, quote, remainder, c :: rest =>
      if rawHtmlTokenMaxChars ≤ cursor then .oversized
      else if quote.isSome then
        scanTagEnd (cursor + 1) (if quote = some c then none else quote) (remainder ++ [c]) rest
      else if c = '"' ∨ c = '\'' then scanTagEnd (cursor + 1) (some c) (remainder ++ [c]) rest
      else if c = '>' then .complete (cursor + 1) remainder
      else scanTagEnd (cursor + 1) none (remainder ++ [c]) rest

/-- `_scan_html_tag_at` of the text from the `<` on; positions count from there. -/
def scanHtmlTag (tag : Str) : HtmlTagScan :=
  let closing : Bool := ['/'] <+: tag.drop 1
  let nameStart := if closing then 2 else 1
  let name := (tag.drop nameStart).takeWhile (isNameChar u)
  let nameEnd := nameStart + name.length
  { name := u.lower name
    closing := closing
    validNameBoundary := (tag.drop nameEnd).head?.all fun c => isSpace c || c = '/' || c = '>'
    tagEnd := scanTagEnd nameEnd none [] (tag.drop nameEnd) }

def HtmlTagScan.confirmedRawOpen (scan : HtmlTagScan) : Bool :=
  !scan.closing && scan.validNameBoundary && scan.name ∈ rawHtmlTags

def HtmlTagScan.selfClosing (scan : HtmlTagScan) (remainder : Str) : Bool :=
  !scan.closing && ['/'] <:+ rstrip remainder

def HtmlTagScan.exactClose (scan : HtmlTagScan) (remainder : Str) : Bool :=
  scan.closing && scan.validNameBoundary && strip remainder = []

def openRange (text : Str) (context : Option Nat) : List MarkdownCodeRange :=
  context.toList.map fun start => ⟨start, text.length, false⟩

/-- The scan from a position, in a comment or not, with the open tags and where the outermost of
them, or the comment, began. -/
def scanRawHtmlFrom (text : Str) :
    Nat → Nat → Bool → List Str → Option Nat → List MarkdownCodeRange
  | 0, _, _, _, _ => []
  | fuel + 1, cursor, inComment, tags, context =>
      if text.length ≤ cursor then openRange text context
      else if inComment then
        match find commentClose (text.drop cursor) with
        | none => openRange text context
        | some offset =>
            let stop := cursor + offset + commentClose.length
            if tags = [] then
              (context.toList.map fun start => ⟨start, stop, true⟩) ++
                scanRawHtmlFrom text fuel stop false [] none
            else scanRawHtmlFrom text fuel stop false tags context
      else
        match find ['<'] (text.drop cursor) with
        | none => openRange text context
        | some offset =>
            let tokenStart := cursor + offset
            if commentOpen <+: text.drop tokenStart then
              scanRawHtmlFrom text fuel (tokenStart + commentOpen.length) true tags
                (context.or (some tokenStart))
            else
              let scan := scanHtmlTag u (text.drop tokenStart)
              match scan.tagEnd with
              | .oversized | .unfinished =>
                  if tags ≠ [] ∨ scan.confirmedRawOpen = true then
                    openRange text (context.or (some tokenStart))
                  else []
              | .complete length remainder =>
                  let stop := tokenStart + length
                  if tags = [] then
                    if scan.confirmedRawOpen && !scan.selfClosing remainder then
                      scanRawHtmlFrom text fuel stop false [scan.name] (some tokenStart)
                    else scanRawHtmlFrom text fuel stop false [] none
                  else if scan.exactClose remainder && tags.getLast? = some scan.name then
                    if tags.dropLast = [] then
                      (context.toList.map fun start => ⟨start, stop, true⟩) ++
                        scanRawHtmlFrom text fuel stop false [] none
                    else scanRawHtmlFrom text fuel stop false tags.dropLast context
                  else if scan.confirmedRawOpen && !scan.selfClosing remainder then
                    if rawHtmlMaxDepth ≤ tags.length then openRange text context
                    else scanRawHtmlFrom text fuel stop false (tags ++ [scan.name]) context
                  else scanRawHtmlFrom text fuel stop false tags context

def rawHtmlCodeRanges (text : Str) : List MarkdownCodeRange :=
  scanRawHtmlFrom u text (text.length + 1) 0 false [] none

/-! ### All ranges -/

def maskAt (ranges : List MarkdownCodeRange) (index : Nat) (c : Char) : Char :=
  if (ranges.any fun range => range.start ≤ index && index < range.stop) && !isNewline c then '\x00'
  else c

/-- `_mask_candidate_spans`. -/
def maskCandidateSpans (text : Str) (ranges : List MarkdownCodeRange) : Str :=
  text.mapIdx (maskAt ranges)

def markdownCodeRanges (text : Str) : List MarkdownCodeRange :=
  let raw := rawHtmlCodeRanges u (maskCandidateSpans text (markdownSyntaxCodeRanges text))
  let syntaxRanges := markdownSyntaxCodeRanges (maskCandidateSpans text raw)
  let raw := rawHtmlCodeRanges u (maskCandidateSpans text syntaxRanges)
  sortRanges (syntaxRanges ++ raw)

def positionIsInCode (position : Nat) (ranges : List MarkdownCodeRange) : Bool :=
  ranges.any fun range => range.start ≤ position && position < range.stop

/-! ### Every range starts at some markup -/

def LineStart (text : Str) (p : Nat) : Prop :=
  p = 0 ∨ ∃ c, text[p - 1]? = some c ∧ isNewline c = true

def RawOpen (rest : Str) : Prop := ['<'] <+: rest ∧ (scanHtmlTag u rest).confirmedRawOpen = true

def Markup (rest : Str) : Prop :=
  ['`'] <+: rest ∨ ['~', '~', '~'] <+: rest ∨ commentOpen <+: rest ∨ RawOpen u rest

def CodeMarkupAt (text : Str) (p : Nat) : Prop :=
  Markup u (text.drop p) ∨ LineStart text p ∧ isIndented (text.drop p) = true

variable {u} {text : Str} {range : MarkdownCodeRange}

theorem slice_isPrefix (text : Str) (start stop : Nat) : slice text start stop <+: text.drop start :=
  List.take_prefix _ _

theorem drop_prefix {front rest : Str} (h : front <+: rest) (k : Nat) :
    front.drop k <+: rest.drop k := by
  obtain ⟨back, rfl⟩ := h
  rw [List.drop_append]
  exact List.prefix_append _ _

theorem runLength_le {front rest : Str} (h : front <+: rest) (c : Char) :
    runLength c front ≤ runLength c rest := by
  obtain ⟨back, rfl⟩ := h
  unfold runLength
  rw [List.takeWhile_append]
  split_ifs with hall
  · rw [List.length_append, hall]
    exact Nat.le_add_right _ _
  · exact Nat.le_refl _

theorem replicate_runLength_prefix (c : Char) (text : Str) :
    List.replicate (runLength c text) c <+: text := by
  have hall : text.takeWhile (· = c) = List.replicate (runLength c text) c :=
    List.eq_replicate_iff.2 ⟨rfl, fun b hb => by simpa using List.mem_takeWhile_imp hb⟩
  rw [← hall]
  exact List.takeWhile_prefix _

theorem isIndented_of_prefix {line rest : Str} (h : line <+: rest) (hline : isIndented line = true) :
    isIndented rest = true := by
  rw [isIndented, Bool.or_eq_true, decide_eq_true_eq, decide_eq_true_eq] at hline ⊢
  cases hline with
  | inl htab => exact Or.inl (htab.trans h)
  | inr hspaces => exact Or.inr (Nat.le_trans hspaces (runLength_le h ' '))

theorem drop_length_takeWhile (keep : Char → Bool) (rest : Str) :
    rest.drop (rest.takeWhile keep).length = rest.dropWhile keep := by
  conv_lhs => rw [← List.takeWhile_append_dropWhile (p := keep) (l := rest)]
  exact List.drop_left' (by rw [List.takeWhile_append_dropWhile])

theorem newline_before {content tail : Str} {k : Nat} (hk : k = endingLength tail)
    (htail : ∀ c, tail.head? = some c → isNewline c = true) (hrest : tail.drop k ≠ []) :
    ∃ c, (content ++ tail)[content.length + k - 1]? = some c ∧ isNewline c = true := by
  cases tail with
  | nil => exact absurd List.drop_nil hrest
  | cons first rest =>
      have hfirst := htail first rfl
      unfold endingLength at hk
      split at hk
      next heq => cases heq
      next rest' heq =>
          subst hk
          rw [heq, List.getElem?_append_right (by omega)]
          have hindex : content.length + 2 - 1 - content.length = 1 := by omega
          rw [hindex]
          exact ⟨'\n', rfl, by decide⟩
      next =>
          subst hk
          rw [List.getElem?_append_right (by omega)]
          have hindex : content.length + 1 - 1 - content.length = 0 := by omega
          rw [hindex]
          exact ⟨first, rfl, hfirst⟩

theorem lineStart_of_mem_lineSpansFrom {span : LineSpan} :
    ∀ {fuel start : Nat}, LineStart text start →
      span ∈ lineSpansFrom fuel start (text.drop start) → LineStart text span.start := by
  intro fuel
  induction fuel with
  | zero =>
      intro start _ hspan
      cases hspan
  | succ fuel ih =>
      intro start hstart hspan
      unfold lineSpansFrom at hspan
      by_cases hnil : text.drop start = []
      · rw [if_pos hnil] at hspan
        cases hspan
      rw [if_neg hnil] at hspan
      generalize hcontent : (text.drop start).takeWhile (!isNewline ·) = content at hspan
      have hdrop : (text.drop start).drop content.length =
          (text.drop start).dropWhile (!isNewline ·) := by
        rw [← hcontent, drop_length_takeWhile]
      generalize htail : (text.drop start).dropWhile (!isNewline ·) = tail at hdrop
      have hsplit : text.drop start = content ++ tail := by
        rw [← hcontent, ← htail, List.takeWhile_append_dropWhile]
      have hhead : ∀ c, tail.head? = some c → isNewline c = true := by
        intro c hc
        have hnot := List.head?_dropWhile_not (!isNewline ·) (text.drop start)
        rw [htail, hc] at hnot
        simpa using hnot
      dsimp only at hspan
      rw [hdrop] at hspan
      cases List.mem_cons.1 hspan with
      | inl heq =>
          rw [heq]
          exact hstart
      | inr hrest =>
          generalize hk : endingLength tail = k at hrest
          have hstop : start + content.length + k - start = content.length + k := by omega
          rw [hstop, List.drop_drop, ← Nat.add_assoc] at hrest
          by_cases hempty : tail.drop k = []
          · have hall : text.drop (start + content.length + k) = [] := by
              rw [Nat.add_assoc, ← List.drop_drop, hsplit, ← List.drop_drop, List.drop_left, hempty]
            rw [hall] at hrest
            cases fuel with
            | zero => cases hrest
            | succ fuel => cases hrest
          · apply ih _ hrest
            obtain ⟨c, hc, hnewline⟩ := @newline_before content _ _ hk.symm hhead hempty
            have hpos : 0 < k := by
              cases tail with
              | nil => exact absurd List.drop_nil hempty
              | cons first rest =>
                  rw [← hk]
                  unfold endingLength
                  split
                  next heq => cases heq
                  next => omega
                  next => omega
            rw [← hsplit, List.getElem?_drop] at hc
            have hindex : start + (content.length + k - 1) = start + content.length + k - 1 := by
              omega
            rw [hindex] at hc
            exact Or.inr ⟨c, hc, hnewline⟩

theorem lineStart_of_mem {span : LineSpan} (h : span ∈ markdownLineSpans text) :
    LineStart text span.start := by
  apply lineStart_of_mem_lineSpansFrom (Or.inl rfl)
  rw [List.drop_zero]
  exact h

theorem markup_of_fenceOf {line : Str} {fence : Fence} (h : fenceOf line = some fence) :
    ['`'] <+: line.drop fence.column ∨ ['~', '~', '~'] <+: line.drop fence.column := by
  unfold fenceOf at h
  dsimp only at h
  split at h
  next => cases h
  next c rest hdrop =>
    split_ifs at h with hfence
    cases h
    obtain ⟨-, hchar, hlength⟩ := hfence
    have hrun := replicate_runLength_prefix c (c :: rest)
    have hthree : List.replicate 3 c <+: c :: rest := by
      apply List.IsPrefix.trans _ hrun
      exact ⟨List.replicate (runLength c (c :: rest) - 3) c, by
        rw [← List.replicate_add, Nat.add_sub_cancel' hlength]⟩
    show ['`'] <+: line.drop (runLength ' ' line) ∨ ['~', '~', '~'] <+: line.drop (runLength ' ' line)
    rw [hdrop]
    cases hchar with
    | inl hback =>
        subst hback
        exact Or.inl (List.IsPrefix.trans ⟨['`', '`'], rfl⟩ hthree)
    | inr htilde =>
        subst htilde
        exact Or.inr hthree

theorem markup_of_fenceOf_slice {span : LineSpan} {fence : Fence}
    (h : fenceOf (slice text span.start span.contentEnd) = some fence) :
    Markup u (text.drop (span.start + fence.column)) := by
  have hprefix := drop_prefix (slice_isPrefix text span.start span.contentEnd) fence.column
  rw [List.drop_drop] at hprefix
  cases markup_of_fenceOf h with
  | inl hback => exact Or.inl (hback.trans hprefix)
  | inr htilde => exact Or.inr (Or.inl (htilde.trans hprefix))

theorem markup_of_mem_fencedFrom {spans : List LineSpan} :
    ∀ {active : Option ActiveFence},
      (∀ fence, active = some fence → Markup u (text.drop fence.start)) →
      range ∈ fencedFrom text active spans → Markup u (text.drop range.start) := by
  induction spans with
  | nil =>
      intro active hactive hrange
      cases active with
      | none => cases hrange
      | some fence =>
          rw [List.mem_singleton.1 hrange]
          exact hactive fence rfl
  | cons span spans ih =>
      intro active hactive hrange
      cases active with
      | none =>
          unfold fencedFrom at hrange
          split at hrange
          next fence hfence =>
            apply ih _ hrange
            intro opened hopened
            cases hopened
            exact markup_of_fenceOf_slice hfence
          next => exact ih (by simp) hrange
      | some fence =>
          unfold fencedFrom at hrange
          split_ifs at hrange with hclosed
          · cases List.mem_cons.1 hrange with
            | inl heq =>
                rw [heq]
                exact hactive fence rfl
            | inr hrest => exact ih (by simp) hrest
          · exact ih hactive hrange

theorem markup_of_mem_inlineFrom {fenced : List MarkdownCodeRange} :
    ∀ {fuel index : Nat}, range ∈ inlineFrom text fenced fuel index →
      Markup u (text.drop range.start) := by
  intro fuel
  induction fuel with
  | zero =>
      intro index hrange
      cases hrange
  | succ fuel ih =>
      intro index hrange
      unfold inlineFrom at hrange
      split at hrange
      next => exact ih hrange
      next =>
        split at hrange
        next => cases hrange
        next c hc =>
          split_ifs at hrange with hback
          · exact ih hrange
          rw [ne_eq, not_not] at hback
          subst hback
          have hstart : Markup u (text.drop index) := by
            obtain ⟨hlt, heq⟩ := List.getElem?_eq_some_iff.1 hc
            rw [List.drop_eq_getElem_cons hlt, heq]
            exact Or.inl ⟨_, rfl⟩
          dsimp only at hrange
          split at hrange
          next =>
            rw [List.mem_singleton.1 hrange]
            exact hstart
          next =>
            cases List.mem_cons.1 hrange with
            | inl heq =>
                rw [heq]
                exact hstart
            | inr hrest => exact ih hrest

theorem mem_sortRanges {ranges : List MarkdownCodeRange} :
    range ∈ sortRanges ranges ↔ range ∈ ranges :=
  (List.perm_insertionSort _ ranges).mem_iff

theorem codeMarkupAt_of_mem_markdown (h : range ∈ markdownSyntaxCodeRanges text) :
    CodeMarkupAt u text range.start := by
  rw [markdownSyntaxCodeRanges, mem_sortRanges, List.mem_append] at h
  cases h with
  | inl h =>
      unfold fencedOrInlineCodeRanges at h
      rw [mem_sortRanges, List.mem_append] at h
      cases h with
      | inl hfenced => exact Or.inl (markup_of_mem_fencedFrom (by simp) hfenced)
      | inr hinline => exact Or.inl (markup_of_mem_inlineFrom hinline)
  | inr h =>
      obtain ⟨span, hspan, hsome⟩ := List.mem_filterMap.1 h
      split_ifs at hsome with hindented
      cases hsome
      exact Or.inr ⟨lineStart_of_mem hspan, isIndented_of_prefix (slice_isPrefix _ _ _) hindented⟩

/-! Of raw HTML the range of a context starts where the context began. -/

theorem eq_of_mem_map_toList {context : Option Nat} {make : Nat → MarkdownCodeRange}
    (hmake : ∀ start, (make start).start = start)
    (h : range ∈ context.toList.map make) : context = some range.start := by
  obtain ⟨start, hstart, heq⟩ := List.mem_map.1 h
  rw [← heq, hmake]
  exact Option.mem_toList.1 hstart

theorem markup_of_or {context : Option Nat} {tokenStart start : Nat}
    (hcontext : ∀ start, context = some start → Markup u (text.drop start))
    (htoken : context = none → Markup u (text.drop tokenStart))
    (h : context.or (some tokenStart) = some start) : Markup u (text.drop start) := by
  cases context with
  | none =>
      cases h
      exact htoken rfl
  | some first =>
      cases h
      exact hcontext _ rfl

theorem markup_of_mem_openRange {context : Option Nat}
    (hcontext : ∀ start, context = some start → Markup u (text.drop start))
    (h : range ∈ openRange text context) : Markup u (text.drop range.start) :=
  hcontext _ (eq_of_mem_map_toList (fun _ => rfl) h)

theorem markup_of_mem_scanRawHtmlFrom :
    ∀ {fuel cursor : Nat} {inComment : Bool} {tags : List Str} {context : Option Nat},
      (∀ start, context = some start → Markup u (text.drop start)) →
      (context = none → tags = []) →
      range ∈ scanRawHtmlFrom u text fuel cursor inComment tags context →
      Markup u (text.drop range.start) := by
  intro fuel
  induction fuel with
  | zero =>
      intro cursor inComment tags context _ _ hrange
      cases hrange
  | succ fuel ih =>
      intro cursor inComment tags context hcontext htags hrange
      -- the range of the context is closed, and the scan goes on without one
      have hclose : ∀ {stop : Nat}, range ∈
          (context.toList.map fun start => (⟨start, stop, true⟩ : MarkdownCodeRange)) ++
            scanRawHtmlFrom u text fuel stop false [] none → Markup u (text.drop range.start) := by
        intro stop hmem
        cases List.mem_append.1 hmem with
        | inl hmem => exact hcontext _ (eq_of_mem_map_toList (fun _ => rfl) hmem)
        | inr hmem => exact ih (by simp) (by simp) hmem
      unfold scanRawHtmlFrom at hrange
      by_cases hend : text.length ≤ cursor
      · rw [if_pos hend] at hrange
        exact markup_of_mem_openRange hcontext hrange
      rw [if_neg hend] at hrange
      cases inComment with
      | true =>
          rw [if_pos rfl] at hrange
          split at hrange
          next => exact markup_of_mem_openRange hcontext hrange
          next offset _ =>
            dsimp only at hrange
            by_cases hempty : tags = []
            · rw [if_pos hempty] at hrange
              exact hclose hrange
            · rw [if_neg hempty] at hrange
              exact ih hcontext htags hrange
      | false =>
          rw [if_neg (by simp)] at hrange
          split at hrange
          next => exact markup_of_mem_openRange hcontext hrange
          next offset hfind =>
            dsimp only at hrange
            generalize hstart : cursor + offset = tokenStart at hrange
            by_cases hcomment : commentOpen <+: text.drop tokenStart
            · rw [if_pos hcomment] at hrange
              apply ih _ _ hrange
              · intro start
                exact markup_of_or hcontext fun _ => Or.inr (Or.inr (Or.inl hcomment))
              · intro h
                cases context with
                | none => cases h
                | some first => cases h
            rw [if_neg hcomment] at hrange
            have hangle : ['<'] <+: text.drop tokenStart := by
              have hoccurs := ((find_eq_some_iff (by simp)).1 hfind).1
              rw [occursAt_drop, hstart] at hoccurs
              exact hoccurs
            have hraw : (scanHtmlTag u (text.drop tokenStart)).confirmedRawOpen = true →
                Markup u (text.drop tokenStart) :=
              fun hconfirmed => Or.inr (Or.inr (Or.inr ⟨hangle, hconfirmed⟩))
            generalize hscan : scanHtmlTag u (text.drop tokenStart) = scan at hrange hraw
            -- a tag that does not end
            have hopen : range ∈ (if tags ≠ [] ∨ scan.confirmedRawOpen = true then
                openRange text (context.or (some tokenStart)) else []) →
                Markup u (text.drop range.start) := by
              intro hmem
              split_ifs at hmem with hcode
              · apply markup_of_mem_openRange _ hmem
                intro start
                apply markup_of_or hcontext
                intro hcontext
                cases hcode with
                | inl hne => exact absurd (htags hcontext) hne
                | inr hconfirmed => exact hraw hconfirmed
              · cases hmem
            split at hrange
            next => exact hopen hrange
            next => exact hopen hrange
            next length remainder =>
              split_ifs at hrange with hempty hopens hcloses hlast hopens hdeep
              · apply ih _ (by simp) hrange
                intro start h
                cases h
                rw [Bool.and_eq_true] at hopens
                exact hraw hopens.1
              · exact ih (by simp) (by simp) hrange
              · exact hclose hrange
              · apply ih hcontext _ hrange
                intro hcontext
                rw [htags hcontext]
                rfl
              · exact markup_of_mem_openRange hcontext hrange
              · apply ih hcontext _ hrange
                intro hcontext
                exact absurd (htags hcontext) hempty
              · exact ih hcontext htags hrange

theorem codeMarkupAt_of_mem_raw (h : range ∈ rawHtmlCodeRanges u text) :
    CodeMarkupAt u text range.start :=
  Or.inl (markup_of_mem_scanRawHtmlFrom (by simp) (by simp) h)

/-! ### In front of the first markup -/

variable (u) in
/-- Prose with no code markup, up to a line break. -/
structure PlainProse (prose : Str) : Prop where
  noMarkup : ∀ p < prose.length, ¬ CodeMarkupAt u prose p
  ends : prose = [] ∨ ∃ front c, prose = front ++ [c] ∧ isNewline c = true

/-- Prose, some spaces and a DSML tag, of which all but the `<` may be masked. -/
def Shows (front text : Str) : Prop :=
  ∃ c rest, (c = '｜' ∨ c = '\x00') ∧ text = front ++ '<' :: c :: rest

theorem isNameChar_eq_false {c : Char} (hc : c = '｜' ∨ c = '\x00') : isNameChar u c = false := by
  have halnum : u.isAlnum c = false := by
    apply u.isAlnum_eq_false
    cases hc with
    | inl h => simp [h]
    | inr h => simp [h]
  rw [isNameChar, halnum]
  cases hc with
  | inl h =>
      subst h
      decide
  | inr h =>
      subst h
      decide

theorem confirmedRawOpen_iff {rest : Str} : (scanHtmlTag u ('<' :: rest)).confirmedRawOpen = true ↔
    ¬ ['/'] <+: rest ∧
      ((rest.drop (rest.takeWhile (isNameChar u)).length).head?.all fun c =>
        isSpace c || c = '/' || c = '>') = true ∧
      u.lower (rest.takeWhile (isNameChar u)) ∈ rawHtmlTags := by
  by_cases hclosing : ['/'] <+: rest
  · simp [HtmlTagScan.confirmedRawOpen, scanHtmlTag, hclosing]
  · simp [HtmlTagScan.confirmedRawOpen, scanHtmlTag, hclosing, Nat.add_comm 1]

theorem not_markup_tag {c : Char} (hc : c = '｜' ∨ c = '\x00') (rest : Str) :
    ¬ Markup u ('<' :: c :: rest) := by
  have hne : c ≠ '!' ∧ c ≠ '/' := by
    cases hc with
    | inl h =>
        subst h
        decide
    | inr h =>
        subst h
        decide
  intro h
  cases h with
  | inl h => simp at h
  | inr h =>
      cases h with
      | inl h => simp at h
      | inr h =>
          cases h with
          | inl h =>
              have hcomment : commentOpen = ['<', '!', '-', '-'] := rfl
              rw [hcomment, List.cons_prefix_cons, List.cons_prefix_cons] at h
              exact hne.1 h.2.1.symm
          | inr h =>
              have hname := (confirmedRawOpen_iff.1 h.2).2.2
              rw [List.takeWhile_cons_of_neg (by simp [isNameChar_eq_false hc]), u.lower_nil] at hname
              simp [rawHtmlTags] at hname

section

variable {front rest : Str}

theorem prefix_of_append {pattern : Str} (hfront : ∃ c ∈ front, isNewline c = true)
    (hpattern : ∀ c ∈ pattern, isNewline c = false) (h : pattern <+: front ++ rest) :
    pattern <+: front := by
  cases List.prefix_or_prefix_of_prefix h (List.prefix_append front rest) with
  | inl h => exact h
  | inr h =>
      obtain ⟨c, hc, hnewline⟩ := hfront
      rw [hpattern c (h.subset hc)] at hnewline
      cases hnewline

theorem takeWhile_append_of_mem {keep : Char → Bool} (h : ∃ c ∈ front, keep c = false) :
    (front ++ rest).takeWhile keep = front.takeWhile keep := by
  rw [List.takeWhile_append, if_neg]
  intro hlength
  obtain ⟨c, hc, hkeep⟩ := h
  have hall := List.takeWhile_prefix keep (l := front) |>.eq_of_length hlength
  rw [← hall] at hc
  rw [List.mem_takeWhile_imp hc] at hkeep
  cases hkeep

theorem length_takeWhile_lt {keep : Char → Bool} (h : ∃ c ∈ front, keep c = false) :
    (front.takeWhile keep).length < front.length := by
  apply Nat.lt_of_le_of_ne (List.takeWhile_prefix keep).length_le
  intro hlength
  obtain ⟨c, hc, hkeep⟩ := h
  have hall := List.takeWhile_prefix keep (l := front) |>.eq_of_length hlength
  rw [← hall] at hc
  rw [List.mem_takeWhile_imp hc] at hkeep
  cases hkeep

theorem isNameChar_of_isNewline {c : Char} (hc : isNewline c = true) : isNameChar u c = false := by
  have hnewline : c = '\r' ∨ c = '\n' := by simpa [isNewline] using hc
  have halnum : u.isAlnum c = false := by
    apply u.isAlnum_eq_false
    cases hnewline with
    | inl h => simp [h]
    | inr h => simp [h]
  rw [isNameChar, halnum]
  cases hnewline with
  | inl h =>
      subst h
      decide
  | inr h =>
      subst h
      decide

theorem rawOpen_of_append (hfront : ∃ c ∈ front, isNewline c = true)
    (h : RawOpen u (front ++ rest)) : RawOpen u front := by
  have hangle := prefix_of_append hfront (by decide) h.1
  obtain ⟨front, rfl⟩ := hangle
  have hin : ∃ c ∈ front, isNewline c = true := by
    obtain ⟨c, hc, hnewline⟩ := hfront
    cases List.mem_cons.1 hc with
    | inl heq =>
        rw [heq] at hnewline
        exact absurd hnewline (by decide)
    | inr hc => exact ⟨c, hc, hnewline⟩
  have hstop : ∃ c ∈ front, isNameChar u c = false := by
    obtain ⟨c, hc, hnewline⟩ := hin
    exact ⟨c, hc, isNameChar_of_isNewline hnewline⟩
  have hconfirmed : (scanHtmlTag u ('<' :: (front ++ rest))).confirmedRawOpen = true := h.2
  obtain ⟨hopen, hboundary, hname⟩ := confirmedRawOpen_iff.1 hconfirmed
  have hlt := length_takeWhile_lt hstop
  rw [takeWhile_append_of_mem hstop] at hboundary hname
  rw [List.drop_append_of_le_length (Nat.le_of_lt hlt), List.drop_eq_getElem_cons hlt,
    List.cons_append] at hboundary
  have hopen' : ¬ ['/'] <+: front := fun h => hopen (h.trans (List.prefix_append front rest))
  have hraw : (scanHtmlTag u ('<' :: front)).confirmedRawOpen = true := by
    apply confirmedRawOpen_iff.2
    rw [List.drop_eq_getElem_cons hlt]
    exact ⟨hopen', hboundary, hname⟩
  exact ⟨List.prefix_append _ _, hraw⟩

theorem markup_of_append (hfront : ∃ c ∈ front, isNewline c = true)
    (h : Markup u (front ++ rest)) : Markup u front := by
  cases h with
  | inl h => exact Or.inl (prefix_of_append hfront (by decide) h)
  | inr h =>
      cases h with
      | inl h => exact Or.inr (Or.inl (prefix_of_append hfront (by decide) h))
      | inr h =>
          cases h with
          | inl h => exact Or.inr (Or.inr (Or.inl (prefix_of_append hfront (by decide) h)))
          | inr h => exact Or.inr (Or.inr (Or.inr (rawOpen_of_append hfront h)))

theorem isIndented_of_append (hfront : ∃ c ∈ front, isNewline c = true)
    (h : isIndented (front ++ rest) = true) : isIndented front = true := by
  have hspace : ∃ c ∈ front, decide (c = ' ') = false := by
    obtain ⟨c, hc, hnewline⟩ := hfront
    refine ⟨c, hc, decide_eq_false fun heq => ?_⟩
    rw [heq] at hnewline
    exact absurd hnewline (by decide)
  rw [isIndented, Bool.or_eq_true, decide_eq_true_eq, decide_eq_true_eq] at h ⊢
  cases h with
  | inl htab => exact Or.inl (prefix_of_append hfront (by decide) htab)
  | inr hspaces =>
      rw [runLength, takeWhile_append_of_mem hspace] at hspaces
      exact Or.inr hspaces

theorem PlainProse.newline_mem_drop (h : PlainProse u front) {p : Nat} (hp : p < front.length) :
    ∃ c ∈ front.drop p, isNewline c = true := by
  cases h.ends with
  | inl hnil =>
      rw [hnil] at hp
      cases hp
  | inr hends =>
      obtain ⟨start, c, rfl, hc⟩ := hends
      rw [List.length_append, List.length_singleton] at hp
      rw [List.drop_append_of_le_length (by omega)]
      exact ⟨c, List.mem_append_right _ (List.mem_singleton_self c), hc⟩

theorem PlainProse.not_codeMarkupAt (h : PlainProse u front) {p : Nat} (hp : p < front.length) :
    ¬ CodeMarkupAt u (front ++ rest) p := by
  have hnewline := h.newline_mem_drop hp
  intro hmarkup
  apply h.noMarkup p hp
  rw [CodeMarkupAt, List.drop_append_of_le_length (Nat.le_of_lt hp)] at hmarkup
  cases hmarkup with
  | inl hmarkup => exact Or.inl (markup_of_append hnewline hmarkup)
  | inr hindented =>
      refine Or.inr ⟨?_, isIndented_of_append hnewline hindented.2⟩
      cases hindented.1 with
      | inl hzero => exact Or.inl hzero
      | inr hbefore =>
          obtain ⟨c, hc, hnewline⟩ := hbefore
          rw [List.getElem?_append_left (by omega)] at hc
          exact Or.inr ⟨c, hc, hnewline⟩

end

section

variable {prose indent : Str}

theorem not_codeMarkupAt_spaces {k : Nat} (hpos : 0 < k) (hk : k ≤ 3) (rest : Str) :
    ¬ Markup u (List.replicate k ' ' ++ '<' :: rest) ∧
      isIndented (List.replicate k ' ' ++ '<' :: rest) = false := by
  obtain ⟨k, rfl⟩ := Nat.exists_eq_succ_of_ne_zero (Nat.ne_of_gt hpos)
  constructor
  · rw [List.replicate_succ, List.cons_append]
    intro h
    have hcomment : commentOpen = ['<', '!', '-', '-'] := rfl
    simp [Markup, RawOpen, hcomment] at h
  · have hrun : runLength ' ' (List.replicate (k + 1) ' ' ++ '<' :: rest) = k + 1 := by
      rw [runLength, List.takeWhile_append_of_pos (by simp)]
      simp
    have hfew : ¬ 4 ≤ k + 1 := by omega
    rw [isIndented, hrun, decide_eq_false hfew, Bool.or_false, List.replicate_succ]
    simp

theorem lt_start_of_codeMarkupAt (hprose : PlainProse u prose) {k : Nat} (hk : k ≤ 3) {p : Nat}
    (hshows : Shows (prose ++ List.replicate k ' ') text) (h : CodeMarkupAt u text p) :
    prose.length + k < p := by
  obtain ⟨c, rest, hc, rfl⟩ := hshows
  by_contra hle
  rw [Nat.not_lt] at hle
  by_cases hp : p < prose.length
  · rw [List.append_assoc] at h
    exact hprose.not_codeMarkupAt hp h
  have hdrop : (prose ++ List.replicate k ' ' ++ '<' :: c :: rest).drop p =
      List.replicate (prose.length + k - p) ' ' ++ '<' :: c :: rest := by
    rw [List.append_assoc, List.drop_append, List.drop_eq_nil_of_le (by omega), List.nil_append,
      List.drop_append_of_le_length (by rw [List.length_replicate]; omega), List.drop_replicate]
    congr 2
    omega
  rw [CodeMarkupAt, hdrop] at h
  by_cases hpos : 0 < prose.length + k - p
  · have hnot := not_codeMarkupAt_spaces (u := u) hpos (by omega) (c :: rest)
    cases h with
    | inl h => exact hnot.1 h
    | inr h =>
        rw [hnot.2] at h
        cases h.2
  · have hzero : prose.length + k - p = 0 := by omega
    rw [hzero, List.replicate_zero, List.nil_append] at h
    cases h with
    | inl h => exact not_markup_tag hc rest h
    | inr h =>
        have hindented := h.2
        simp [isIndented, runLength] at hindented

theorem maskAt_eq_self {ranges : List MarkdownCodeRange} {index : Nat}
    (hranges : ∀ range ∈ ranges, index < range.start) (c : Char) : maskAt ranges index c = c := by
  have hany : (ranges.any fun range => range.start ≤ index && index < range.stop) = false := by
    rw [List.any_eq_false]
    intro range hrange
    simp [Nat.not_le.2 (hranges range hrange)]
  rw [maskAt, hany, Bool.false_and, if_neg (by simp)]

/-- A mask of ranges that all start behind the `<` leaves it as it is. -/
theorem Shows.mask {front : Str} {ranges : List MarkdownCodeRange} (h : Shows front text)
    (hranges : ∀ range ∈ ranges, front.length < range.start) :
    Shows front (maskCandidateSpans text ranges) := by
  obtain ⟨c, rest, hc, rfl⟩ := h
  have hfront : front.mapIdx (maskAt ranges) = front := by
    apply List.ext_getElem
    · exact List.length_mapIdx
    · intro i hi _
      rw [List.length_mapIdx] at hi
      rw [List.getElem_mapIdx]
      exact maskAt_eq_self (fun range hrange => Nat.lt_trans hi (hranges range hrange)) _
  refine ⟨maskAt ranges (front.length + 1) c,
    rest.mapIdx fun i => maskAt ranges (i + 2 + front.length), ?_, ?_⟩
  · unfold maskAt
    split_ifs
    · exact Or.inr rfl
    · exact hc
  · show (front ++ '<' :: c :: rest).mapIdx (maskAt ranges) = _
    rw [List.mapIdx_append, hfront, List.mapIdx_cons, List.mapIdx_cons]
    congr 2
    · rw [Nat.zero_add]
      exact maskAt_eq_self hranges _
    · congr 1
      rw [Nat.add_comm]

theorem not_positionIsInCode (hprose : PlainProse u prose) {k : Nat} (hk : k ≤ 3)
    (h : Shows (prose ++ List.replicate k ' ') text) :
    positionIsInCode (prose.length + k) (markdownCodeRanges u text) = false := by
  have hlength : (prose ++ List.replicate k ' ').length = prose.length + k := by
    rw [List.length_append, List.length_replicate]
  have hmarkdown : ∀ {text : Str}, Shows (prose ++ List.replicate k ' ') text →
      ∀ range ∈ markdownSyntaxCodeRanges text,
        (prose ++ List.replicate k ' ').length < range.start := by
    intro text hshows range hrange
    rw [hlength]
    exact lt_start_of_codeMarkupAt hprose hk hshows (codeMarkupAt_of_mem_markdown hrange)
  have hraw : ∀ {text : Str}, Shows (prose ++ List.replicate k ' ') text →
      ∀ range ∈ rawHtmlCodeRanges u text,
        (prose ++ List.replicate k ' ').length < range.start := by
    intro text hshows range hrange
    rw [hlength]
    exact lt_start_of_codeMarkupAt hprose hk hshows (codeMarkupAt_of_mem_raw hrange)
  have hall : ∀ range ∈ markdownCodeRanges u text, prose.length + k < range.start := by
    have hmasked := h.mask (hmarkdown h)
    have hhidden := h.mask (hraw hmasked)
    intro range hrange
    rw [markdownCodeRanges, mem_sortRanges, List.mem_append] at hrange
    rw [← hlength]
    cases hrange with
    | inl hrange => exact hmarkdown hhidden range hrange
    | inr hrange => exact hraw (h.mask (hmarkdown hhidden)) range hrange
  rw [positionIsInCode, List.any_eq_false]
  intro range hrange
  simp [Nat.not_le.2 (hall range hrange)]

end

end OpenStarry.TextTools
