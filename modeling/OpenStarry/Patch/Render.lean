import OpenStarry.Lib.Cut
import OpenStarry.Patch.Parser

/-!
# Rendering a patch, and reading it back

The text of a list of operations in the Begin Patch format, and exactly when the parser reads the
operations back from it. The parser strips a line before it compares it with the end marker and
with the hunk headers, so the space prefix of a context line is lost there: the operations come
back if and only if no context line reads like one of the two.
-/

namespace OpenStarry.Patch

open Lib Lib.Text

/-- The two spellings of a hunk header. -/
inductive HeaderStyle where
  | unified
  | openStarry
  deriving DecidableEq, Repr

def HeaderStyle.marks : HeaderStyle → Str
  | .unified => "@@".toList
  | .openStarry => "@@@".toList

def renderHunkHeader (style : HeaderStyle) (hunk : Hunk) : Str :=
  style.marks ++ (' ' :: '-' :: decimal hunk.oldStart) ++ (',' :: decimal hunk.oldCount) ++
    (' ' :: '+' :: decimal hunk.newStart) ++ (',' :: decimal hunk.newCount) ++ ' ' :: style.marks

def renderHunk (style : HeaderStyle) (hunk : Hunk) : List Str :=
  renderHunkHeader style hunk :: hunk.lines

def renderOp (style : HeaderStyle) : PatchOp → List Str
  | .addFile path content =>
      (addFilePrefix ++ path) :: (content.splitOn '\n').map ('+' :: ·)
  | .updateFile path hunks => (updateFilePrefix ++ path) :: hunks.flatMap (renderHunk style)
  | .deleteFile path => [deleteFilePrefix ++ path]

def renderBody (style : HeaderStyle) (ops : List PatchOp) : List Str := ops.flatMap (renderOp style)

def renderPatch (style : HeaderStyle) (ops : List PatchOp) : Str :=
  unlines (beginPatch :: renderBody style ops ++ [endPatch])

/-! ### What the format can carry -/

/-- A non-blank path on one line without surrounding whitespace. -/
structure PlainPath (path : Str) : Prop where
  singleLine : SingleLine path
  notBlank : path ≠ []
  stripped : strip path = path

def Hunk.Prefixed (hunk : Hunk) : Prop :=
  ∀ line ∈ hunk.lines, ∃ mark ∈ [' ', '+', '-'], ∃ text, SingleLine text ∧ line = mark :: text

def PatchOp.Renderable : PatchOp → Prop
  | .addFile path content =>
      PlainPath path ∧ ∃ lines, (∀ line ∈ lines, SingleLine line) ∧ content = unlines lines
  | .updateFile path hunks => PlainPath path ∧ hunks ≠ [] ∧ ∀ hunk ∈ hunks, hunk.Prefixed
  | .deleteFile path => PlainPath path

def readsAsMarker (line : Str) : Bool := isEndMarker line || isHunkHeader line

/-! ### Reading a header -/

theorem strip_between {first last : Char} (hfirst : isSpace first = false)
    (hlast : isSpace last = false) (middle : Str) :
    strip (first :: (middle ++ [last])) = first :: (middle ++ [last]) := by
  rw [strip, lstrip, List.dropWhile_cons_of_neg (by simp [hfirst]), rstrip, ← List.cons_append,
    List.rdropWhile_concat_neg _ _ _ (by simp [hlast])]

theorem exists_marks_eq (style : HeaderStyle) :
    ∃ middle, style.marks = '@' :: middle ∧ style.marks = middle ++ ['@'] := by
  cases style with
  | unified => exact ⟨['@'], rfl, rfl⟩
  | openStarry => exact ⟨['@', '@'], rfl, rfl⟩

theorem strip_renderHunkHeader (style : HeaderStyle) (hunk : Hunk) :
    strip (renderHunkHeader style hunk) = renderHunkHeader style hunk := by
  obtain ⟨middle, hhead, hlast⟩ := exists_marks_eq style
  have hshape : ∃ inner, renderHunkHeader style hunk = '@' :: (inner ++ ['@']) := by
    refine ⟨middle ++ (' ' :: '-' :: decimal hunk.oldStart) ++ (',' :: decimal hunk.oldCount) ++
      (' ' :: '+' :: decimal hunk.newStart) ++ (',' :: decimal hunk.newCount) ++ ' ' :: middle, ?_⟩
    rw [renderHunkHeader]
    nth_rewrite 2 [hlast]
    rw [hhead]
    simp only [List.cons_append, List.append_assoc]
  obtain ⟨inner, hinner⟩ := hshape
  rw [hinner]
  exact strip_between (by decide) (by decide) inner

theorem matchText_cons (c : Char) (s : Str) : matchText [c] (c :: s) = some s := by
  simp [matchText]

theorem matchSpaces_cons {c : Char} (hc : isSpace c = false) (s : Str) :
    matchSpaces (' ' :: c :: s) = some (c :: s) := by
  have hspace : isSpace ' ' = true := by decide
  simp [matchSpaces, hspace, hc]

theorem matchMarks_append (style : HeaderStyle) (s : Str) :
    matchMarks (style.marks ++ ' ' :: s) = some (' ' :: s) := by
  cases style <;> simp [matchMarks, matchText, HeaderStyle.marks]

theorem matchMarks_marks (style : HeaderStyle) : matchMarks style.marks = some [] := by
  cases style <;> rfl

theorem matchDigits_decimal {c : Char} (hc : isDecimal c = false) (n : Nat) (s : Str) :
    matchDigits (decimal n ++ c :: s) = some (decimal n, c :: s) := by
  have hstop : StopsAt isDecimal (c :: s) := stopsAt_cons.mpr hc
  have hall : ∀ d ∈ decimal n, isDecimal d = true := fun d hd =>
    isDecimal_of_isDigit (isDigit_of_mem_decimal hd)
  rw [matchDigits, hstop.takeWhile_append hall, hstop.dropWhile_append hall,
    if_neg (by simp [decimal_ne_nil])]

theorem matchCount_decimal {c : Char} (hc : isDecimal c = false) (n : Nat) (s : Str) :
    matchCount (',' :: (decimal n ++ c :: s)) = (some (decimal n), c :: s) := by
  rw [matchCount, matchText_cons, Option.bind_some, matchDigits_decimal hc]

theorem parseHunkHeader_render (style : HeaderStyle) (hunk : Hunk) :
    parseHunkHeader (renderHunkHeader style hunk) = .ok { hunk with lines := [] } := by
  have hmatch : matchHunkHeader (renderHunkHeader style hunk) =
      some (decimal hunk.oldStart, some (decimal hunk.oldCount), decimal hunk.newStart,
        some (decimal hunk.newCount)) := by
    obtain ⟨middle, hhead, -⟩ := exists_marks_eq style
    have hspaces : matchSpaces (' ' :: style.marks) = some style.marks := by
      rw [hhead]
      exact matchSpaces_cons (by decide) middle
    rw [renderHunkHeader]
    simp only [matchHunkHeader, List.append_assoc, List.cons_append, matchMarks_append,
      Option.bind_eq_bind, Option.bind_some, matchSpaces_cons (show isSpace '-' = false by decide),
      matchSpaces_cons (show isSpace '+' = false by decide), matchText_cons,
      matchDigits_decimal (show isDecimal ',' = false by decide),
      matchCount_decimal (show isDecimal ' ' = false by decide), hspaces, matchMarks_marks]
    rfl
  rw [parseHunkHeader, strip_renderHunkHeader, hmatch]
  simp only [Option.getD_some, intOf_decimal]

theorem isHunkHeader_render (style : HeaderStyle) (hunk : Hunk) :
    isHunkHeader (renderHunkHeader style hunk) = true := by
  rw [isHunkHeader, strip_renderHunkHeader, renderHunkHeader]
  simp only [List.append_assoc]
  cases style <;> simp [HeaderStyle.marks, List.isPrefixOf]

/-! ### The kinds of lines -/

theorem isEndMarker_cons {c : Char} (hspace : isSpace c = false) (hc : c ≠ '*') (s : Str) :
    isEndMarker (c :: s) = false := by
  obtain ⟨rest, hrest⟩ := strip_cons hspace s
  have hend : endPatch = '*' :: endPatch.tail := rfl
  rw [isEndMarker, hrest, beq_eq_false_iff_ne, hend]
  exact fun heq => hc (List.cons.inj heq).1

theorem isHunkHeader_cons {c : Char} (hspace : isSpace c = false) (hc : c ≠ '@') (s : Str) :
    isHunkHeader (c :: s) = false := by
  obtain ⟨rest, hrest⟩ := strip_cons hspace s
  rw [isHunkHeader, hrest]
  simp [List.isPrefixOf, hc.symm]

theorem isSectionLine_cons {c : Char} (hc : c ≠ '*') (s : Str) : isSectionLine (c :: s) = false := by
  simp [isSectionLine, sectionPrefix, List.isPrefixOf, hc.symm]

theorem isEndMarker_eq_false {line : Str} (hspace : lstrip line = line)
    (h : endPatch.isPrefixOf line = false) : isEndMarker line = false := by
  have hpre : strip line <+: line := by
    rw [strip, hspace]
    exact List.rdropWhile_prefix _ _
  rw [isEndMarker, beq_eq_false_iff_ne]
  intro heq
  rw [heq, ← List.isPrefixOf_iff_prefix, h] at hpre
  exact absurd hpre Bool.false_ne_true

theorem readsAsMarker_eq_false {line : Str} :
    readsAsMarker line = false ↔ isEndMarker line = false ∧ isHunkHeader line = false := by
  rw [readsAsMarker, Bool.or_eq_false_iff]

theorem readsAsMarker_eq_false_iff {hunk : Hunk} (h : hunk.Prefixed) :
    (∀ line ∈ hunk.lines, readsAsMarker line = false) ↔
      ∀ text, ' ' :: text ∈ hunk.lines → readsAsMarker (' ' :: text) = false := by
  refine ⟨fun hall text htext => hall _ htext, fun hcontext line hline => ?_⟩
  obtain ⟨mark, hmark, text, -, rfl⟩ := h line hline
  simp only [List.mem_cons, List.not_mem_nil, or_false] at hmark
  rcases hmark with rfl | rfl | rfl
  · exact hcontext text hline
  · rw [readsAsMarker, isEndMarker_cons (by decide) (by decide),
      isHunkHeader_cons (by decide) (by decide), Bool.or_false]
  · rw [readsAsMarker, isEndMarker_cons (by decide) (by decide),
      isHunkHeader_cons (by decide) (by decide), Bool.or_false]

theorem Hunk.Prefixed.inSection {hunk : Hunk} (h : hunk.Prefixed) :
    ∀ line ∈ hunk.lines, inSection line = true := by
  intro line hline
  obtain ⟨mark, hmark, text, -, rfl⟩ := h line hline
  simp only [List.mem_cons, List.not_mem_nil, or_false] at hmark
  rw [Patch.inSection, isSectionLine_cons (by rcases hmark with rfl | rfl | rfl <;> decide)]
  rfl

theorem header_eq_cons (style : HeaderStyle) (hunk : Hunk) :
    ∃ rest, renderHunkHeader style hunk = '@' :: rest := by
  obtain ⟨middle, hhead, -⟩ := exists_marks_eq style
  rw [renderHunkHeader, hhead]
  exact ⟨_, rfl⟩

theorem header_inSection (style : HeaderStyle) (hunk : Hunk) :
    inSection (renderHunkHeader style hunk) = true := by
  obtain ⟨rest, hrest⟩ := header_eq_cons style hunk
  rw [inSection, hrest, isSectionLine_cons (by decide)]
  rfl

theorem header_not_end (style : HeaderStyle) (hunk : Hunk) :
    isEndMarker (renderHunkHeader style hunk) = false := by
  obtain ⟨rest, hrest⟩ := header_eq_cons style hunk
  rw [hrest]
  exact isEndMarker_cons (by decide) (by decide) rest

def beforeEnd (lines : List Str) : List Str := lines.takeWhile fun line => !isEndMarker line

theorem beforeEnd_cons {line : Str} (h : isEndMarker line = false) (lines : List Str) :
    beforeEnd (line :: lines) = line :: beforeEnd lines := by
  rw [beforeEnd, List.takeWhile_cons_of_pos (by simp [h]), ← beforeEnd]

theorem beforeEnd_append {segment : List Str} (h : ∀ line ∈ segment, isEndMarker line = false)
    (lines : List Str) : beforeEnd (segment ++ lines) = segment ++ beforeEnd lines := by
  rw [beforeEnd, List.takeWhile_append_of_pos fun line hline => by simp [h line hline],
    ← beforeEnd]

/-! ### Reading the hunks of a section -/

theorem map_cons_eq_ok {ε α : Type} {x : Except ε (List α)} {first first' : α} {rest : List α} :
    x.map (first :: ·) = .ok (first' :: rest) ↔ first = first' ∧ x = .ok rest := by
  cases x <;> simp [Except.map]

theorem hunks_inSection (style : HeaderStyle) {hunks : List Hunk}
    (h : ∀ hunk ∈ hunks, hunk.Prefixed) :
    ∀ line ∈ hunks.flatMap (renderHunk style), inSection line = true := by
  intro line hline
  obtain ⟨hunk, hhunk, hmem⟩ := List.mem_flatMap.mp hline
  rcases List.mem_cons.mp hmem with rfl | hmem
  · exact header_inSection style hunk
  · exact (h hunk hhunk).inSection line hmem

theorem stopsAt_hunks (style : HeaderStyle) (hunks : List Hunk) :
    StopsAt isHunkLine (hunks.flatMap (renderHunk style)) := by
  cases hunks with
  | nil => simp
  | cons hunk hunks => simp [renderHunk, isHunkLine, isHunkHeader_render]

theorem parseHunks_header (style : HeaderStyle) (hunk : Hunk) (lines : List Str) :
    parseHunks (renderHunkHeader style hunk :: lines) =
      (parseHunks (lines.dropWhile isHunkLine)).map
        ({ hunk with lines := lines.takeWhile isHunkLine } :: ·) := by
  rw [parseHunks, if_pos (isHunkHeader_render style hunk), parseHunkHeader_render]
  rfl

theorem parseHunks_render_iff (style : HeaderStyle) {hunks : List Hunk}
    (h : ∀ hunk ∈ hunks, hunk.Prefixed) :
    parseHunks (beforeEnd (hunks.flatMap (renderHunk style))) = .ok hunks ↔
      ∀ hunk ∈ hunks, ∀ line ∈ hunk.lines, readsAsMarker line = false := by
  induction hunks with
  | nil => simp [beforeEnd, parseHunks]
  | cons hunk hunks ih =>
      have hhunk := h hunk List.mem_cons_self
      specialize ih fun other hother => h other (List.mem_cons_of_mem _ hother)
      rw [List.forall_mem_cons, List.flatMap_cons, renderHunk, List.cons_append,
        beforeEnd_cons (header_not_end style hunk), parseHunks_header, map_cons_eq_ok, ← ih]
      have hrest : StopsAt isHunkLine (beforeEnd (hunks.flatMap (renderHunk style))) :=
        (stopsAt_hunks style hunks).takeWhile _
      constructor
      · rintro ⟨hhead, hother⟩
        have hlines := congrArg Hunk.lines hhead
        dsimp only at hlines
        have hclean : ∀ line ∈ hunk.lines,
            isEndMarker line = false ∧ isHunkLine line = true := by
          intro line hline
          rw [← hlines] at hline
          have hcut := List.mem_takeWhile_imp ((List.takeWhile_sublist _).mem hline)
          exact ⟨by simpa using hcut, List.mem_takeWhile_imp hline⟩
        refine ⟨fun line hline => readsAsMarker_eq_false.mpr ?_, ?_⟩
        · have htaken := (hclean line hline).2
          simp only [isHunkLine, Bool.and_eq_true, Bool.not_eq_true'] at htaken
          exact ⟨(hclean line hline).1, htaken.1⟩
        · rwa [beforeEnd_append fun line hline => (hclean line hline).1,
            hrest.dropWhile_append fun line hline => (hclean line hline).2] at hother
      · rintro ⟨hclean, hother⟩
        have hend : ∀ line ∈ hunk.lines, isEndMarker line = false := fun line hline =>
          (readsAsMarker_eq_false.mp (hclean line hline)).1
        have hline : ∀ line ∈ hunk.lines, isHunkLine line = true := by
          intro line hline
          have hsection := hhunk.inSection line hline
          rw [inSection] at hsection
          rw [isHunkLine, (readsAsMarker_eq_false.mp (hclean line hline)).2, hsection]
          rfl
        rw [beforeEnd_append hend, hrest.dropWhile_append hline, hrest.takeWhile_append hline]
        exact ⟨rfl, hother⟩

/-! ### Reading the sections -/

theorem addFile_section (path : Str) : isSectionLine (addFilePrefix ++ path) = true := rfl

theorem updateFile_section (path : Str) : isSectionLine (updateFilePrefix ++ path) = true := rfl

theorem deleteFile_section (path : Str) : isSectionLine (deleteFilePrefix ++ path) = true := rfl

theorem addFile_not_end (path : Str) : isEndMarker (addFilePrefix ++ path) = false :=
  isEndMarker_eq_false rfl rfl

theorem updateFile_not_end (path : Str) : isEndMarker (updateFilePrefix ++ path) = false :=
  isEndMarker_eq_false rfl rfl

theorem deleteFile_not_end (path : Str) : isEndMarker (deleteFilePrefix ++ path) = false :=
  isEndMarker_eq_false rfl rfl

theorem parseBody_addFile {path : Str} (hpath : PlainPath path) (lines : List Str) :
    parseBody ((addFilePrefix ++ path) :: lines) =
      (parseBody (lines.dropWhile inSection)).map
        (.addFile path (unlines ((lines.takeWhile inSection).filterMap addedLine)) :: ·) := by
  rw [parseBody, if_pos (List.isPrefixOf_iff_prefix.mpr (List.prefix_append _ _)), List.drop_left,
    hpath.stripped]
  rfl

theorem parseBody_updateFile_ok {path : Str} (hpath : PlainPath path) {lines : List Str}
    {op : PatchOp} {ops : List PatchOp} :
    parseBody ((updateFilePrefix ++ path) :: lines) = .ok (op :: ops) ↔
      ∃ hunks, hunks ≠ [] ∧ parseHunks (lines.takeWhile inSection) = .ok hunks ∧
        op = .updateFile path hunks ∧ parseBody (lines.dropWhile inSection) = .ok ops := by
  have hadd : addFilePrefix.isPrefixOf (updateFilePrefix ++ path) = false := rfl
  rw [parseBody, hadd, if_neg Bool.false_ne_true,
    if_pos (List.isPrefixOf_iff_prefix.mpr (List.prefix_append _ _)), List.drop_left,
    hpath.stripped]
  cases hhunks : parseHunks (lines.takeWhile inSection) with
  | error e => simp [bind, Except.bind]
  | ok hunks =>
      cases hunks with
      | nil => simp [bind, Except.bind, throw, throwThe, MonadExceptOf.throw]
      | cons hunk hunks =>
          cases hops : parseBody (lines.dropWhile inSection) with
          | error e => simp [bind, Except.bind]
          | ok rest => simp [bind, Except.bind, pure, Except.pure, eq_comm]

theorem parseBody_deleteFile {path : Str} (hpath : PlainPath path) (lines : List Str) :
    parseBody ((deleteFilePrefix ++ path) :: lines) =
      (parseBody lines).map (.deleteFile path :: ·) := by
  have hadd : addFilePrefix.isPrefixOf (deleteFilePrefix ++ path) = false := rfl
  have hupdate : updateFilePrefix.isPrefixOf (deleteFilePrefix ++ path) = false := rfl
  rw [parseBody, hadd, hupdate, if_neg Bool.false_ne_true, if_neg Bool.false_ne_true,
    if_pos (List.isPrefixOf_iff_prefix.mpr (List.prefix_append _ _)), List.drop_left,
    hpath.stripped]
  rfl

theorem renderBody_cons (style : HeaderStyle) (op : PatchOp) (ops : List PatchOp) :
    renderBody style (op :: ops) = renderOp style op ++ renderBody style ops := List.flatMap_cons

theorem stopsAt_body (style : HeaderStyle) (ops : List PatchOp) :
    StopsAt inSection (renderBody style ops) := by
  cases ops with
  | nil => simp [renderBody]
  | cons op ops =>
      rw [renderBody_cons]
      cases op with
      | addFile path content => exact stopsAt_cons.mpr (by rw [inSection, addFile_section]; rfl)
      | updateFile path hunks => exact stopsAt_cons.mpr (by rw [inSection, updateFile_section]; rfl)
      | deleteFile path => exact stopsAt_cons.mpr (by rw [inSection, deleteFile_section]; rfl)

/-- The `+` lines of an add section carry the content, whatever it says. -/
theorem added_content (content : Str) :
    unlines (((content.splitOn '\n').map ('+' :: ·)).filterMap addedLine) = content := by
  have hadded : ((content.splitOn '\n').map ('+' :: ·)).filterMap addedLine =
      content.splitOn '\n' := by
    induction content.splitOn '\n' with
    | nil => rfl
    | cons line lines ih =>
        rw [List.map_cons, List.filterMap_cons, ih]
        rfl
  rw [hadded, unlines, List.intercalate_splitOn]

theorem parseBody_render_iff (style : HeaderStyle) {ops : List PatchOp}
    (h : ∀ op ∈ ops, op.Renderable) :
    parseBody (beforeEnd (renderBody style ops)) = .ok ops ↔
      ∀ op ∈ ops, ∀ hunk ∈ op.hunks, ∀ line ∈ hunk.lines, readsAsMarker line = false := by
  induction ops with
  | nil => simp [renderBody, beforeEnd, parseBody]
  | cons op ops ih =>
      have hop := h op List.mem_cons_self
      specialize ih fun other hother => h other (List.mem_cons_of_mem _ hother)
      have hstop := stopsAt_body style ops
      rw [List.forall_mem_cons, ← ih]
      cases op with
      | addFile path content =>
          have hplus : ∀ line ∈ (content.splitOn '\n').map ('+' :: ·),
              isEndMarker line = false ∧ inSection line = true := by
            intro line hline
            obtain ⟨text, -, rfl⟩ := List.mem_map.mp hline
            exact ⟨isEndMarker_cons (by decide) (by decide) text,
              by rw [inSection, isSectionLine_cons (by decide)]; rfl⟩
          have hrest := hstop.takeWhile fun line => !isEndMarker line
          rw [← beforeEnd] at hrest
          rw [renderBody_cons, renderOp, List.cons_append, beforeEnd_cons (addFile_not_end path),
            beforeEnd_append fun line hline => (hplus line hline).1, parseBody_addFile hop.1,
            hrest.takeWhile_append fun line hline => (hplus line hline).2,
            hrest.dropWhile_append fun line hline => (hplus line hline).2, added_content,
            map_cons_eq_ok]
          simp [PatchOp.hunks]
      | updateFile path hunks =>
          obtain ⟨hpath, hne, hprefixed⟩ := hop
          have hsection := hunks_inSection style hprefixed
          have htake : (beforeEnd (hunks.flatMap (renderHunk style) ++ renderBody style ops)).takeWhile
              inSection = beforeEnd (hunks.flatMap (renderHunk style)) :=
            hstop.takeWhile_takeWhile_append _ hsection
          -- a section that came back whole was not cut by the end marker
          have hdrop : parseHunks (beforeEnd (hunks.flatMap (renderHunk style))) = .ok hunks →
              (beforeEnd (hunks.flatMap (renderHunk style) ++ renderBody style ops)).dropWhile
                inSection = beforeEnd (renderBody style ops) := by
            intro hparse
            have hclean := (parseHunks_render_iff style hprefixed).mp hparse
            have hend : ∀ line ∈ hunks.flatMap (renderHunk style), isEndMarker line = false := by
              intro line hline
              obtain ⟨hunk, hhunk, hmem⟩ := List.mem_flatMap.mp hline
              rcases List.mem_cons.mp hmem with rfl | hmem
              · exact header_not_end style hunk
              · exact (readsAsMarker_eq_false.mp (hclean hunk hhunk line hmem)).1
            rw [beforeEnd_append hend]
            exact (hstop.takeWhile fun line => !isEndMarker line).dropWhile_append hsection
          rw [PatchOp.hunks, ← parseHunks_render_iff style hprefixed, renderBody_cons, renderOp,
            List.cons_append, beforeEnd_cons (updateFile_not_end path),
            parseBody_updateFile_ok hpath, htake]
          constructor
          · rintro ⟨read, -, hread, hop, hops⟩
            obtain ⟨-, rfl⟩ := PatchOp.updateFile.inj hop
            exact ⟨hread, hdrop hread ▸ hops⟩
          · rintro ⟨hread, hops⟩
            exact ⟨hunks, hne, hread, rfl, (hdrop hread).symm ▸ hops⟩
      | deleteFile path =>
          rw [renderBody_cons, renderOp, List.singleton_append,
            beforeEnd_cons (deleteFile_not_end path), parseBody_deleteFile hop, map_cons_eq_ok]
          simp [PatchOp.hunks]

/-! ### Reading the whole text -/

theorem singleLine_header (style : HeaderStyle) (hunk : Hunk) :
    SingleLine (renderHunkHeader style hunk) := by
  have hmarks : SingleLine style.marks := by cases style <;> decide
  have hnumber := singleLine_decimal
  have hspace : isLineBoundary ' ' = false := by decide
  have hminus : isLineBoundary '-' = false := by decide
  have hcomma : isLineBoundary ',' = false := by decide
  have hplus : isLineBoundary '+' = false := by decide
  simp [renderHunkHeader, hmarks, hnumber, hspace, hminus, hcomma, hplus]

theorem Hunk.Prefixed.singleLine {hunk : Hunk} (h : hunk.Prefixed) :
    ∀ line ∈ hunk.lines, SingleLine line := by
  intro line hline
  obtain ⟨mark, hmark, text, htext, rfl⟩ := h line hline
  simp only [List.mem_cons, List.not_mem_nil, or_false] at hmark
  exact singleLine_cons.mpr ⟨by rcases hmark with rfl | rfl | rfl <;> decide, htext⟩

theorem PatchOp.Renderable.singleLine (style : HeaderStyle) {op : PatchOp} (h : op.Renderable) :
    ∀ line ∈ renderOp style op, SingleLine line := by
  intro line hline
  cases op with
  | addFile path content =>
      obtain ⟨hpath, lines, hlines, rfl⟩ := h
      rcases List.mem_cons.mp hline with rfl | hline
      · exact singleLine_append.mpr ⟨by decide, hpath.singleLine⟩
      · obtain ⟨text, htext, rfl⟩ := List.mem_map.mp hline
        exact singleLine_cons.mpr ⟨by decide, singleLine_of_mem_splitOn hlines htext⟩
  | updateFile path hunks =>
      obtain ⟨hpath, -, hprefixed⟩ := h
      rcases List.mem_cons.mp hline with rfl | hline
      · exact singleLine_append.mpr ⟨by decide, hpath.singleLine⟩
      · obtain ⟨hunk, hhunk, hmem⟩ := List.mem_flatMap.mp hline
        rcases List.mem_cons.mp hmem with rfl | hmem
        · exact singleLine_header style hunk
        · exact (hprefixed hunk hhunk).singleLine line hmem
  | deleteFile path =>
      have hpath : PlainPath path := h
      rw [renderOp, List.mem_singleton] at hline
      exact hline ▸ singleLine_append.mpr ⟨by decide, hpath.singleLine⟩

theorem splitlines_renderPatch (style : HeaderStyle) {ops : List PatchOp}
    (h : ∀ op ∈ ops, op.Renderable) :
    splitlines (renderPatch style ops) = beginPatch :: renderBody style ops ++ [endPatch] := by
  refine splitlines_unlines ?_ (by decide) (by decide)
  intro line hline
  rcases List.mem_cons.mp hline with rfl | hline
  · decide
  · obtain ⟨op, hop, hmem⟩ := List.mem_flatMap.mp hline
    exact (h op hop).singleLine style line hmem

theorem parsePatch_renderPatch (style : HeaderStyle) {ops : List PatchOp} (hne : ops ≠ [])
    (h : ∀ op ∈ ops, op.Renderable) :
    parsePatch (renderPatch style ops) = .ok ops ↔
      parseBody (beforeEnd (renderBody style ops)) = .ok ops := by
  have hbegin : isBeginMarker beginPatch = true := by decide
  have hstart : isEndMarker beginPatch = false := by decide
  have hend : isEndMarker endPatch = true := by decide
  have hany : (beginPatch :: renderBody style ops ++ [endPatch]).any isEndMarker = true :=
    List.any_eq_true.mpr ⟨endPatch, by simp, hend⟩
  have hbody : ((beginPatch :: renderBody style ops ++ [endPatch]).take
      ((beginPatch :: renderBody style ops ++ [endPatch]).findIdx isEndMarker)).drop (0 + 1) =
        beforeEnd (renderBody style ops) := by
    have hstop : StopsAt (fun line => !isEndMarker line) [endPatch] :=
      stopsAt_cons.mpr (by rw [hend]; rfl)
    rw [take_findIdx_eq_takeWhile, List.cons_append, ← beforeEnd, beforeEnd_cons hstart,
      List.drop_one, List.tail_cons, beforeEnd, hstop.takeWhile_append_left, ← beforeEnd]
  have hfind : (beginPatch :: renderBody style ops ++ [endPatch]).findIdx isBeginMarker = 0 := by
    rw [List.cons_append, List.findIdx_cons, hbegin]
    rfl
  have hanyBegin : (beginPatch :: renderBody style ops ++ [endPatch]).any isBeginMarker = true :=
    List.any_eq_true.mpr ⟨beginPatch, by simp, hbegin⟩
  rw [parsePatch, splitlines_renderPatch style h]
  simp only [hany, hanyBegin, hfind, hbody]
  cases hparse : parseBody (beforeEnd (renderBody style ops)) with
  | error e => simp [bind, Except.bind]
  | ok parsed =>
      cases parsed with
      | nil => simp [bind, Except.bind, throw, throwThe, MonadExceptOf.throw, hne.symm]
      | cons op rest => simp [bind, Except.bind, pure, Except.pure]

/-- The operations come back from their text if and only if no context line, stripped of its
prefix and of surrounding whitespace, reads like the end marker or like a hunk header. -/
theorem parsePatch_renderPatch_iff (style : HeaderStyle) {ops : List PatchOp} (hne : ops ≠ [])
    (hops : ∀ op ∈ ops, op.Renderable) :
    parsePatch (renderPatch style ops) = .ok ops ↔
      ∀ op ∈ ops, ∀ hunk ∈ op.hunks, ∀ text, ' ' :: text ∈ hunk.lines →
        readsAsMarker (' ' :: text) = false := by
  rw [parsePatch_renderPatch style hne hops, parseBody_render_iff style hops]
  refine forall₂_congr fun op hop => forall₂_congr fun hunk hhunk => readsAsMarker_eq_false_iff ?_
  cases op with
  | updateFile path hunks => exact (hops _ hop).2.2 hunk hhunk
  | _ => simp [PatchOp.hunks] at hhunk

def notesPatch : List PatchOp :=
  [.addFile "notes.md".toList (unlines ["*** End Patch".toList, "@@ -1 +1 @@".toList]),
   .updateFile "notes.md".toList
     [{ oldStart := 1
        oldCount := 2
        newStart := 1
        newCount := 2
        lines := [" title".toList, "-*** End Patch".toList, "+@@ -3 +3 @@".toList] }],
   .deleteFile "old.md".toList]

theorem notesPatch_renderable : ∀ op ∈ notesPatch, op.Renderable := by
  have hnotes : PlainPath "notes.md".toList := ⟨by decide, by decide, by decide⟩
  have hold : PlainPath "old.md".toList := ⟨by decide, by decide, by decide⟩
  simp only [notesPatch, List.forall_mem_cons, List.not_mem_nil, false_implies, implies_true,
    and_true]
  refine ⟨⟨hnotes, _, by decide, rfl⟩, ⟨hnotes, List.cons_ne_nil _ _, ?_⟩, hold⟩
  simp only [List.forall_mem_cons, List.not_mem_nil, false_implies, implies_true, and_true,
    Hunk.Prefixed]
  exact ⟨⟨' ', by simp, "title".toList, by decide, rfl⟩,
    ⟨'-', by simp, "*** End Patch".toList, by decide, rfl⟩,
    ⟨'+', by simp, "@@ -3 +3 @@".toList, by decide, rfl⟩⟩

theorem notesPatch_round_trip :
    parsePatch (renderPatch .unified notesPatch) = .ok notesPatch := by
  have hlines : ∀ op ∈ notesPatch, ∀ hunk ∈ op.hunks, ∀ line ∈ hunk.lines,
      readsAsMarker line = false := by decide
  exact (parsePatch_renderPatch_iff .unified (List.cons_ne_nil _ _) notesPatch_renderable).mpr
    fun op hop hunk hhunk _ htext => hlines op hop hunk hhunk _ htext

/-- An update with the context line `*** End Patch`. -/
def quotedEndPatch : List PatchOp :=
  [.updateFile "notes.md".toList
     [{ oldStart := 1
        oldCount := 2
        newStart := 1
        newCount := 1
        lines := [" *** End Patch".toList, "-title".toList] }]]

/-- The context line ends the patch, and the deletion behind it is lost without an error. -/
theorem quoted_end_marker_cuts_hunk :
    ¬ ∀ style ops, ops ≠ [] → (∀ op ∈ ops, PatchOp.Renderable op) →
      parsePatch (renderPatch style ops) = .ok ops := by
  intro hall
  have hrenderable : ∀ op ∈ quotedEndPatch, op.Renderable := by
    simp only [quotedEndPatch, List.forall_mem_singleton, PatchOp.Renderable, Hunk.Prefixed]
    refine ⟨⟨by decide, by decide, by decide⟩, List.cons_ne_nil _ _, ?_⟩
    simp only [List.forall_mem_cons, List.not_mem_nil, false_implies, implies_true, and_true]
    exact ⟨⟨' ', by simp, "*** End Patch".toList, by decide, rfl⟩,
      ⟨'-', by simp, "title".toList, by decide, rfl⟩⟩
  exact absurd (hall .unified quotedEndPatch (List.cons_ne_nil _ _) hrenderable) (by decide +kernel)

end OpenStarry.Patch
