import OpenStarry.Lib.Decimal
import OpenStarry.Lib.Outcome
import OpenStarry.Lib.Splice

/-!
# Patch operations

The operations of the `apply_patch` tool, and the errors its parser raises.
-/

namespace OpenStarry.Patch

open Lib

structure Hunk where
  /-- One-based line of the old file. -/
  oldStart : Nat
  oldCount : Nat
  newStart : Nat
  newCount : Nat
  /-- Each line keeps its `+`, `-` or space prefix. -/
  lines : List Str
  deriving DecidableEq, Repr

inductive PatchOp where
  /-- The final content, its `+` prefixes already stripped. -/
  | addFile (path content : Str)
  | updateFile (path : Str) (hunks : List Hunk)
  | deleteFile (path : Str)
  deriving DecidableEq, Repr

namespace PatchOp

def path : PatchOp → Str
  | .addFile path _ => path
  | .updateFile path _ => path
  | .deleteFile path => path

def hunks : PatchOp → List Hunk
  | .updateFile _ hunks => hunks
  | _ => []

end PatchOp

/-- The reasons for which the parser rejects a patch text. -/
inductive ParseError where
  | missingBegin
  | missingEnd
  | noHunkHeaders (path : Str)
  | invalidHunkHeader
  | noOperations
  deriving DecidableEq, Repr

/-- The text of the raised error; `repr` quotes a path. -/
def ParseError.text (repr : Str → String) : ParseError → String
  | .missingBegin =>
      "apply_patch needs a patch beginning with '*** Begin Patch'. " ++
        "Retry with the exact Begin/End Patch wrapper."
  | .missingEnd =>
      "apply_patch needs a patch ending with '*** End Patch'. " ++
        "Retry with the exact Begin/End Patch wrapper."
  | .noHunkHeaders path =>
      "Update File patch for " ++ repr path ++ " did not contain any hunk headers. " ++
        "Use a standard unified hunk like '@@ -1,1 +1,1 @@' or " ++
        "OpenStarry Code's '@@@ -1,1 +1,1 @@@' format."
  | .invalidHunkHeader =>
      "Invalid apply_patch hunk header. Use '@@ -old,count +new,count @@' " ++
        "or '@@@ -old,count +new,count @@@'."
  | .noOperations =>
      "apply_patch did not find any file operations. Include at least one " ++
        "'*** Add File:', '*** Update File:', or '*** Delete File:' section."

end OpenStarry.Patch

/-!
# Applying hunks

The update of a file's content. The hunks are applied from the last start line to the first; each
one is checked against the lines from its start on and then spliced in for as many lines as its
header counts.
-/

namespace OpenStarry.Patch

open Lib Lib.Text

inductive HunkError where
  /-- A context or deleted line lies behind the end of the file. -/
  | exceedsFile (line : Int)
  | contextMismatch (line : Int) (expected actual : Str)
  | indexError
  deriving DecidableEq, Repr

/-- The text of the raised error; `repr` quotes a line. -/
def HunkError.text (repr : Str → String) : HunkError → String
  | .exceedsFile line =>
      "apply_patch hunk context/delete exceeds file length at " ++
        "line " ++ toString line ++ ". Read the current file content and retry " ++
        "with hunk line numbers and context that match the file."
  | .contextMismatch line expected actual =>
      "apply_patch context mismatch at line " ++ toString line ++ ": " ++
        "expected " ++ repr (expected.rdropWhile (· == '\n')) ++ ", " ++
        "got " ++ repr (actual.rdropWhile (· == '\n')) ++ ". Read the current file " ++
        "content and retry with exact surrounding context."
  | .indexError => "list index out of range"

def trimmedLine (line : Str) : Str :=
  (line.rdropWhile fun c => c == '\r' || c == '\n').rdropWhile fun c => c == ' ' || c == '\t'

def matchLine (actual expected : Str) : Bool :=
  actual == expected || trimmedLine actual == trimmedLine expected

/-- The check of the context and deleted lines, from position `checkPos` on. -/
def verifyLines (lines : List Str) : Int → List Str → Except HunkError Unit
  | _, [] => .ok ()
  | checkPos, [] :: rest => verifyLines lines checkPos rest
  | checkPos, (mark :: content) :: rest =>
      if mark = ' ' ∨ mark = '-' then
        if lines.length ≤ checkPos then .error (.exceedsFile (checkPos + 1))
        else
          match item? lines checkPos with
          | none => .error .indexError
          | some actual =>
              if matchLine actual content then verifyLines lines (checkPos + 1) rest
              else .error (.contextMismatch (checkPos + 1) content actual)
      else verifyLines lines checkPos rest

def addedText (content : Str) : Str :=
  if ['\n'].isSuffixOf content then content else content ++ ['\n']

/-- The lines that take the place of the old ones, read from position `srcPos` on. -/
def newLines (lines : List Str) : Int → List Str → Except HunkError (List Str)
  | _, [] => .ok []
  | srcPos, [] :: rest => newLines lines srcPos rest
  | srcPos, (mark :: content) :: rest =>
      if mark = ' ' then
        match item? lines srcPos with
        | none => .error .indexError
        | some line => (newLines lines (srcPos + 1) rest).map (line :: ·)
      else if mark = '-' then newLines lines (srcPos + 1) rest
      else if mark = '+' then (newLines lines srcPos rest).map (addedText content :: ·)
      else newLines lines srcPos rest

def Hunk.pos (hunk : Hunk) : Int := hunk.oldStart - 1

def applyHunk (fileLines : List Str) (hunk : Hunk) : Except HunkError (List Str) := do
  verifyLines fileLines hunk.pos hunk.lines
  let new ← newLines fileLines hunk.pos hunk.lines
  return sliceTo fileLines hunk.pos ++ new ++ sliceFrom fileLines (hunk.pos + hunk.oldCount)

def applyHunks : List Str → List Hunk → Except HunkError (List Str)
  | lines, [] => .ok lines
  | lines, hunk :: rest => do
      let lines ← applyHunk lines hunk
      applyHunks lines rest

def applicationOrder (hunks : List Hunk) : List Hunk :=
  hunks.insertionSort fun first second => second.oldStart ≤ first.oldStart

def applyUpdateContent (content : Str) (hunks : List Hunk) : Except HunkError Str :=
  (applyHunks (splitlinesKeepends content) (applicationOrder hunks)).map List.flatten

end OpenStarry.Patch

/-!
# The patch parser

The text is cut into lines, trimmed to what stands between the two markers and read section by
section. Markers and hunk headers are recognised on the stripped line, section lines on the line
as it is.
-/

namespace OpenStarry.Patch

open Lib Lib.Text

def beginPatch : Str := "*** Begin Patch".toList
def endPatch : Str := "*** End Patch".toList
def sectionPrefix : Str := "*** ".toList
def addFilePrefix : Str := "*** Add File: ".toList
def updateFilePrefix : Str := "*** Update File: ".toList
def deleteFilePrefix : Str := "*** Delete File: ".toList

def isBeginMarker (line : Str) : Bool := strip line == beginPatch

def isEndMarker (line : Str) : Bool := strip line == endPatch

def isSectionLine (line : Str) : Bool := sectionPrefix.isPrefixOf line

def isHunkHeader (line : Str) : Bool :=
  "@@ ".toList.isPrefixOf (strip line) || "@@@ ".toList.isPrefixOf (strip line)

/-! ### Hunk headers

The pattern is `@@@?\s+-(\d+)(?:,(\d+))?\s+\+(\d+)(?:,(\d+))?\s+@@@?`. What follows each repetition
cannot start inside it, so taking the longest match at each place needs no backtracking. -/

/-- The literal `text`. -/
def matchText (text s : Str) : Option Str :=
  if text.isPrefixOf s then some (s.drop text.length) else none

/-- `@@@?`. -/
def matchMarks (s : Str) : Option Str :=
  (matchText "@@@".toList s).or (matchText "@@".toList s)

/-- `\s+`. -/
def matchSpaces (s : Str) : Option Str :=
  if (s.takeWhile isSpace).isEmpty then none else some (s.dropWhile isSpace)

/-- `(\d+)`: the group and what follows it. -/
def matchDigits (s : Str) : Option (Str × Str) :=
  if (s.takeWhile isDecimal).isEmpty then none
  else some (s.takeWhile isDecimal, s.dropWhile isDecimal)

/-- `(?:,(\d+))?`. -/
def matchCount (s : Str) : Option Str × Str :=
  match (matchText [','] s).bind matchDigits with
  | some (count, rest) => (some count, rest)
  | none => (none, s)

/-- The four groups of the header pattern, matched at the start of `s`. -/
def matchHunkHeader (s : Str) : Option (Str × Option Str × Str × Option Str) := do
  let s ← matchMarks s
  let s ← matchSpaces s
  let s ← matchText ['-'] s
  let (oldStart, s) ← matchDigits s
  let (oldCount, s) := matchCount s
  let s ← matchSpaces s
  let s ← matchText ['+'] s
  let (newStart, s) ← matchDigits s
  let (newCount, s) := matchCount s
  let s ← matchSpaces s
  let _ ← matchMarks s
  return (oldStart, oldCount, newStart, newCount)

def parseHunkHeader (header : Str) : Except ParseError Hunk :=
  match matchHunkHeader (strip header) with
  | none => .error .invalidHunkHeader
  | some (oldStart, oldCount, newStart, newCount) =>
      .ok
        { oldStart := intOf oldStart
          oldCount := intOf (oldCount.getD ['1'])
          newStart := intOf newStart
          newCount := intOf (newCount.getD ['1'])
          lines := [] }

/-! ### Sections

Each loop of the parser takes the lines from the cursor on and leaves the cursor behind the last
line it took. -/

def isHunkLine (line : Str) : Bool := !isHunkHeader line && !isSectionLine line

def inSection (line : Str) : Bool := !isSectionLine line

/-- The hunks of an update section; lines before the first header are skipped. -/
def parseHunks : List Str → Except ParseError (List Hunk)
  | [] => .ok []
  | line :: rest =>
      if isHunkHeader line then do
        let hunk ← parseHunkHeader line
        let hunks ← parseHunks (rest.dropWhile isHunkLine)
        return { hunk with lines := rest.takeWhile isHunkLine } :: hunks
      else parseHunks rest
termination_by body => body.length
decreasing_by
  all_goals simp only [List.length_cons]
  · exact Nat.lt_succ_of_le (List.length_dropWhile_le _ _)
  · exact Nat.lt_succ_self _

def addedLine : Str → Option Str
  | '+' :: text => some text
  | _ => none

/-- The operations of the lines between the markers. -/
def parseBody : List Str → Except ParseError (List PatchOp)
  | [] => .ok []
  | line :: rest =>
      if addFilePrefix.isPrefixOf line then do
        let path := strip (line.drop addFilePrefix.length)
        let content := unlines ((rest.takeWhile inSection).filterMap addedLine)
        let ops ← parseBody (rest.dropWhile inSection)
        return .addFile path content :: ops
      else if updateFilePrefix.isPrefixOf line then do
        let path := strip (line.drop updateFilePrefix.length)
        let hunks ← parseHunks (rest.takeWhile inSection)
        if hunks.isEmpty then throw (.noHunkHeaders path)
        let ops ← parseBody (rest.dropWhile inSection)
        return .updateFile path hunks :: ops
      else if deleteFilePrefix.isPrefixOf line then do
        let path := strip (line.drop deleteFilePrefix.length)
        let ops ← parseBody rest
        return .deleteFile path :: ops
      else parseBody rest
termination_by body => body.length
decreasing_by
  all_goals simp only [List.length_cons]
  · exact Nat.lt_succ_of_le (List.length_dropWhile_le _ _)
  · exact Nat.lt_succ_of_le (List.length_dropWhile_le _ _)
  · exact Nat.lt_succ_self _
  · exact Nat.lt_succ_self _

def parsePatch (patchText : Str) : Except ParseError (List PatchOp) := do
  let lines := splitlines patchText
  unless lines.any isBeginMarker do throw .missingBegin
  unless lines.any isEndMarker do throw .missingEnd
  let startIdx := lines.findIdx isBeginMarker
  let endIdx := lines.findIdx isEndMarker
  let ops ← parseBody ((lines.take endIdx).drop (startIdx + 1))
  if ops.isEmpty then throw .noOperations
  return ops

/-! ### Where the parsed lines come from -/

theorem parseHunks_lines {body : List Str} {hunks : List Hunk} (h : parseHunks body = .ok hunks) :
    ∀ hunk ∈ hunks, ∀ line ∈ hunk.lines, line ∈ body := by
  fun_induction parseHunks body generalizing hunks with
  | case1 =>
      obtain rfl := Except.ok.inj h
      simp
  | case2 line rest hheader ih =>
      obtain ⟨first, -, h⟩ := bind_eq_ok.mp h
      obtain ⟨others, hothers, h⟩ := bind_eq_ok.mp h
      obtain rfl := pure_eq_ok.mp h
      refine List.forall_mem_cons.mpr ⟨fun line hline => ?_, fun hunk hhunk line hline => ?_⟩
      · exact List.mem_cons_of_mem _ ((List.takeWhile_sublist _).mem hline)
      · exact List.mem_cons_of_mem _ ((List.dropWhile_sublist _).mem (ih hothers hunk hhunk line hline))
  | case3 line rest hheader ih =>
      exact fun hunk hhunk line hline => List.mem_cons_of_mem _ (ih h hunk hhunk line hline)

/-- The texts of the operation are cut from the lines of `body`. -/
def PatchOp.MadeFrom (body : List Str) : PatchOp → Prop
  | .addFile _ content => ∃ lines, (∀ line ∈ lines, '+' :: line ∈ body) ∧ content = unlines lines
  | .updateFile _ hunks => ∀ hunk ∈ hunks, ∀ line ∈ hunk.lines, line ∈ body
  | .deleteFile _ => True

theorem PatchOp.MadeFrom.mono {body body' : List Str} (hsub : ∀ line ∈ body, line ∈ body')
    {op : PatchOp} (h : op.MadeFrom body) : op.MadeFrom body' := by
  cases op with
  | addFile path content =>
      obtain ⟨lines, hlines, hcontent⟩ := h
      exact ⟨lines, fun line hline => hsub _ (hlines line hline), hcontent⟩
  | updateFile path hunks => exact fun hunk hhunk line hline => hsub _ (h hunk hhunk line hline)
  | deleteFile path => trivial

theorem addedLine_eq_some {raw line : Str} (h : addedLine raw = some line) : raw = '+' :: line := by
  unfold addedLine at h
  split at h
  · rw [Option.some.inj h]
  · simp at h

theorem parseBody_madeFrom {body : List Str} {ops : List PatchOp} (h : parseBody body = .ok ops) :
    ∀ op ∈ ops, op.MadeFrom body := by
  fun_induction parseBody body generalizing ops with
  | case1 =>
      obtain rfl := Except.ok.inj h
      simp
  | case2 line rest hadd path content =>
      rename_i ih
      obtain ⟨others, hothers, h⟩ := bind_eq_ok.mp h
      obtain rfl := pure_eq_ok.mp h
      refine List.forall_mem_cons.mpr ⟨⟨_, fun added hadded => ?_, rfl⟩, fun op hop =>
        (ih hothers op hop).mono fun l hl => ?_⟩
      · obtain ⟨raw, hraw, htext⟩ := List.mem_filterMap.mp hadded
        rw [← addedLine_eq_some htext]
        exact List.mem_cons_of_mem _ ((List.takeWhile_sublist _).mem hraw)
      · exact List.mem_cons_of_mem _ ((List.dropWhile_sublist _).mem hl)
  | case3 line rest hadd hupdate path =>
      rename_i ih
      obtain ⟨hunks, hhunks, h⟩ := bind_eq_ok.mp h
      split at h
      · obtain ⟨_, hthrow, -⟩ := bind_eq_ok.mp h
        exact absurd hthrow throw_ne_ok
      · obtain ⟨others, hothers, h⟩ := bind_eq_ok.mp h
        obtain rfl := pure_eq_ok.mp h
        refine List.forall_mem_cons.mpr ⟨fun hunk hhunk l hl => ?_, fun op hop =>
          (ih hothers op hop).mono fun l hl => ?_⟩
        · exact List.mem_cons_of_mem _
            ((List.takeWhile_sublist _).mem (parseHunks_lines hhunks hunk hhunk l hl))
        · exact List.mem_cons_of_mem _ ((List.dropWhile_sublist _).mem hl)
  | case4 line rest hadd hupdate hdelete path =>
      rename_i ih
      obtain ⟨others, hothers, h⟩ := bind_eq_ok.mp h
      obtain rfl := pure_eq_ok.mp h
      exact List.forall_mem_cons.mpr ⟨trivial, fun op hop =>
        (ih hothers op hop).mono fun l hl => List.mem_cons_of_mem _ hl⟩
  | case5 line rest hadd hupdate hdelete ih =>
      exact fun op hop => (ih h op hop).mono fun l hl => List.mem_cons_of_mem _ hl

theorem parsePatch_madeFrom {text : Str} {ops : List PatchOp} (h : parsePatch text = .ok ops) :
    ∀ op ∈ ops, op.MadeFrom (splitlines text) := by
  simp only [parsePatch] at h
  split at h
  · split at h
    · obtain ⟨parsed, hparsed, h⟩ := bind_eq_ok.mp h
      split at h
      · obtain ⟨_, hthrow, -⟩ := bind_eq_ok.mp h
        exact absurd hthrow throw_ne_ok
      · obtain rfl := pure_eq_ok.mp h
        exact fun op hop => (parseBody_madeFrom hparsed op hop).mono fun line hline =>
          List.mem_of_mem_take (List.mem_of_mem_drop hline)
    · obtain ⟨_, hthrow, -⟩ := bind_eq_ok.mp h
      exact absurd hthrow throw_ne_ok
  · obtain ⟨_, hthrow, -⟩ := bind_eq_ok.mp h
    exact absurd hthrow throw_ne_ok

theorem parsePatch_singleLine {text path : Str} {hunks : List Hunk} {ops : List PatchOp}
    (h : parsePatch text = .ok ops) (hop : .updateFile path hunks ∈ ops) :
    ∀ hunk ∈ hunks, ∀ line ∈ hunk.lines, SingleLine line := fun hunk hhunk line hline =>
  singleLine_of_mem_splitlines (parsePatch_madeFrom h _ hop hunk hhunk line hline)

end OpenStarry.Patch
