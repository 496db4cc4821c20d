import OpenStarry.Lib.Decimal
import OpenStarry.Lib.LinePieces
import OpenStarry.Lib.Outcome
import OpenStarry.Lib.Splice

/-!
# Edits by line numbers

A source file is read with its lines numbered, and an edit names the lines it replaces. The edits
of one call are checked together, in the order of the lines, and applied from the last one back.
-/

namespace OpenStarry.EditFile

open Lib Lib.Text

/-- The value of an argument, as far as the checks tell values apart. -/
inductive FieldValue where
  | int (n : Int)
  | bool (b : Bool)
  | str (s : Str)
  | other
  deriving DecidableEq, Repr

/-- What `edit.get` finds. -/
structure LineEdit where
  startLine : FieldValue
  endLine : FieldValue
  replacement : FieldValue
  deriving DecidableEq, Repr

inductive LineEditItem where
  | object (edit : LineEdit)
  | other
  deriving DecidableEq, Repr

inductive LineEditsArgument where
  | array (items : List LineEditItem)
  | other
  deriving DecidableEq, Repr

inductive SourceEditContractError where
  | rangeNotInteger
  | rangeNotPositive
  | rangeReversed
  | rangeBeyondEnd (startLine endLine lineCount : Nat)
  | replacementNotString (index : Nat)
  | editsEmpty
  | editNotObject (index : Nat)
  | editsOverlap
  deriving DecidableEq, Repr

namespace SourceEditContractError

def text : SourceEditContractError → Str
  | rangeNotInteger => "line ranges must use integer start_line and end_line".toList
  | rangeNotPositive => "line ranges must be positive".toList
  | rangeReversed => "start_line must be less than or equal to end_line".toList
  | rangeBeyondEnd startLine endLine lineCount =>
      "line range ".toList ++ decimal startLine ++ ['-'] ++ decimal endLine ++
        " exceeds file length ".toList ++ decimal lineCount
  | replacementNotString index =>
      "edits[".toList ++ decimal index ++ "].replacement must be a string".toList
  | editsEmpty => "edits must be a non-empty array".toList
  | editNotObject index => "edits[".toList ++ decimal index ++ "] must be an object".toList
  | editsOverlap => "edits must not overlap".toList

end SourceEditContractError

/-! ### Reading -/

/-- `_line_count`. -/
def lineCount (text : Str) : Nat := if text = [] then 0 else (splitlines text).length

/-- `_validate_line_range`. -/
def validateLineRange (startLine endLine : FieldValue) (lineCount : Nat) :
    Except SourceEditContractError (Nat × Nat) :=
  match startLine, endLine with
  | .int start, .int stop =>
      if start < 1 ∨ stop < 1 then .error .rangeNotPositive
      else if stop < start then .error .rangeReversed
      else if (lineCount : Int) < stop then
        .error (.rangeBeyondEnd start.toNat stop.toNat lineCount)
      else .ok (start.toNat, stop.toNat)
  | _, _ => .error .rangeNotInteger

/-- `DEFAULT_SOURCE_READ_LINES`. -/
def defaultSourceReadLines : Nat := 200

structure LineReceipt where
  path : Str
  revision : Str
  range : Nat × Nat
  totalLines : Nat
  lines : List (Nat × Str)
  deriving DecidableEq, Repr

/-- `build_line_receipt` of a file with a revision and a text. -/
def buildLineReceipt (revision text : Str) (startLine : Int) (endLine : Option Int)
    (displayPath : Str) : Except SourceEditContractError LineReceipt := do
  let lines := splitlines text
  let effectiveEndLine :=
    endLine.getD (min (lines.length : Int) (startLine + defaultSourceReadLines - 1))
  let range ← validateLineRange (.int startLine) (.int effectiveEndLine) lines.length
  return ⟨displayPath, revision, range, lines.length,
    ((lines.zipIdx.take range.2).drop (range.1 - 1)).map fun p => (p.2 + 1, p.1)⟩

/-! ### Editing -/

/-- `_replacement_lines`. -/
def replacementLines (replacement : FieldValue) (index : Nat) :
    Except SourceEditContractError (List Str) :=
  match replacement with
  | .str s => .ok (splitlinesKeepends s)
  | _ => .error (.replacementNotString index)

structure NormalizedEdit where
  start : Nat
  stop : Nat
  replacement : List Str
  deriving DecidableEq, Repr

def normalizedEdit (lineCount : Nat) (index : Nat) :
    LineEditItem → Except SourceEditContractError NormalizedEdit
  | .other => .error (.editNotObject index)
  | .object edit => do
      let range ← validateLineRange edit.startLine edit.endLine lineCount
      let replacement ← replacementLines edit.replacement index
      return ⟨range.1, range.2, replacement⟩

/-- `sorted(normalized, key=lambda item: item[0])`. -/
def sortEdits (edits : List NormalizedEdit) : List NormalizedEdit :=
  edits.insertionSort fun a b => a.start ≤ b.start

/-- `sorted(normalized, key=lambda item: item[0], reverse=True)`. -/
def sortEditsReverse (edits : List NormalizedEdit) : List NormalizedEdit :=
  edits.insertionSort fun a b => b.start ≤ a.start

def checkEditsOverlap : Nat → List NormalizedEdit → Except SourceEditContractError Unit
  | _, [] => .ok ()
  | previousEnd, edit :: rest =>
      if edit.start ≤ previousEnd then .error .editsOverlap else checkEditsOverlap edit.stop rest

/-- `_normalized_edits`. -/
def normalizedEdits (original : Str) (edits : LineEditsArgument) :
    Except SourceEditContractError (List NormalizedEdit) :=
  match edits with
  | .other => .error .editsEmpty
  | .array items => do
      require (items ≠ []) .editsEmpty
      let normalized ← items.zipIdx.mapM fun p => normalizedEdit (lineCount original) p.2 p.1
      checkEditsOverlap 0 (sortEdits normalized)
      return normalized

/-- `lines[start - 1 : end] = replacement`. -/
def replaceLines (lines : List Str) (edit : NormalizedEdit) : List Str :=
  lines.take (edit.start - 1) ++ edit.replacement ++ lines.drop edit.stop

/-- `apply_line_edits`. -/
def applyLineEdits (original : Str) (edits : LineEditsArgument) :
    Except SourceEditContractError Str :=
  (normalizedEdits original edits).map fun normalized =>
    ((sortEditsReverse normalized).foldl replaceLines (splitlinesKeepends original)).flatten

end OpenStarry.EditFile
