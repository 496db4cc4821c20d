import OpenStarry.Lib.Decimal
import OpenStarry.Lib.FileSystem
import OpenStarry.Lib.Outcome
import OpenStarry.Lib.Splice
import OpenStarry.Lib.Substring

/-!
# The replacements of one edit

The arguments of an edit are normalised to a list of replacements, each with the label its errors
name. All of them are matched against the original text, sorted by position, checked for overlap
and spliced in one pass; only then is the file written. Recovering a match for a text that does not
occur and the hint on the closest lines are parameters.
-/

namespace OpenStarry.EditFile

open Lib Lib.Text

structure EditReplacement where
  oldText : Str
  newText : Str
  label : Str
  deriving DecidableEq, Repr

/-- An entry of `edits`: the string-valued fields of an object, `none` for anything else. -/
abbrev EditItem := Option (String → Option Str)

/-- The value of `edits`, after the decoding of a string. -/
inductive EditsArgument where
  | array (items : List EditItem)
  | notArray
  | malformed

inductive EditError where
  | malformedEdits
  | editsNotArray
  | editNotObject (index : Nat)
  | editIncomplete (index : Nat)
  | singleIncomplete
  | noReplacements (path : Str)
  | emptyOldText (label : Str)
  | unchanged (label : Str)
  | notFound (label path hint : Str)
  | ambiguous (label : Str) (count : Nat) (path : Str)
  | overlaps (label path : Str)
  | substringNotFound
  | fileNotFound (path : Str)
  | os (error : OSError)
  deriving DecidableEq, Repr

/-- `_edit_file_retry_guidance`. -/
def retryGuidance (applyPatchVisible duplicateMatch : Bool) : String :=
  match applyPatchVisible, duplicateMatch with
  | true, true => "or use apply_patch with a line-specific hunk."
  | true, false => "or use apply_patch with a precise hunk."
  | false, true => "or retry with a longer unique exact old_text/new_text replacement."
  | false, false => "or retry with a smaller exact old_text/new_text replacement."

/-- The text of the errors the tool words itself. -/
def EditError.text (applyPatchVisible : Bool) : EditError → Option Str
  | .malformedEdits =>
      some ("edit_file edits must be an array or JSON array string. " ++
        "Retry with edits[] entries containing old_text/new_text.").toList
  | .editsNotArray =>
      some ("edit_file edits must be an array of replacements. " ++
        "Retry with edits[] entries containing old_text/new_text.").toList
  | .editNotObject index =>
      some ("edit_file edits[".toList ++ decimal index ++
        "] must be an object with old_text/new_text.".toList)
  | .editIncomplete index =>
      some ("edit_file edits[".toList ++ decimal index ++ ("] is missing old_text/new_text. " ++
        "Retry with exact old_text and replacement new_text.").toList)
  | .singleIncomplete =>
      some ("edit_file requires both old_text and new_text for a single edit. " ++
        "Retry with both fields or use edits[].").toList
  | .noReplacements path =>
      some ("edit_file requires old_text/new_text or non-empty edits[] for ".toList ++ path ++
        ". Read the current file content, then retry with exact text from that file.".toList)
  | .emptyOldText label =>
      some ("edit_file ".toList ++ label ++ (" must not be empty. " ++
        "Retry with exact non-empty text from the file.").toList)
  | .unchanged label =>
      some ("edit_file ".toList ++ label ++ (" is unchanged: old_text and new_text are " ++
        "identical, so the edit would do nothing. Retry with the intended new_text.").toList)
  | .notFound label path hint =>
      some ("edit_file could not find ".toList ++ label ++ " in ".toList ++ path ++
        (". Read the current file content, then retry with exact text from that file. " ++
          "Do not include read_file line-number prefixes like '12\\t', " ++
          retryGuidance applyPatchVisible false).toList ++ hint)
  | .ambiguous label count path =>
      some ("edit_file ".toList ++ label ++ " matches ".toList ++ decimal count ++
        " locations in ".toList ++ path ++
        (". Retry with a longer old_text that includes unique surrounding context, " ++
          retryGuidance applyPatchVisible true).toList)
  | .overlaps label path =>
      some ("edit_file ".toList ++ label ++ " overlaps another edits[] replacement in ".toList ++
        path ++ (". Merge nearby or overlapping changes into one old_text/new_text " ++
          "entry.").toList)
  | .substringNotFound => some "substring not found".toList
  | .fileNotFound path => some ("File not found: ".toList ++ path)
  | .os _ => none

/-! ### Normalising the arguments -/

/-- `_first_string_field`. -/
def firstStringField (item : String → Option Str) (names : List String) : Option Str :=
  names.findSome? item

def editLabel (index : Nat) : Str := "edits[".toList ++ decimal index ++ "].old_text".toList

def editReplacement (index : Nat) : EditItem → Except EditError EditReplacement
  | none => throw (.editNotObject index)
  | some item =>
      match firstStringField item ["old_text", "oldText", "old_string", "oldString"],
        firstStringField item ["new_text", "newText", "new_string", "newString"] with
      | some oldText, some newText => return { oldText, newText, label := editLabel index }
      | _, _ => throw (.editIncomplete index)

def editsReplacements : Option EditsArgument → Except EditError (List EditReplacement)
  | none => return []
  | some .malformed => throw .malformedEdits
  | some .notArray => throw .editsNotArray
  | some (.array items) => items.zipIdx.mapM fun (item, index) => editReplacement index item

def singleReplacement : Option Str → Option Str → Except EditError (List EditReplacement)
  | none, none => return []
  | some oldText, some newText => return [{ oldText, newText, label := "old_text".toList }]
  | _, _ => throw .singleIncomplete

def checkReplacement (replacement : EditReplacement) : Except EditError Unit :=
  if replacement.oldText = [] then throw (.emptyOldText replacement.label)
  else if replacement.oldText = replacement.newText then throw (.unchanged replacement.label)
  else return ()

/-- `_normalize_edit_replacements`. -/
def normalizeEditReplacements (path : Str) (oldText newText : Option Str)
    (edits : Option EditsArgument) : Except EditError (List EditReplacement) := do
  let listed ← editsReplacements edits
  let single ← singleReplacement oldText newText
  let replacements := listed ++ single
  if replacements = [] then throw (.noReplacements path)
  else
    replacements.forM checkReplacement
    return replacements

/-! ### Applying them -/

section

variable (recover : Str → EditReplacement → Option (Nat × Nat × Str)) (hint : Str → Str → Str)
  (path original : Str)

/-- Where a replacement applies, and what it leaves there. -/
def replacementSpan (replacement : EditReplacement) :
    Except EditError (Span Char EditReplacement) :=
  let matched := count replacement.oldText original
  if matched = 0 then
    match recover original replacement with
    | none => throw (.notFound replacement.label path (hint replacement.oldText original))
    | some (start, stop, text) => return ⟨start, stop, text, replacement⟩
  else if 1 < matched then throw (.ambiguous replacement.label matched path)
  else
    match find replacement.oldText original with
    | none => throw .substringNotFound
    | some start =>
        return ⟨start, start + replacement.oldText.length, replacement.newText, replacement⟩

/-- `spans.sort(key=lambda item: item[0])`. -/
def sortSpans (spans : List (Span Char EditReplacement)) : List (Span Char EditReplacement) :=
  spans.insertionSort fun a b => a.start ≤ b.start

def checkOverlaps : Int → List (Span Char EditReplacement) → Except EditError Unit
  | _, [] => return ()
  | previousEnd, span :: rest =>
      if (span.start : Int) < previousEnd then throw (.overlaps span.source.label path)
      else checkOverlaps span.stop rest

/-- `_apply_edit_replacements`. -/
def applyEditReplacements (replacements : List EditReplacement) : Except EditError Str := do
  let found ← replacements.mapM (replacementSpan recover hint path original)
  let spans := sortSpans found
  checkOverlaps path (-1) spans
  return Span.splice original 0 spans

end

def editedMessage (resolved scopeSuffix : Str) : List EditReplacement → Str
  | [replacement] =>
      "Edited ".toList ++ resolved ++ ": replaced ".toList ++ decimal replacement.oldText.length ++
        " chars with ".toList ++ decimal replacement.newText.length ++ " chars".toList ++ scopeSuffix
  | replacements =>
      "Edited ".toList ++ resolved ++ ": applied ".toList ++ decimal replacements.length ++
        " replacements".toList ++ scopeSuffix

/-- The call's arguments, with the path as it resolves and prints. -/
structure EditCall where
  path : Str
  resolved : AbsPath
  shown : Str
  scopeSuffix : Str
  oldText : Option Str
  newText : Option Str
  edits : Option EditsArgument

/-- `edit_file` on the host, once the call is let through: what it leaves of the file system and how
it ends. -/
def editFile (recover : Str → EditReplacement → Option (Nat × Nat × Str)) (hint : Str → Str → Str)
    (call : EditCall) (fs : FileSystem) : FileSystem × Except EditError Str :=
  match normalizeEditReplacements call.path call.oldText call.newText call.edits with
  | .error error => (fs, .error error)
  | .ok replacements =>
      if !fs.Exists call.resolved then (fs, .error (.fileNotFound call.path))
      else
        match fs.readText call.resolved with
        | .error error => (fs, .error (.os error))
        | .ok original =>
            match applyEditReplacements recover hint call.path original replacements with
            | .error error => (fs, .error error)
            | .ok updated =>
                match fs.writeText call.resolved updated with
                | .error error => (fs, .error (.os error))
                | .ok fs' =>
                    (fs', .ok (editedMessage call.shown call.scopeSuffix replacements))

end OpenStarry.EditFile
