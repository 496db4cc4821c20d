import OpenStarry.Lib.FileSystem
import OpenStarry.Patch.Parser

/-!
# Applying a patch to the file system

The operations are planned against the file system and an overlay of the contents planned so far;
a preflight runs through the planned writes on a map of what each of them leaves behind; then the
writes are committed. Only the commit touches the file system. Validating a path is a parameter: it
resolves the path and does not depend on the files.
-/

namespace OpenStarry.Patch

open Lib

/-- The reasons for which planning raises. -/
inductive PlanError (ε : Type) where
  | invalidPath (error : ε)
  | targetExists (path : Str)
  | updateMissing (path : Str)
  | deleteMissing (path : Str)
  | hunk (error : HunkError)
  | os (error : OSError)
  deriving DecidableEq, Repr

/-- The text of the errors that planning itself words. -/
def PlanError.text {ε : Type} (path : Str → String) : PlanError ε → Option String
  | .targetExists target =>
      some ("apply_patch Add File target already exists: " ++ path target ++ ". " ++
        "Retry with Update File for existing files.")
  | .updateMissing target =>
      some ("apply_patch could not find file to update: " ++ path target ++ ". " ++
        "Check the target path, then retry with an existing file or use Add File.")
  | .deleteMissing target =>
      some ("apply_patch could not find file to delete: " ++ path target ++ ". " ++
        "Check the target path or remove this Delete File operation.")
  | _ => none

inductive Operation where
  | add
  | update
  | delete
  deriving DecidableEq, Repr

/-- `none` for the content after a deletion. -/
structure PlannedPatchWrite where
  path : Str
  resolved : AbsPath
  afterContent : Option Str
  operation : Operation
  deriving DecidableEq, Repr

section Plan

variable {ε : Type} (validatePath : Str → Except ε AbsPath) (fs : FileSystem)

def resolve (path : Str) : Except (PlanError ε) AbsPath :=
  (validatePath path).mapError .invalidPath

def planAdd (path content : Str) : Except (PlanError ε) PlannedPatchWrite := do
  let resolved ← resolve validatePath path
  if fs.Exists resolved then throw (.targetExists path)
  else return { path, resolved, afterContent := some content, operation := .add }

def planUpdate (path : Str) (hunks : List Hunk) : Except (PlanError ε) PlannedPatchWrite := do
  let resolved ← resolve validatePath path
  if !fs.Exists resolved then throw (.updateMissing path)
  else
    let text ← (fs.readText resolved).mapError .os
    let content ← (applyUpdateContent text hunks).mapError .hunk
    return { path, resolved, afterContent := some content, operation := .update }

def planDelete (path : Str) : Except (PlanError ε) PlannedPatchWrite := do
  let resolved ← resolve validatePath path
  if !fs.Exists resolved then throw (.deleteMissing path)
  else return { path, resolved, afterContent := none, operation := .delete }

/-- An operation on a path that an earlier one has planned `currentContent` for. -/
def planAgain (resolved : AbsPath) (currentContent : Option Str) :
    PatchOp → Except (PlanError ε) PlannedPatchWrite
  | .addFile path content =>
      if currentContent.isSome then throw (.targetExists path)
      else return { path, resolved, afterContent := some content, operation := .add }
  | .updateFile path hunks =>
      match currentContent with
      | none => throw (.updateMissing path)
      | some text => do
          let content ← (applyUpdateContent text hunks).mapError .hunk
          return { path, resolved, afterContent := some content, operation := .update }
  | .deleteFile path =>
      if currentContent.isNone then throw (.deleteMissing path)
      else return { path, resolved, afterContent := none, operation := .delete }

def planFirst : PatchOp → Except (PlanError ε) PlannedPatchWrite
  | .addFile path content => planAdd validatePath fs path content
  | .updateFile path hunks => planUpdate validatePath fs path hunks
  | .deleteFile path => planDelete validatePath fs path

abbrev VirtualContent := AbsPath → Option (Option Str)

def planOp (virtual : VirtualContent) (op : PatchOp) : Except (PlanError ε) PlannedPatchWrite := do
  let resolved ← resolve validatePath op.path
  match virtual resolved with
  | none => planFirst validatePath fs op
  | some currentContent => planAgain resolved currentContent op

def planFrom : VirtualContent → List PatchOp → Except (PlanError ε) (List PlannedPatchWrite)
  | _, [] => return []
  | virtual, op :: rest => do
      let item ← planOp validatePath fs virtual op
      let planned ← planFrom (Function.update virtual item.resolved (some item.afterContent)) rest
      return item :: planned

def planOps (ops : List PatchOp) : Except (PlanError ε) (List PlannedPatchWrite) :=
  planFrom validatePath fs (fun _ => none) ops

end Plan

section Commit

variable (fs : FileSystem)

inductive PathState where
  | file
  | dir
  | absent
  deriving DecidableEq, Repr

abbrev PathStates := AbsPath → Option PathState

def preflightAncestors : PathStates → List AbsPath → Except OSError PathStates
  | states, [] => .ok states
  | states, ancestor :: rest =>
      match states ancestor with
      | some .file => .error (.fileExists ancestor)
      | some .dir => preflightAncestors states rest
      | state =>
          if state = none ∧ fs.Exists ancestor ∧ ¬ fs.isDir ancestor then
            .error (.fileExists ancestor)
          else preflightAncestors (Function.update states ancestor (some .dir)) rest

def preflightWriteParent (states : PathStates) (path : AbsPath) : Except OSError PathStates :=
  preflightAncestors fs states path.parent.ancestors

def preflightItem (states : PathStates) (item : PlannedPatchWrite) : Except OSError PathStates :=
  match item.afterContent with
  | none =>
      let gone : Except OSError PathStates :=
        .ok (Function.update states item.resolved (some .absent))
      match states item.resolved with
      | none =>
          if !fs.Exists item.resolved then .error (.fileNotFound item.resolved)
          else if fs.isDir item.resolved then .error (.isADirectory item.resolved)
          else gone
      | some .absent => .error (.fileNotFound item.resolved)
      | some .dir => .error (.isADirectory item.resolved)
      | some .file => gone
  | some _ => do
      let states ← preflightWriteParent fs states item.resolved
      if states item.resolved = some .dir then throw (.isADirectory item.resolved)
      else if states item.resolved = none ∧ fs.isDir item.resolved then
        throw (.isADirectory item.resolved)
      else return Function.update states item.resolved (some .file)

def preflightFrom : PathStates → List PlannedPatchWrite → Except OSError Unit
  | _, [] => .ok ()
  | states, item :: rest => do
      let states ← preflightItem fs states item
      preflightFrom states rest

def preflightPlannedWrites (planned : List PlannedPatchWrite) : Except OSError Unit :=
  preflightFrom fs (fun _ => none) planned

structure Counts where
  added : Nat := 0
  modified : Nat := 0
  deleted : Nat := 0
  deriving DecidableEq, Repr

def Counts.record (counts : Counts) (item : PlannedPatchWrite) : Counts :=
  if item.afterContent = none then { counts with deleted := counts.deleted + 1 }
  else if item.operation = .add then { counts with added := counts.added + 1 }
  else { counts with modified := counts.modified + 1 }

def commitItem (item : PlannedPatchWrite) : FileSystem × Except OSError Unit :=
  match item.afterContent with
  | none =>
      match fs.unlink item.resolved with
      | .error e => (fs, .error e)
      | .ok fs' => (fs', .ok ())
  | some content =>
      match fs.mkdirParents item.resolved.parent with
      | .error e => (fs, .error e)
      | .ok fs' =>
          match fs'.writeText item.resolved content with
          | .error e => (fs', .error e)
          | .ok fs'' => (fs'', .ok ())

end Commit

def commitFrom : FileSystem → Counts → List PlannedPatchWrite → FileSystem × Except OSError Counts
  | fs, counts, [] => (fs, .ok counts)
  | fs, counts, item :: rest =>
      match commitItem fs item with
      | (fs', .error e) => (fs', .error e)
      | (fs', .ok ()) => commitFrom fs' (counts.record item) rest

inductive ApplyOutcome (ε : Type) where
  | planRaised (error : PlanError ε)
  | preflightRaised (error : OSError)
  | commitRaised (error : OSError)
  | applied (counts : Counts) (planned : List PlannedPatchWrite)
  deriving DecidableEq, Repr

def applyOps {ε : Type} (validatePath : Str → Except ε AbsPath) (fs : FileSystem)
    (ops : List PatchOp) : FileSystem × ApplyOutcome ε :=
  match planOps validatePath fs ops with
  | .error e => (fs, .planRaised e)
  | .ok planned =>
      match preflightPlannedWrites fs planned with
      | .error e => (fs, .preflightRaised e)
      | .ok () =>
          match commitFrom fs {} planned with
          | (fs', .error e) => (fs', .commitRaised e)
          | (fs', .ok counts) => (fs', .applied counts planned)

end OpenStarry.Patch
