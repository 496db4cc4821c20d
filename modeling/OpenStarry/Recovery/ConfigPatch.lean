import OpenStarry.Lib.Crash
import OpenStarry.Lib.Inodes
import OpenStarry.Recovery.Errors

/-!
# Patching the workspace setting

`config.toml` is replaced by way of a journal: the new file is staged, the journal names both files by
their identities, the old config is parked under a backup name, the staged file is moved to its place,
and the journal becomes a receipt. Whatever was cut off is finished from the journal.
-/

namespace OpenStarry.Recovery.ConfigPatch

open Lib Text

/-- The paths of a transaction by its identifier. -/
inductive Name where
  | config
  | journal
  | staged (transactionId : Str)
  | backup (transactionId : Str)
  | committed (transactionId : Str)
  deriving DecidableEq

/-- The fields of a journal. -/
structure Payload where
  schemaVersion : Nat
  operation : Str
  transactionId : Str
  home : Str
  paths : List (Str × Str)
  oldConfig : Option Identity
  staged : Identity
  deriving DecidableEq

/-- What is not part of the transaction: the bytes, the clock and new inodes, how paths are spelled,
what `_patch_text` makes of a config, and the environment. -/
structure Host (β : Type) where
  size : β → Nat
  digest : β → Str
  empty : β
  /-- what is on disk while bytes are being written -/
  parts : β → List β
  encode : Payload → β
  decode : β → Option Payload
  decode_encode : ∀ payload, decode (encode payload) = some payload
  patchText : β → Except RecoveryError β
  isCanonicalUuid : Str → Bool
  home : Str
  normalizedPath : Name → Str
  override : Option String
  newObject : Disk Name β → Nat × Nat
  now : Disk Name β → Nat

structure ConfigSnapshot (β : Type) where
  identity : Option Identity
  mode : Nat
  data : β
  digest : Str

abbrev Program (β α : Type) := Prog (Disk Name β) RecoveryError α

section

variable {β : Type} (host : Host β)

def capture (d : Disk Name β) (name : Name) : ConfigSnapshot β :=
  match d name with
  | none => ⟨none, 0o600, host.empty, host.digest host.empty⟩
  | some f => ⟨some (f.identity host.size), permissions f.mode, f.data, host.digest f.data⟩

/-- `os.path.lexists`. -/
def lexists (d : Disk Name β) (name : Name) : Bool := (d name).isSome

def assertCurrent (name : Name) (snapshot : ConfigSnapshot β) : Program β Unit :=
  .require (fun d =>
      (capture host d name).identity = snapshot.identity &&
        (capture host d name).digest = snapshot.digest)
    ⟨.configChanged, "config changed after recovery preflight"⟩

def nativeMoveNoReplace (source destination : Name) : Program β Unit :=
  .operate fun d =>
    match d.move source destination with
    | some d' => .ok d'
    | none => .error ⟨.destinationExists, "destination already exists"⟩

/-! ### Identities -/

def identityMatches (d : Disk Name β) (name : Name) (expected : Identity) : Bool :=
  (capture host d name).identity = some expected

def objectIdentityMatches (d : Disk Name β) (name : Name) (expected : Identity) : Bool :=
  match (capture host d name).identity with
  | none => false
  | some identity => identity.device = expected.device && identity.inode = expected.inode

def parkedConfigMatches (d : Disk Name β) (name : Name) (expected : Identity) : Bool :=
  match (capture host d name).identity with
  | none => false
  | some identity =>
      identity.device = expected.device && identity.inode = expected.inode &&
        identity.size = expected.size && identity.modifiedAt = expected.modifiedAt &&
        (identity.mode = expected.mode || identity.mode = (fileType expected.mode ||| 0o600))

/-! ### The journal -/

def expectedPaths (transactionId : Str) : List (Str × Str) :=
  [("config".toList, host.normalizedPath .config),
    ("staged".toList, host.normalizedPath (.staged transactionId)),
    ("backup".toList, host.normalizedPath (.backup transactionId))]

def isWorkspacePatch (payload : Payload) : Bool :=
  payload.schemaVersion = 1 && payload.operation = "workspace-config-patch".toList &&
    host.isCanonicalUuid payload.transactionId && payload.home = host.home &&
    payload.paths = expectedPaths host payload.transactionId

/-- A journal is only read while it stays as it is. -/
def loadWorkspacePatch : Program β (ConfigSnapshot β × Payload) := do
  let snapshot ← Prog.read fun d => capture host d .journal
  if snapshot.identity = none then
    .raise ⟨.recovery "workspace_patch_missing", "workspace config transaction does not exist"⟩
  else
    match host.decode snapshot.data with
    | none =>
        .raise ⟨.recovery "workspace_patch_invalid",
          "workspace config transaction journal is invalid"⟩
    | some payload =>
        if isWorkspacePatch host payload then do
          assertCurrent host .journal snapshot
          pure (snapshot, payload)
        else
          .raise ⟨.recovery "workspace_patch_invalid",
            "workspace config transaction journal is invalid"⟩

/-! ### Steps of the transaction -/

def makeOwnerOnly (name : Name) (expected : Identity) : Program β Unit := do
  .require (fun d => objectIdentityMatches host d name expected)
    (unknown "workspace config backup identity is ambiguous")
  .operate fun d => .ok (d.change name fun f => f.chmod 0o600)

def parkWorkspaceConfig (transactionId : Str) (old : Identity) : Program β Unit := do
  .require (fun d => identityMatches host d .config old)
    (unknown "workspace config changed before it could be parked")
  nativeMoveNoReplace .config (.backup transactionId)
  .require (fun d => identityMatches host d (.backup transactionId) old)
    (unknown "workspace config changed while it was being parked")
  makeOwnerOnly host (.backup transactionId) old

def publishWorkspaceConfig (transactionId : Str) (staged : Identity) : Program β Unit := do
  .require (fun d => identityMatches host d (.staged transactionId) staged)
    (unknown "workspace config candidate identity is ambiguous")
  .require (fun d => !lexists d .config)
    (unknown "workspace config destination changed before publication")
  nativeMoveNoReplace (.staged transactionId) .config
  .require (fun d => identityMatches host d .config staged)
    (unknown "workspace config publication state is ambiguous")

def backupMatches (d : Disk Name β) (transactionId : Str) : Option Identity → Bool
  | none => !lexists d (.backup transactionId)
  | some old => parkedConfigMatches host d (.backup transactionId) old

def commitWorkspacePatch : Program β Unit := do
  let (snapshot, payload) ← loadWorkspacePatch host
  .require (fun d => identityMatches host d .config payload.staged)
    (unknown "workspace config is not safely published")
  .require (fun d => !lexists d (.staged payload.transactionId))
    (unknown "workspace config candidate remains after publication")
  .require (fun d => backupMatches host d payload.transactionId payload.oldConfig)
    (unknown <| if payload.oldConfig.isNone then "unexpected workspace config backup exists"
      else "workspace config backup identity is ambiguous")
  assertCurrent host .journal snapshot
  nativeMoveNoReplace .journal (.committed payload.transactionId)

/-- The old config is out of the way, whichever step the transaction had reached. -/
def parkOld (transactionId : Str) (old : Option Identity) : Program β Unit := do
  let d ← Prog.read fun d => d
  match old with
  | none =>
      .require (fun d => !lexists d (.backup transactionId) && !lexists d .config)
        (unknown "workspace config destination changed during publication")
  | some old =>
      if parkedConfigMatches host d (.backup transactionId) old then do
        .require (fun d => !lexists d .config)
          (unknown "workspace config destination changed after parking")
        makeOwnerOnly host (.backup transactionId) old
      else if identityMatches host d .config old && !lexists d (.backup transactionId) then
        parkWorkspaceConfig host transactionId old
      else .raise (unknown "workspace config transaction state is ambiguous")

def publishNew (payload : Payload) : Program β Unit := do
  let d ← Prog.read fun d => d
  if identityMatches host d .config payload.staged then
    .require (fun d => !lexists d (.staged payload.transactionId))
      (unknown "workspace config publication is duplicated")
  else do
    parkOld host payload.transactionId payload.oldConfig
    publishWorkspaceConfig host payload.transactionId payload.staged

def finishWorkspacePatch : Program β (Option Name) := do
  let (_, payload) ← loadWorkspacePatch host
  publishNew host payload
  commitWorkspacePatch host
  pure (payload.oldConfig.map fun _ => .backup payload.transactionId)

/-- `recover_workspace_patch`, under the locks. -/
def recoverWorkspacePatch : Program β (Option Name) := finishWorkspacePatch host

/-! ### Starting a transaction -/

/-- What `os.open` makes of a free name. -/
def newFile (d : Disk Name β) : File β where
  device := (host.newObject d).1
  inode := (host.newObject d).2
  mode := regular ||| 0o600
  modifiedAt := host.now d
  data := host.empty

def createFile (name : Name) (error : RecoveryError) : Program β Unit :=
  .operate fun d =>
    match d.create name (newFile host d) with
    | some d' => .ok d'
    | none => .error error

def chmodFile (name : Name) (perm : Nat) : Program β Unit :=
  .operate fun d => .ok (d.change name fun f => f.chmod perm)

def setData (name : Name) (data : β) : Program β Unit :=
  .operate fun d => .ok (d.change name fun f => { f with modifiedAt := host.now d, data })

def writeParts (name : Name) : List β → Program β Unit
  | [] => pure ()
  | part :: rest => do
      setData host name part
      writeParts name rest

/-- `_write_all`. -/
def writeAll (name : Name) (data : β) : Program β Unit := do
  writeParts host name (host.parts data)
  setData host name data

/-- `shutil.copystat`. -/
def copystat (source destination : Name) : Program β Unit :=
  .operate fun d =>
    match d source with
    | none => .ok d
    | some f => .ok (d.change destination fun g =>
        { g with mode := chmodMode g.mode f.mode, modifiedAt := f.modifiedAt })

def writeJsonNoReplace (name : Name) (payload : Payload) : Program β Unit := do
  createFile host name ⟨.recovery "workspace_patch_incomplete",
    "an unfinished workspace config transaction already exists"⟩
  chmodFile name 0o600
  writeAll host name (host.encode payload)

def copyMetadata (snapshot : ConfigSnapshot β) (transactionId : Str) : Program β Unit :=
  if snapshot.identity = none then pure () else copystat .config (.staged transactionId)

def fillStaged (transactionId : Str) (snapshot : ConfigSnapshot β) (patched : β) :
    Program β Unit := do
  copyMetadata snapshot transactionId
  chmodFile (.staged transactionId) (if snapshot.identity = none then 0o600 else snapshot.mode)
  writeAll host (.staged transactionId) patched

def newPayload (transactionId : Str) (oldConfig : Option Identity) (staged : Identity) : Payload where
  schemaVersion := 1
  operation := "workspace-config-patch".toList
  transactionId := transactionId
  home := host.home
  paths := expectedPaths host transactionId
  oldConfig := oldConfig
  staged := staged

variable [DecidableEq β]

def writeJournal (transactionId : Str) (snapshot : ConfigSnapshot β) (patched : β) :
    Program β Unit := do
  assertCurrent host .config snapshot
  let staged ← Prog.read fun d => capture host d (.staged transactionId)
  match staged.identity with
  | none => .raise (unknown "workspace config candidate could not be verified")
  | some identity =>
      if staged.data ≠ patched then
        .raise (unknown "workspace config candidate could not be verified")
      else
        writeJsonNoReplace host .journal (newPayload host transactionId snapshot.identity identity)

def discardStaged (transactionId : Str) : Program β Unit := do
  let d ← Prog.read fun d => d
  if lexists d .journal then pure ()
  else .operate fun d => .ok (d.put (.staged transactionId) none)

def startPatch (transactionId : Str) (snapshot : ConfigSnapshot β) (patched : β) :
    Program β Unit := do
  createFile host (.staged transactionId) ⟨.osError, "File exists"⟩
  Prog.onError (do
      fillStaged host transactionId snapshot patched
      writeJournal host transactionId snapshot patched)
    (discardStaged transactionId)

/-- `_patch_workspace_dir_locked` with the drawn identifier. -/
def patchWorkspaceDir (transactionId : Str) : Program β (Option Name) := do
  match host.override with
  | some name =>
      .raise ⟨.workspaceOverride, "remove " ++ name ++ " before changing the persisted workspace path"⟩
  | none => do
      let snapshot ← Prog.read fun d => capture host d .config
      match host.patchText snapshot.data with
      | .error e => .raise e
      | .ok patched =>
          if patched = snapshot.data then do
            assertCurrent host .config snapshot
            pure none
          else do
            .require (fun d => !lexists d .journal) ⟨.recovery "workspace_patch_incomplete",
              "an unfinished workspace config transaction must be recovered first"⟩
            startPatch host transactionId snapshot patched
            finishWorkspacePatch host

end

end OpenStarry.Recovery.ConfigPatch
