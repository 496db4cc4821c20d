import OpenStarry.Lib.Keyed
import OpenStarry.Lib.MostSpecific
import OpenStarry.Lib.Text

/-!
# Absolute POSIX paths

A path by its parts below the root. No part is empty, a dot or two dots, so that a path is spelled in
one way only.
-/

namespace OpenStarry.Sandbox

open Lib

def IsPart (part : Str) : Prop := part ≠ [] ∧ '/' ∉ part ∧ part ≠ ['.'] ∧ part ≠ ['.', '.']

instance (part : Str) : Decidable (IsPart part) := by unfold IsPart; infer_instance

structure PosixPath where
  below : List Str
  isPart : ∀ part ∈ below, IsPart part
  deriving DecidableEq

namespace PosixPath

def root : PosixPath := ⟨[], by simp⟩

/-- `len(path.parts)`, the root among them. -/
def partCount (path : PosixPath) : Nat := path.below.length + 1

/-- `path.as_posix()`. -/
def asPosix (path : PosixPath) : Str := '/' :: ['/'].intercalate path.below

/-- `path.name`. -/
def name (path : PosixPath) : Str := path.below.getLast?.getD []

/-- `path / name`. -/
def child (path : PosixPath) (name : Str) (hname : IsPart name) : PosixPath :=
  ⟨path.below ++ [name], by
    intro part hpart
    rcases List.mem_append.mp hpart with hpart | hpart
    · exact path.isPart part hpart
    · rwa [List.mem_singleton.mp hpart]⟩

/-- `path.is_relative_to(root)`. -/
def isRelativeTo (path root : PosixPath) : Bool := root.below.isPrefixOf path.below

def Under (path directory : PosixPath) : Prop := directory.below <+: path.below

theorem isRelativeTo_iff {path directory : PosixPath} :
    path.isRelativeTo directory = true ↔ path.Under directory :=
  List.isPrefixOf_iff_prefix

theorem eq_of_below {a b : PosixPath} (h : a.below = b.below) : a = b := by
  cases a
  cases b
  cases h
  rfl

theorem Under.under_of_le {path a b : PosixPath} (ha : path.Under a) (hb : path.Under b)
    (hle : b.partCount ≤ a.partCount) : a.Under b :=
  List.prefix_of_prefix_length_le hb ha (Nat.succ_le_succ_iff.mp hle)

theorem Under.partCount_le {path directory : PosixPath} (h : path.Under directory) :
    directory.partCount ≤ path.partCount :=
  Nat.succ_le_succ h.length_le

theorem asPosix_injective : Function.Injective asPosix := by
  intro a b h
  have hinner : ['/'].intercalate a.below = ['/'].intercalate b.below := List.cons.inj h |>.2
  have hsplit : ∀ path : PosixPath, path.below ≠ [] →
      (['/'].intercalate path.below).splitOn '/' = path.below := fun path hne =>
    List.splitOn_intercalate '/' (fun part hpart => (path.isPart part hpart).2.1) hne
  have hnil : ∀ path : PosixPath, ['/'].intercalate path.below = [] → path.below = [] := by
    intro path hpath
    by_contra hne
    have h' := hsplit path hne
    rw [hpath, List.splitOn_nil] at h'
    have hmem : ([] : Str) ∈ path.below := by
      rw [← h']
      exact List.mem_singleton_self _
    exact (path.isPart [] hmem).1 rfl
  apply eq_of_below
  by_cases ha : a.below = []
  · rw [ha] at hinner ⊢
    exact (hnil b hinner.symm).symm
  · by_cases hb : b.below = []
    · rw [hb] at hinner
      exact absurd (hnil a hinner) ha
    · rw [← hsplit a ha, ← hsplit b hb, hinner]

end PosixPath

/-!
## Filesystem permission profiles

The access rules of one sandboxed operation and how they decide on a path: a repeated declaration
replaces the earlier one, the longest root that holds the path wins, and of several the most
restrictive access. A workspace profile declares its writable roots and protects the metadata
directories below each of them again.
-/

inductive FileSystemAccess
  | deny
  | read
  | write
  deriving DecidableEq, Repr

namespace FileSystemAccess

def restrictiveness : FileSystemAccess → Nat
  | deny => 0
  | read => 1
  | write => 2

theorem restrictiveness_injective : Function.Injective restrictiveness := by
  intro a b h
  cases a <;> cases b <;> first | rfl | exact absurd h (by decide)

instance : LinearOrder FileSystemAccess :=
  LinearOrder.lift' restrictiveness restrictiveness_injective

def withoutWrite : FileSystemAccess → FileSystemAccess
  | deny => deny
  | _ => read

theorem withoutWrite_eq_min (access : FileSystemAccess) : access.withoutWrite = min access read := by
  cases access <;> decide

theorem withoutWrite_monotone : Monotone withoutWrite := by
  intro a b h
  rw [withoutWrite_eq_min, withoutWrite_eq_min]
  exact min_le_min_right read h

theorem eq_write_of_write_le {access : FileSystemAccess} (h : write ≤ access) : access = write := by
  revert h
  cases access <;> decide

end FileSystemAccess

/-- The host the paths belong to: what a path resolves to, where it has no symbolic links, and the
functions the patterns of denied reads are read and matched with. -/
structure PathHost where
  canonical : PosixPath → PosixPath
  canonical_eq : ∀ path, canonical path = path
  expanduser : Str → Str
  parts : Str → List Str
  resolvePrefix : List Str → Str
  fnmatchcase : Str → Str → Bool

def protectedMetadataNames : List Str := [".git".toList, ".agents".toList, ".codex".toList]

theorem isPart_of_protected {name : Str} (h : name ∈ protectedMetadataNames) : IsPart name := by
  have hall : ∀ name ∈ protectedMetadataNames, IsPart name := by decide
  exact hall name h

/-! ### Entries -/

/-- An access rule for a path and what lies below it. Its own spelling is kept only where it is not
the path's, which it is without symbolic links. -/
structure FileSystemPermissionEntry where
  path : PosixPath
  access : FileSystemAccess
  logicalPath : Option PosixPath := none
  coincide : logicalPath.getD path = path
  deriving DecidableEq

namespace FileSystemPermissionEntry

def lexicalPath (entry : FileSystemPermissionEntry) : PosixPath := entry.logicalPath.getD entry.path

@[simp] theorem lexicalPath_eq (entry : FileSystemPermissionEntry) : entry.lexicalPath = entry.path :=
  entry.coincide

end FileSystemPermissionEntry

/-- `_permission_entry`. -/
def permissionEntry (path : PosixPath) (access : FileSystemAccess) (canonicalPath : PosixPath)
    (hcanonical : canonicalPath = path) : FileSystemPermissionEntry where
  path := canonicalPath
  access
  logicalPath := if path.asPosix ≠ canonicalPath.asPosix then some path else none
  coincide := by
    rw [hcanonical, if_neg (fun h => h rfl)]
    rfl

/-- `_normalized_permission_entry`. -/
def normalizedPermissionEntry (entry : FileSystemPermissionEntry) : FileSystemPermissionEntry where
  path := entry.path
  access := entry.access
  logicalPath :=
    if entry.logicalPath.isSome ∨ entry.lexicalPath.asPosix ≠ entry.path.asPosix then
      some entry.lexicalPath
    else none
  coincide := by
    split
    · exact entry.coincide
    · rfl

def deduplicatePaths (paths : List PosixPath) : List PosixPath :=
  paths.foldl (fun unique path =>
    if path.asPosix ∈ unique.map PosixPath.asPosix then unique else unique ++ [path]) []

def entryKey (entry : FileSystemPermissionEntry) : Str × Str × FileSystemAccess :=
  (entry.lexicalPath.asPosix, entry.path.asPosix, entry.access)

def deduplicatePermissionEntries (entries : List FileSystemPermissionEntry) :
    List FileSystemPermissionEntry :=
  (entries.map normalizedPermissionEntry).foldl (fun unique entry =>
    if entryKey entry ∈ unique.map entryKey then unique else unique ++ [entry]) []

/-! ### Profiles -/

structure FileSystemPermissionProfile where
  entries : List FileSystemPermissionEntry
  deniedReadGlobs : List Str := []
  defaultAccess : FileSystemAccess := .deny

/-- What the platform adds: the directory of `TMPDIR`, where it is an absolute path, and whether its
own paths are concrete ones. -/
structure FileSystemPlatformContext where
  tmpdir : Option PosixPath := none
  concrete : Bool := false

def slashTmp : PosixPath := ⟨["tmp".toList], by decide⟩

def resolveTempWritePaths (context : FileSystemPlatformContext) (includeSlashTmp includeTmpdir : Bool) :
    List PosixPath :=
  deduplicatePaths
    ((if includeSlashTmp then [slashTmp] else []) ++
      if includeTmpdir then context.tmpdir.toList else [])

structure WorkspaceOptions where
  workspace : PosixPath
  readableRoots : List PosixPath := []
  writableRoots : List PosixPath := []
  deniedReadRoots : List PosixPath := []
  deniedReadGlobs : List Str := []
  hostRootReadonly : Bool := true
  tmpWritable : Bool := true
  tmpdirEnvWritable : Bool := true
  protectMetadata : Bool := true
  platformContext : FileSystemPlatformContext := {}

abbrev Declared := Nat × FileSystemPermissionEntry

abbrev RuleSpelling := Str × Str

/-- The final declarations by their identity, and the identity each spelling has last. -/
structure Declarations where
  finalByIdentity : List ((RuleSpelling × FileSystemAccess) × Declared) := []
  identityBySpelling : List (RuleSpelling × (RuleSpelling × FileSystemAccess)) := []

def spellingKey (entry : FileSystemPermissionEntry) : RuleSpelling :=
  (entry.lexicalPath.asPosix, entry.path.asPosix)

/-- One declaration: an earlier one with the same spelling is taken out. -/
def Declarations.declare (declarations : Declarations) (declared : Declared) : Declarations :=
  let entry := normalizedPermissionEntry declared.2
  let finals :=
    match declarations.identityBySpelling.lookup (spellingKey entry) with
    | some prior => declarations.finalByIdentity.filter fun final => final.1 ≠ prior
    | none => declarations.finalByIdentity
  let identity := (spellingKey entry, entry.access)
  { identityBySpelling :=
      Keyed.assign Prod.fst (spellingKey entry, identity) declarations.identityBySpelling
    finalByIdentity := Keyed.assign Prod.fst (identity, (declared.1, entry)) finals }

section

variable (host : PathHost)

def canonicalPlatformPath (path : PosixPath) (context : FileSystemPlatformContext) : PosixPath :=
  if context.concrete then host.canonical path else path

theorem canonicalPlatformPath_eq (path : PosixPath) (context : FileSystemPlatformContext) :
    canonicalPlatformPath host path context = path := by
  rw [canonicalPlatformPath]
  split
  · exact host.canonical_eq path
  · rfl

/-- `_canonical_glob`: what stands before the first wildcard is resolved. -/
def canonicalGlob (pattern : Str) : Str :=
  let expanded := host.expanduser pattern
  let parts := host.parts expanded
  let wildcardIndex := parts.findIdx fun part => part.any fun c => c = '*' || c = '?' || c = '['
  if wildcardIndex = 0 then expanded.map fun c => if c = '\\' then '/' else c
  else
    let front := host.resolvePrefix (parts.take wildcardIndex)
    if wildcardIndex = parts.length then front
    else front.rdropWhile (· = '/') ++ '/' :: ['/'].intercalate (parts.drop wildcardIndex)

def matchesDeniedReadGlob (candidate : PosixPath) (pattern : Str) : Bool :=
  host.fnmatchcase candidate.asPosix (canonicalGlob host pattern)

def pathVariants (path : PosixPath) : List PosixPath := deduplicatePaths [path, path]

def writeEntryPathVariants (entry : FileSystemPermissionEntry) : List PosixPath :=
  let frozen := entry.path
  let logical := entry.lexicalPath
  if (host.canonical frozen).asPosix ≠ frozen.asPosix then []
  else if (host.canonical logical).asPosix = frozen.asPosix then deduplicatePaths [logical, frozen]
  else deduplicatePaths [frozen]

def entryPathVariants (entry : FileSystemPermissionEntry) : List PosixPath :=
  let normalized := normalizedPermissionEntry entry
  if normalized.access = .write then writeEntryPathVariants host normalized
  else
    deduplicatePaths
      [normalized.lexicalPath, normalized.path, normalized.lexicalPath, normalized.path]

namespace FileSystemPermissionProfile

variable (profile : FileSystemPermissionProfile)

/-- The entry for a path as `_permission_entry` makes it. -/
def entryAt (access : FileSystemAccess) (path : PosixPath) : FileSystemPermissionEntry :=
  permissionEntry path access path rfl

def platformEntryAt (context : FileSystemPlatformContext) (access : FileSystemAccess)
    (path : PosixPath) : FileSystemPermissionEntry :=
  permissionEntry path access (canonicalPlatformPath host path context)
    (canonicalPlatformPath_eq host path context)

def declaredWritable (options : WorkspaceOptions) : List FileSystemPermissionEntry :=
  let temporary := resolveTempWritePaths options.platformContext options.tmpWritable
    options.tmpdirEnvWritable
  deduplicatePermissionEntries
    (entryAt .write options.workspace :: options.writableRoots.map (entryAt .write) ++
      temporary.map (platformEntryAt host options.platformContext .write))

def metadataEntries (root : FileSystemPermissionEntry) : List FileSystemPermissionEntry :=
  protectedMetadataNames.attach.map fun name =>
    entryAt .read (root.lexicalPath.child name.1 (isPart_of_protected name.2))

def workspace (options : WorkspaceOptions) : FileSystemPermissionProfile :=
  let writable := declaredWritable host options
  { entries :=
      (if options.hostRootReadonly then
        [platformEntryAt host options.platformContext .read PosixPath.root] else []) ++
      options.readableRoots.map (entryAt .read) ++
      writable ++
      (if options.protectMetadata then writable.flatMap metadataEntries else []) ++
      options.deniedReadRoots.map (entryAt .deny)
    deniedReadGlobs := options.deniedReadGlobs
    defaultAccess := .deny }

def asReadOnly : FileSystemPermissionProfile where
  entries := profile.entries.map fun entry => { entry with access := entry.access.withoutWrite }
  deniedReadGlobs := profile.deniedReadGlobs
  defaultAccess :=
    if profile.defaultAccess = .write then .read else profile.defaultAccess

def effectiveEntries : List FileSystemPermissionEntry :=
  let declared := profile.entries.zipIdx.map fun (entry, index) => (index, entry)
  let final := declared.foldl Declarations.declare {}
  ((final.finalByIdentity.map Prod.snd).mergeSort fun a b => a.1 ≤ b.1).map Prod.snd

def matchingRules (candidate : PosixPath) : List (Nat × FileSystemAccess) :=
  profile.effectiveEntries.flatMap fun entry =>
    ((entryPathVariants host entry).filter fun root => candidate.isRelativeTo root).map fun root =>
      (root.partCount, entry.access)

def winningRule (candidate : PosixPath) : FileSystemAccess × Bool :=
  match MostSpecific.winner (profile.matchingRules host candidate) with
  | none => (profile.defaultAccess, false)
  | some access => (access, true)

def matchesAnyGlob (candidates : List PosixPath) : Bool :=
  candidates.any fun candidate =>
    profile.deniedReadGlobs.any fun pattern => matchesDeniedReadGlob host candidate pattern

def resolve (path : PosixPath) : FileSystemAccess :=
  let candidates := pathVariants path
  if profile.matchesAnyGlob host candidates then .deny
  else
    ((candidates.map fun candidate => (profile.winningRule host candidate).1).min?).getD
      profile.defaultAccess

def isExplicitlyDenied (path : PosixPath) : Bool :=
  let candidates := pathVariants path
  if profile.matchesAnyGlob host candidates then true
  else
    let winners := candidates.map fun candidate => profile.winningRule host candidate
    (winners.map Prod.fst).min?.getD profile.defaultAccess = .deny &&
      winners.any fun winner => winner.1 = .deny && winner.2

def hasProtectedMetadataRoot (path : PosixPath) : Bool :=
  (pathVariants path).any fun candidate =>
    profile.effectiveEntries.any fun entry =>
      entry.access = .read &&
        (entryPathVariants host entry).any (fun root => root.name ∈ protectedMetadataNames) &&
        (entryPathVariants host entry).any fun root => candidate.isRelativeTo root

end FileSystemPermissionProfile

end

end OpenStarry.Sandbox
