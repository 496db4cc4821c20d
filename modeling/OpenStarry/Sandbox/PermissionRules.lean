import Mathlib.Data.List.Pairwise
import OpenStarry.Sandbox.Permissions

/-!
# Decisions on a path

Whether a path is visible to a sandboxed operation, for reading or for writing: by the profile where
there is one, else by the workspace and the mounts.
-/

namespace OpenStarry.Sandbox

open Lib

inductive MountAccess
  | ro
  | rw
  deriving DecidableEq

inductive MountStatus
  | allowed
  | request
  | blocked
  deriving DecidableEq

structure MountDecision where
  status : MountStatus
  normalizedPath : Str
  access : MountAccess
  reason : String := ""
  deriving DecidableEq

section

variable (host : PathHost)

/-- The decision by a profile. `logicalCandidate` is the spelling the model has seen, as an absolute
path, where the caller gives one. -/
def decideByProfile (path : PosixPath) (write : Bool) (profile : FileSystemPermissionProfile)
    (logicalCandidate : Option PosixPath) : MountDecision :=
  let access := if write then MountAccess.rw else .ro
  let text := path.asPosix
  let candidates := ([logicalCandidate.getD path, path]).dedup
  let effective := ((candidates.map fun candidate => profile.resolve host candidate).min?).getD .deny
  if effective = .deny then
    if candidates.any fun candidate =>
        profile.resolve host candidate = .deny && profile.isExplicitlyDenied host candidate then
      ⟨.blocked, text, access, "denied_read"⟩
    else ⟨.request, text, access, "outside_sandbox_mounts"⟩
  else if !write || effective = .write then ⟨.allowed, text, access, ""⟩
  else
    ⟨.request, text, .rw,
      if candidates.any fun candidate => profile.hasProtectedMetadataRoot host candidate then
        "protected_metadata"
      else "mount_requires_write_access"⟩

def deepestMount (mounts : List (PosixPath × MountAccess)) : Option (PosixPath × MountAccess) :=
  match mounts with
  | [] => none
  | first :: rest =>
      some (rest.foldl (fun best mount =>
        if best.1.partCount < mount.1.partCount then mount else best) first)

/-- The decision by the workspace and the mounts. -/
def decideByMounts (path : PosixPath) (workspace : Option PosixPath)
    (mounts : List (PosixPath × MountAccess)) (write : Bool) : MountDecision :=
  let access := if write then MountAccess.rw else .ro
  let text := path.asPosix
  if workspace.any fun root => path.isRelativeTo root then ⟨.allowed, text, access, ""⟩
  else
    match deepestMount (mounts.filter fun mount => path.isRelativeTo mount.1) with
    | some mount =>
        if !write || mount.2 = .rw then ⟨.allowed, text, access, ""⟩
        else ⟨.request, text, .rw, "mount_requires_write_access"⟩
    | none => ⟨.request, text, access, "outside_sandbox_mounts"⟩

def decidePathAccess (path : PosixPath) (workspace : Option PosixPath)
    (mounts : List (PosixPath × MountAccess)) (write : Bool)
    (profile : Option FileSystemPermissionProfile) (logicalCandidate : Option PosixPath) :
    MountDecision :=
  match profile with
  | some profile => decideByProfile host path write profile logicalCandidate
  | none => decideByMounts path workspace mounts write

end

/-!
## What a permission profile decides

The final declarations are the last ones of each root; the longest root that holds a path decides on
it. Taking the write permissions away caps every decision, a write is allowed only where the profile
says so, and the metadata below a writable root stays protected.
-/

/-! ### Spellings -/

@[simp] theorem normalizedPermissionEntry_path (entry : FileSystemPermissionEntry) :
    (normalizedPermissionEntry entry).path = entry.path := rfl

@[simp] theorem normalizedPermissionEntry_access (entry : FileSystemPermissionEntry) :
    (normalizedPermissionEntry entry).access = entry.access := rfl

theorem deduplicatePaths_replicate (path : PosixPath) (n : Nat) :
    deduplicatePaths (List.replicate (n + 1) path) = [path] := by
  induction n with
  | zero => rfl
  | succ n ih =>
      rw [List.replicate_succ', deduplicatePaths, List.foldl_append]
      rw [deduplicatePaths] at ih
      rw [ih]
      simp

theorem pathVariants_eq (path : PosixPath) : pathVariants path = [path] :=
  deduplicatePaths_replicate path 1

theorem entryPathVariants_eq (host : PathHost) (entry : FileSystemPermissionEntry) :
    entryPathVariants host entry = [entry.path] := by
  have hfour := deduplicatePaths_replicate entry.path 3
  have htwo := deduplicatePaths_replicate entry.path 1
  rw [entryPathVariants]
  split
  · rw [writeEntryPathVariants]
    simp only [host.canonical_eq, FileSystemPermissionEntry.lexicalPath_eq, ne_eq, not_true_eq_false,
      if_false, if_true]
    exact htwo
  · simp only [FileSystemPermissionEntry.lexicalPath_eq]
    exact hfour

theorem spellingKey_eq_iff {a b : FileSystemPermissionEntry} :
    spellingKey a = spellingKey b ↔ a.path = b.path := by
  rw [spellingKey, spellingKey, FileSystemPermissionEntry.lexicalPath_eq,
    FileSystemPermissionEntry.lexicalPath_eq, Prod.mk.injEq, and_self]
  exact PosixPath.asPosix_injective.eq_iff

/-! ### The final declarations -/

/-- What the two maps hold after the declarations before position `i`: the last entry of each
spelling. -/
structure Declarations.Holds (i : Nat) (declarations : Declarations)
    (entries : List FileSystemPermissionEntry) : Prop where
  entries_eq : declarations.finalByIdentity.map (fun final => final.2.2) = entries
  identity : ∀ final ∈ declarations.finalByIdentity,
    final.1 = (spellingKey final.2.2, final.2.2.access)
  index : ∀ final ∈ declarations.finalByIdentity, final.2.1 < i
  sorted : declarations.finalByIdentity.Pairwise fun a b => a.2.1 < b.2.1
  lookup : ∀ spelling, declarations.identityBySpelling.lookup spelling =
    (entries.find? fun entry => spellingKey entry = spelling).map fun entry =>
      (spelling, entry.access)
  distinct : entries.Pairwise fun a b => spellingKey a ≠ spellingKey b

namespace Declarations.Holds

variable {i : Nat} {declarations : Declarations} {entries : List FileSystemPermissionEntry}

theorem empty : Declarations.Holds 0 {} [] where
  entries_eq := rfl
  identity := by simp
  index := by simp
  sorted := List.Pairwise.nil
  lookup := fun _ => rfl
  distinct := List.Pairwise.nil

theorem mem_entries (h : declarations.Holds i entries)
    {final : (RuleSpelling × FileSystemAccess) × Declared} (hfinal : final ∈ declarations.finalByIdentity) :
    final.2.2 ∈ entries := by
  rw [← h.entries_eq]
  exact List.mem_map_of_mem hfinal

theorem finals_eq (h : declarations.Holds i entries) (spelling : RuleSpelling) :
    (match declarations.identityBySpelling.lookup spelling with
      | some prior => declarations.finalByIdentity.filter fun final => final.1 ≠ prior
      | none => declarations.finalByIdentity) =
      declarations.finalByIdentity.filter fun final => spellingKey final.2.2 ≠ spelling := by
  rw [h.lookup spelling]
  cases hfind : entries.find? fun entry => spellingKey entry = spelling with
  | none =>
      rw [List.find?_eq_none] at hfind
      refine (List.filter_eq_self.mpr fun final hfinal => ?_).symm
      exact decide_eq_true fun heq => hfind _ (h.mem_entries hfinal) (decide_eq_true heq)
  | some found =>
      have hspelling : spellingKey found = spelling := by
        simpa using List.find?_some hfind
      have hmem := List.mem_of_find?_eq_some hfind
      apply List.filter_congr
      intro final hfinal
      rw [h.identity final hfinal]
      by_cases heq : spellingKey final.2.2 = spelling
      · -- no two entries have one spelling
        have hsame : final.2.2 = found := by
          by_contra hne
          have hsymm : Std.Symm fun a b : FileSystemPermissionEntry => spellingKey a ≠ spellingKey b :=
            ⟨fun _ _ hab => hab.symm⟩
          exact h.distinct.forall (h.mem_entries hfinal) hmem hne (heq.trans hspelling.symm)
        rw [hsame, hspelling]
        simp
      · simp [heq]

theorem declare_eq (h : declarations.Holds i entries) (entry : FileSystemPermissionEntry) :
    declarations.declare (i, entry) =
      { identityBySpelling :=
          Keyed.assign Prod.fst
            (spellingKey (normalizedPermissionEntry entry),
              (spellingKey (normalizedPermissionEntry entry), entry.access))
            declarations.identityBySpelling
        finalByIdentity :=
          (declarations.finalByIdentity.filter fun final =>
            spellingKey final.2.2 ≠ spellingKey (normalizedPermissionEntry entry)) ++
            [((spellingKey (normalizedPermissionEntry entry), entry.access),
              (i, normalizedPermissionEntry entry))] } := by
  have hfresh : ∀ final ∈ declarations.finalByIdentity.filter fun final =>
      spellingKey final.2.2 ≠ spellingKey (normalizedPermissionEntry entry),
      Prod.fst final ≠ (spellingKey (normalizedPermissionEntry entry), entry.access) := by
    intro final hfinal heq
    obtain ⟨hmem, hne⟩ := List.mem_filter.mp hfinal
    rw [h.identity final hmem] at heq
    exact of_decide_eq_true hne (Prod.mk.inj heq).1
  rw [← Keyed.assign_of_fresh hfresh, ← h.finals_eq]
  rfl

theorem find?_moveToEnd (added : FileSystemPermissionEntry) (spelling : RuleSpelling) :
    (Keyed.moveToEnd spellingKey entries added).find? (fun entry => spellingKey entry = spelling) =
      if spelling = spellingKey added then some added
      else entries.find? fun entry => spellingKey entry = spelling := by
  rw [Keyed.moveToEnd, List.find?_append]
  by_cases hspelling : spelling = spellingKey added
  · have hnone : (entries.filter fun other => spellingKey other ≠ spellingKey added).find?
        (fun other => spellingKey other = spelling) = none := by
      rw [List.find?_eq_none]
      intro other hother heq
      have hne := of_decide_eq_true (List.mem_filter.mp hother).2
      exact hne ((of_decide_eq_true heq).trans hspelling)
    rw [if_pos hspelling, hnone, Option.none_or]
    simp [hspelling]
  · have hadded : ([added] : List _).find? (fun entry => spellingKey entry = spelling) = none := by
      simp [Ne.symm hspelling]
    rw [if_neg hspelling, hadded, Option.or_none, List.find?_filter]
    congr 1
    funext other
    by_cases heq : spellingKey other = spelling
    · simp [heq, hspelling]
    · simp [heq]

theorem declare (h : declarations.Holds i entries) (entry : FileSystemPermissionEntry) :
    (declarations.declare (i, entry)).Holds (i + 1)
      (Keyed.moveToEnd spellingKey entries (normalizedPermissionEntry entry)) := by
  rw [h.declare_eq entry]
  have hkey : (normalizedPermissionEntry entry).access = entry.access := rfl
  generalize normalizedPermissionEntry entry = added at hkey ⊢
  constructor
  · rw [List.map_append, List.map_singleton, Keyed.moveToEnd, ← h.entries_eq, List.filter_map]
    rfl
  · intro final hfinal
    rw [List.mem_append, List.mem_singleton] at hfinal
    rcases hfinal with hfinal | rfl
    · exact h.identity final (List.mem_of_mem_filter hfinal)
    · rw [hkey]
  · intro final hfinal
    rw [List.mem_append, List.mem_singleton] at hfinal
    rcases hfinal with hfinal | rfl
    · exact Nat.lt_succ_of_lt (h.index final (List.mem_of_mem_filter hfinal))
    · exact Nat.lt_succ_self i
  · rw [List.pairwise_append]
    refine ⟨h.sorted.filter _, List.pairwise_singleton _ _, fun a ha b hb => ?_⟩
    rw [List.mem_singleton.mp hb]
    exact h.index a (List.mem_of_mem_filter ha)
  · intro spelling
    have hlookup := Keyed.lookup_assign (spellingKey added) spelling
      (spellingKey added, entry.access) declarations.identityBySpelling
    refine hlookup.trans ?_
    rw [find?_moveToEnd, h.lookup spelling]
    split
    · rename_i heq
      rw [heq, Option.map_some, hkey]
    · rfl
  · rw [Keyed.moveToEnd, List.pairwise_append]
    refine ⟨h.distinct.filter _, List.pairwise_singleton _ _, fun a ha b hb => ?_⟩
    rw [List.mem_singleton.mp hb]
    exact of_decide_eq_true (List.mem_filter.mp ha).2

theorem foldl_declare (h : declarations.Holds i entries) (more : List FileSystemPermissionEntry) :
    (((more.zipIdx i).map fun (entry, index) => (index, entry)).foldl Declarations.declare
      declarations).Holds (i + more.length)
      ((more.map normalizedPermissionEntry).foldl (Keyed.moveToEnd spellingKey) entries) := by
  induction more generalizing i declarations entries with
  | nil => exact h
  | cons entry rest ih =>
      have hrest := ih (h.declare entry)
      rw [Nat.add_assoc, Nat.add_comm 1] at hrest
      exact hrest

end Declarations.Holds

namespace FileSystemPermissionProfile

variable (profile : FileSystemPermissionProfile)

theorem effectiveEntries_eq : profile.effectiveEntries =
    Keyed.collect spellingKey (profile.entries.map normalizedPermissionEntry) := by
  have h := Declarations.Holds.empty.foldl_declare profile.entries
  have hsorted := h.sorted.imp (fun hlt => decide_eq_true (Nat.le_of_lt hlt))
  rw [effectiveEntries]
  dsimp only
  rw [List.mergeSort_of_pairwise]
  · rw [List.map_map]
    exact h.entries_eq
  · rw [List.pairwise_map]
    exact hsorted

def LastDeclared (entry : FileSystemPermissionEntry) : Prop :=
  ∃ before after, profile.entries = before ++ entry :: after ∧
    ∀ other ∈ after, other.path ≠ entry.path

def longestAccesses (path : PosixPath) : Set FileSystemAccess :=
  {access | ∃ entry, profile.LastDeclared entry ∧ path.Under entry.path ∧ entry.access = access ∧
    ∀ other ∈ profile.entries, path.Under other.path → other.path.partCount ≤ entry.path.partCount}

variable {profile}

theorem LastDeclared.mem {entry : FileSystemPermissionEntry} (h : profile.LastDeclared entry) :
    entry ∈ profile.entries := by
  obtain ⟨before, after, heq, -⟩ := h
  rw [heq]
  exact List.mem_append_right _ List.mem_cons_self

theorem mem_effectiveEntries_iff {final : FileSystemPermissionEntry} :
    final ∈ profile.effectiveEntries ↔
      ∃ entry, profile.LastDeclared entry ∧ normalizedPermissionEntry entry = final := by
  rw [effectiveEntries_eq, Keyed.mem_collect_iff]
  constructor
  · intro h
    obtain ⟨before, after, heq, hafter⟩ := h
    obtain ⟨first, rest, hsplit, -, hrest⟩ := List.map_eq_append_iff.mp heq
    obtain ⟨entry, last, rfl, hentry, hlast⟩ := List.map_eq_cons_iff.mp hrest
    refine ⟨entry, ⟨first, last, hsplit, fun other hother hpath => ?_⟩, hentry⟩
    have hmem : normalizedPermissionEntry other ∈ after := by
      rw [← hlast]
      exact List.mem_map_of_mem hother
    apply hafter _ hmem
    rw [spellingKey_eq_iff, ← hentry]
    exact hpath
  · intro h
    obtain ⟨entry, ⟨before, after, heq, hafter⟩, rfl⟩ := h
    refine ⟨before.map normalizedPermissionEntry, after.map normalizedPermissionEntry, ?_, ?_⟩
    · rw [heq, List.map_append, List.map_cons]
    · intro x hx hkey
      obtain ⟨other, hother, rfl⟩ := List.mem_map.mp hx
      have hpath : (normalizedPermissionEntry other).path = (normalizedPermissionEntry entry).path :=
        spellingKey_eq_iff.mp hkey
      exact hafter other hother hpath

theorem exists_lastDeclared {entry : FileSystemPermissionEntry} (h : entry ∈ profile.entries) :
    ∃ last, profile.LastDeclared last ∧ last.path = entry.path := by
  have hmem := List.mem_map_of_mem (f := normalizedPermissionEntry) h
  obtain ⟨final, hfinal, hkey⟩ : ∃ final ∈ Keyed.collect spellingKey
      (profile.entries.map normalizedPermissionEntry),
      spellingKey final = spellingKey (normalizedPermissionEntry entry) :=
    Keyed.exists_mem_collect hmem
  rw [← effectiveEntries_eq, mem_effectiveEntries_iff] at hfinal
  obtain ⟨last, hlast, rfl⟩ := hfinal
  have hpath : (normalizedPermissionEntry last).path = (normalizedPermissionEntry entry).path :=
    spellingKey_eq_iff.mp hkey
  exact ⟨last, hlast, hpath⟩

/-! ### The winning rule -/

variable {host : PathHost} {path : PosixPath}

theorem mem_matchingRules_iff {rule : Nat × FileSystemAccess} :
    rule ∈ profile.matchingRules host path ↔
      ∃ entry, profile.LastDeclared entry ∧ path.Under entry.path ∧
        rule = (entry.path.partCount, entry.access) := by
  rw [matchingRules, List.mem_flatMap]
  constructor
  · intro h
    obtain ⟨final, hfinal, hrule⟩ := h
    obtain ⟨entry, hentry, rfl⟩ := mem_effectiveEntries_iff.mp hfinal
    rw [entryPathVariants_eq, List.mem_map] at hrule
    obtain ⟨found, hfound, rfl⟩ := hrule
    obtain ⟨hmem, hrel⟩ := List.mem_filter.mp hfound
    rw [List.mem_singleton.mp hmem] at hrel ⊢
    exact ⟨entry, hentry, PosixPath.isRelativeTo_iff.mp hrel, rfl⟩
  · intro h
    obtain ⟨entry, hentry, hunder, rfl⟩ := h
    refine ⟨normalizedPermissionEntry entry, mem_effectiveEntries_iff.mpr ⟨entry, hentry, rfl⟩, ?_⟩
    rw [entryPathVariants_eq, List.mem_map]
    refine ⟨entry.path, List.mem_filter.mpr ⟨List.mem_singleton_self _, ?_⟩, rfl⟩
    exact PosixPath.isRelativeTo_iff.mpr hunder

theorem verdicts_matchingRules :
    MostSpecific.verdicts (profile.matchingRules host path) = profile.longestAccesses path := by
  ext access
  constructor
  · intro h
    obtain ⟨rule, hrule, hverdict, hall⟩ := h
    obtain ⟨entry, hentry, hunder, rfl⟩ := mem_matchingRules_iff.mp hrule
    refine ⟨entry, hentry, hunder, hverdict, fun other hother hotherUnder => ?_⟩
    obtain ⟨last, hlast, hpath⟩ := exists_lastDeclared hother
    rw [← hpath] at hotherUnder ⊢
    exact hall _ (mem_matchingRules_iff.mpr ⟨last, hlast, hotherUnder, rfl⟩)
  · intro h
    obtain ⟨entry, hentry, hunder, haccess, hall⟩ := h
    refine ⟨_, mem_matchingRules_iff.mpr ⟨entry, hentry, hunder, rfl⟩, haccess, fun other hother => ?_⟩
    obtain ⟨last, hlast, hlastUnder, rfl⟩ := mem_matchingRules_iff.mp hother
    exact hall last hlast.mem hlastUnder

theorem matchingRules_eq_nil_iff : profile.matchingRules host path = [] ↔
    ∀ entry ∈ profile.entries, ¬ path.Under entry.path := by
  rw [List.eq_nil_iff_forall_not_mem]
  constructor
  · intro h entry hentry hunder
    obtain ⟨last, hlast, hpath⟩ := exists_lastDeclared hentry
    rw [← hpath] at hunder
    exact h _ (mem_matchingRules_iff.mpr ⟨last, hlast, hunder, rfl⟩)
  · intro h rule hrule
    obtain ⟨entry, hentry, hunder, -⟩ := mem_matchingRules_iff.mp hrule
    exact h entry hentry.mem hunder

/-! ### Decisions -/

theorem matchesAnyGlob_iff : profile.matchesAnyGlob host (pathVariants path) = true ↔
    ∃ pattern ∈ profile.deniedReadGlobs, matchesDeniedReadGlob host path pattern = true := by
  rw [pathVariants_eq, matchesAnyGlob, List.any_cons, List.any_nil, Bool.or_false, List.any_eq_true]

theorem resolve_of_glob (hglob : ∃ pattern ∈ profile.deniedReadGlobs,
    matchesDeniedReadGlob host path pattern = true) : profile.resolve host path = .deny := by
  rw [resolve, if_pos (matchesAnyGlob_iff.mpr hglob)]

theorem resolve_of_no_glob (hglob : ¬ ∃ pattern ∈ profile.deniedReadGlobs,
    matchesDeniedReadGlob host path pattern = true) :
    profile.resolve host path =
      (MostSpecific.winner (profile.matchingRules host path)).getD profile.defaultAccess := by
  rw [resolve, if_neg (fun h => hglob (matchesAnyGlob_iff.mp h)), pathVariants_eq, List.map_singleton,
    List.min?_singleton, Option.getD_some, winningRule]
  cases MostSpecific.winner (profile.matchingRules host path) <;> rfl

theorem resolve_of_no_root (hglob : ¬ ∃ pattern ∈ profile.deniedReadGlobs,
    matchesDeniedReadGlob host path pattern = true)
    (hroot : ∀ entry ∈ profile.entries, ¬ path.Under entry.path) :
    profile.resolve host path = profile.defaultAccess := by
  rw [resolve_of_no_glob hglob, matchingRules_eq_nil_iff.mpr hroot]
  rfl

theorem isLeast_resolve (hglob : ¬ ∃ pattern ∈ profile.deniedReadGlobs,
    matchesDeniedReadGlob host path pattern = true)
    (hroot : ∃ entry ∈ profile.entries, path.Under entry.path) :
    IsLeast (profile.longestAccesses path) (profile.resolve host path) := by
  rw [resolve_of_no_glob hglob, ← verdicts_matchingRules]
  cases hwinner : MostSpecific.winner (profile.matchingRules host path) with
  | some access => exact MostSpecific.isLeast_winner hwinner
  | none =>
      rw [MostSpecific.winner_eq_none_iff, matchingRules_eq_nil_iff] at hwinner
      obtain ⟨entry, hentry, hunder⟩ := hroot
      exact absurd hunder (hwinner entry hentry)

/-! ### Without the write permissions -/

theorem asReadOnly_effectiveEntries : profile.asReadOnly.effectiveEntries =
    profile.effectiveEntries.map fun entry => { entry with access := entry.access.withoutWrite } := by
  have hkey : ∀ entry : FileSystemPermissionEntry,
      spellingKey { entry with access := entry.access.withoutWrite } = spellingKey entry :=
    fun _ => rfl
  rw [effectiveEntries_eq, effectiveEntries_eq, ← Keyed.collect_map hkey, asReadOnly, List.map_map,
    List.map_map]
  rfl

theorem asReadOnly_matchingRules : profile.asReadOnly.matchingRules host path =
    (profile.matchingRules host path).map fun rule => (rule.1, rule.2.withoutWrite) := by
  rw [matchingRules, matchingRules, asReadOnly_effectiveEntries, List.flatMap_map, List.map_flatMap]
  congr 1
  funext entry
  rw [entryPathVariants_eq, entryPathVariants_eq, List.map_map]
  rfl

theorem resolve_asReadOnly : profile.asReadOnly.resolve host path =
    min (profile.resolve host path) .read := by
  by_cases hglob : ∃ pattern ∈ profile.deniedReadGlobs, matchesDeniedReadGlob host path pattern = true
  · have hreadOnly : profile.asReadOnly.resolve host path = .deny := resolve_of_glob hglob
    rw [resolve_of_glob hglob, hreadOnly]
    decide
  · have hreadOnly : profile.asReadOnly.resolve host path =
        (MostSpecific.winner (profile.asReadOnly.matchingRules host path)).getD
          profile.asReadOnly.defaultAccess := resolve_of_no_glob hglob
    rw [resolve_of_no_glob hglob, hreadOnly, asReadOnly_matchingRules, MostSpecific.winner_map FileSystemAccess.withoutWrite_monotone]
    cases MostSpecific.winner (profile.matchingRules host path) with
    | some access => exact access.withoutWrite_eq_min
    | none =>
        show (if profile.defaultAccess = .write then .read else profile.defaultAccess) = _
        generalize profile.defaultAccess = access
        cases access <;> decide

end FileSystemPermissionProfile

end OpenStarry.Sandbox
