import OpenStarry.Sandbox.PermissionRules
import Mathlib.Data.List.Dedup

/-!
# Allowed writes

A write is allowed only where the profile says so, and whatever may be written may be read. In a
workspace profile the metadata directories below a writable root are declared after the root, so that
only a writable root below such a directory opens it again.
-/

namespace OpenStarry.Sandbox

open Lib

/-! ### Path access -/

section

variable {host : PathHost} {path : PosixPath} {profile : FileSystemPermissionProfile}
  {logical : Option PosixPath}

theorem resolve_eq_write_of_min {candidates : List PosixPath}
    (h : ((candidates.map fun candidate => profile.resolve host candidate).min?).getD .deny = .write)
    {candidate : PosixPath} (hmem : candidate ∈ candidates) :
    profile.resolve host candidate = .write := by
  cases hmin : (candidates.map fun candidate => profile.resolve host candidate).min? with
  | none =>
      rw [hmin] at h
      exact absurd h (by decide)
  | some least =>
      rw [hmin, Option.getD_some] at h
      have hle := (List.min?_eq_some_iff.mp hmin).2 _ (List.mem_map_of_mem hmem)
      rw [h] at hle
      exact FileSystemAccess.eq_write_of_write_le hle

def effectiveAccess (host : PathHost) (path : PosixPath) (profile : FileSystemPermissionProfile)
    (logical : Option PosixPath) : FileSystemAccess :=
  ((([logical.getD path, path]).dedup.map fun candidate => profile.resolve host candidate).min?).getD
    .deny

theorem decideByProfile_allowed_iff {write : Bool} :
    (decideByProfile host path write profile logical).status = .allowed ↔
      effectiveAccess host path profile logical ≠ .deny ∧
        (write = false ∨ effectiveAccess host path profile logical = .write) := by
  rw [decideByProfile]
  change (if effectiveAccess host path profile logical = .deny then _
    else if !write || effectiveAccess host path profile logical = .write then _ else _ :
      MountDecision).status = _ ↔ _
  generalize effectiveAccess host path profile logical = access
  by_cases hdeny : access = .deny
  · rw [if_pos hdeny]
    split <;> simp [hdeny]
  · rw [if_neg hdeny]
    cases write <;> by_cases hwrite : access = .write <;> simp [hdeny, hwrite]

theorem resolve_of_allowed_write
    (h : (decideByProfile host path true profile logical).status = .allowed) :
    profile.resolve host path = .write := by
  obtain ⟨-, hwrite⟩ := decideByProfile_allowed_iff.mp h
  rcases hwrite with hwrite | hwrite
  · cases hwrite
  · apply resolve_eq_write_of_min hwrite
    rw [List.mem_dedup]
    exact List.mem_cons_of_mem _ (List.mem_singleton_self path)

theorem decideByProfile_read_of_write
    (h : (decideByProfile host path true profile logical).status = .allowed) :
    (decideByProfile host path false profile logical).status = .allowed := by
  rw [decideByProfile_allowed_iff] at h ⊢
  exact ⟨h.1, Or.inl rfl⟩

theorem decideByMounts_read_of_write {workspace : Option PosixPath}
    {mounts : List (PosixPath × MountAccess)}
    (h : (decideByMounts path workspace mounts true).status = .allowed) :
    (decideByMounts path workspace mounts false).status = .allowed := by
  rw [decideByMounts] at h ⊢
  by_cases hworkspace : workspace.any fun root => path.isRelativeTo root
  · rw [if_pos hworkspace]
  · rw [if_neg hworkspace] at h ⊢
    cases hmount : deepestMount (mounts.filter fun mount => path.isRelativeTo mount.1) with
    | some mount => rfl
    | none =>
        rw [hmount] at h
        cases h

theorem decidePathAccess_read_of_write {workspace : Option PosixPath}
    {mounts : List (PosixPath × MountAccess)} {profile : Option FileSystemPermissionProfile}
    (h : (decidePathAccess host path workspace mounts true profile logical).status = .allowed) :
    (decidePathAccess host path workspace mounts false profile logical).status = .allowed := by
  cases profile with
  | some profile => exact decideByProfile_read_of_write h
  | none => exact decideByMounts_read_of_write h

end

/-! ### Writable roots -/

theorem mem_of_mem_deduplicatePermissionEntries {entries : List FileSystemPermissionEntry}
    {final : FileSystemPermissionEntry} (h : final ∈ deduplicatePermissionEntries entries) :
    ∃ entry ∈ entries, normalizedPermissionEntry entry = final := by
  rw [deduplicatePermissionEntries] at h
  induction entries using List.reverseRecOn with
  | nil => simp at h
  | append_singleton front last ih =>
      rw [List.map_append, List.foldl_append, List.map_singleton, List.foldl_cons,
        List.foldl_nil] at h
      split at h
      · obtain ⟨entry, hentry, heq⟩ := ih h
        exact ⟨entry, List.mem_append_left _ hentry, heq⟩
      · rcases List.mem_append.mp h with h | h
        · obtain ⟨entry, hentry, heq⟩ := ih h
          exact ⟨entry, List.mem_append_left _ hentry, heq⟩
        · exact ⟨last, List.mem_append_right _ (List.mem_singleton_self last),
            (List.mem_singleton.mp h).symm⟩

theorem exists_mem_deduplicatePermissionEntries {entries : List FileSystemPermissionEntry}
    {entry : FileSystemPermissionEntry} (h : entry ∈ entries) :
    ∃ final ∈ deduplicatePermissionEntries entries, final.path = entry.path := by
  rw [deduplicatePermissionEntries]
  induction entries using List.reverseRecOn with
  | nil => simp at h
  | append_singleton front last ih =>
      rw [List.map_append, List.foldl_append, List.map_singleton, List.foldl_cons, List.foldl_nil]
      by_cases hfront : entry ∈ front
      · obtain ⟨final, hfinal, hpath⟩ := ih hfront
        refine ⟨final, ?_, hpath⟩
        split
        · exact hfinal
        · exact List.mem_append_left _ hfinal
      · have hlast : entry = last := by
          rcases List.mem_append.mp h with h | h
          · exact absurd h hfront
          · exact List.mem_singleton.mp h
        subst hlast
        split
        · rename_i hseen
          obtain ⟨final, hfinal, hkey⟩ := List.mem_map.mp hseen
          have htext : final.path.asPosix = entry.path.asPosix := congrArg (fun key => key.2.1) hkey
          exact ⟨final, hfinal, PosixPath.asPosix_injective htext⟩
        · exact ⟨normalizedPermissionEntry entry,
            List.mem_append_right _ (List.mem_singleton_self _), rfl⟩

def WorkspaceOptions.givenWritable (options : WorkspaceOptions) : List PosixPath :=
  options.workspace :: options.writableRoots ++
    resolveTempWritePaths options.platformContext options.tmpWritable options.tmpdirEnvWritable

namespace FileSystemPermissionProfile

variable {host : PathHost} {options : WorkspaceOptions}

@[simp] theorem platformEntryAt_path (context : FileSystemPlatformContext) (access : FileSystemAccess)
    (path : PosixPath) : (platformEntryAt host context access path).path = path :=
  canonicalPlatformPath_eq host path context

theorem declaredWritable_spec {entry : FileSystemPermissionEntry}
    (h : entry ∈ declaredWritable host options) :
    entry.access = .write ∧ entry.path ∈ options.givenWritable := by
  obtain ⟨source, hsource, rfl⟩ := mem_of_mem_deduplicatePermissionEntries h
  rw [normalizedPermissionEntry_access, normalizedPermissionEntry_path]
  rw [WorkspaceOptions.givenWritable]
  rw [List.mem_append] at hsource ⊢
  rcases hsource with hsource | hsource
  · rcases List.mem_cons.mp hsource with rfl | hsource
    · exact ⟨rfl, Or.inl List.mem_cons_self⟩
    · obtain ⟨root, hroot, rfl⟩ := List.mem_map.mp hsource
      exact ⟨rfl, Or.inl (List.mem_cons_of_mem _ hroot)⟩
  · obtain ⟨root, hroot, rfl⟩ := List.mem_map.mp hsource
    rw [platformEntryAt_path]
    exact ⟨rfl, Or.inr hroot⟩

theorem exists_declaredWritable {root : PosixPath} (h : root ∈ options.givenWritable) :
    ∃ entry ∈ declaredWritable host options, entry.path = root := by
  have hgiven : ∃ entry ∈ entryAt .write options.workspace :: options.writableRoots.map (entryAt .write)
      ++ (resolveTempWritePaths options.platformContext options.tmpWritable
        options.tmpdirEnvWritable).map (platformEntryAt host options.platformContext .write),
      entry.path = root := by
    rw [WorkspaceOptions.givenWritable, List.mem_append] at h
    rcases h with h | h
    · rcases List.mem_cons.mp h with rfl | h
      · exact ⟨_, List.mem_append_left _ List.mem_cons_self, rfl⟩
      · exact ⟨_, List.mem_append_left _ (List.mem_cons_of_mem _ (List.mem_map_of_mem h)), rfl⟩
    · exact ⟨_, List.mem_append_right _ (List.mem_map_of_mem h), platformEntryAt_path _ _ root⟩
  obtain ⟨entry, hentry, rfl⟩ := hgiven
  exact exists_mem_deduplicatePermissionEntries hentry

/-! ### Protected metadata -/

theorem mem_after_of_append_eq {α : Type} {front back before after : List α} {x : α}
    (h : front ++ back = before ++ x :: after) (hx : x ∉ back) {y : α} (hy : y ∈ back) :
    y ∈ after := by
  rcases List.append_eq_append_iff.mp h with ⟨middle, -, hback⟩ | ⟨middle, -, hafter⟩
  · rw [hback] at hx
    exact absurd (List.mem_append_right _ List.mem_cons_self) hx
  · cases middle with
    | nil =>
        rw [List.nil_append] at hafter
        rw [← hafter] at hx
        exact absurd List.mem_cons_self hx
    | cons first rest =>
        rw [List.cons_append, List.cons.injEq] at hafter
        rw [hafter.2]
        exact List.mem_append_right _ hy

theorem workspace_write {entry : FileSystemPermissionEntry}
    (h : entry ∈ (workspace host options).entries) (hwrite : entry.access = .write) :
    entry ∈ declaredWritable host options := by
  rw [workspace, List.mem_append, List.mem_append, List.mem_append, List.mem_append] at h
  rcases h with (((h | h) | h) | h) | h
  · split at h
    · rw [List.mem_singleton.mp h] at hwrite
      cases hwrite
    · simp at h
  · obtain ⟨root, -, rfl⟩ := List.mem_map.mp h
    cases hwrite
  · exact h
  · split at h
    · obtain ⟨root, -, h⟩ := List.mem_flatMap.mp h
      obtain ⟨name, -, rfl⟩ := List.mem_map.mp h
      cases hwrite
    · simp at h
  · obtain ⟨root, -, rfl⟩ := List.mem_map.mp h
    cases hwrite

theorem metadata_declared {root : PosixPath} {name : Str} (hname : name ∈ protectedMetadataNames)
    (hprotect : options.protectMetadata = true) (hroot : root ∈ options.givenWritable)
    {before after : List FileSystemPermissionEntry} {entry : FileSystemPermissionEntry}
    (hsplit : (workspace host options).entries = before ++ entry :: after)
    (hwrite : entry.access = .write) :
    ∃ metadata ∈ after, metadata.path = root.child name (isPart_of_protected hname) := by
  obtain ⟨given, hgiven, rfl⟩ := exists_declaredWritable hroot
  have hmetadata : entryAt .read (given.path.child name (isPart_of_protected hname)) ∈
      metadataEntries given := by
    rw [metadataEntries, ← given.lexicalPath_eq]
    exact List.mem_map_of_mem (List.mem_attach _ ⟨name, hname⟩)
  rw [workspace, if_pos hprotect, List.append_assoc] at hsplit
  refine ⟨_, mem_after_of_append_eq hsplit ?_ (List.mem_append_left _
    (List.mem_flatMap.mpr ⟨given, hgiven, hmetadata⟩)), rfl⟩
  -- nothing behind the writable roots declares a write
  intro hmem
  rcases List.mem_append.mp hmem with hmem | hmem
  · obtain ⟨other, -, hmem⟩ := List.mem_flatMap.mp hmem
    obtain ⟨part, -, rfl⟩ := List.mem_map.mp hmem
    cases hwrite
  · obtain ⟨denied, -, rfl⟩ := List.mem_map.mp hmem
    cases hwrite

theorem workspace_protects_metadata {root path : PosixPath} {name : Str}
    (hname : name ∈ protectedMetadataNames) (hprotect : options.protectMetadata = true)
    (hroot : root ∈ options.givenWritable)
    (hunder : path.Under (root.child name (isPart_of_protected hname)))
    (hresolve : (workspace host options).resolve host path = .write) :
    ∃ inner ∈ options.givenWritable, inner.Under (root.child name (isPart_of_protected hname)) ∧
      inner ≠ root.child name (isPart_of_protected hname) := by
  have hglob : ¬ ∃ pattern ∈ (workspace host options).deniedReadGlobs,
      matchesDeniedReadGlob host path pattern = true := by
    intro hglob
    rw [resolve_of_glob hglob] at hresolve
    cases hresolve
  by_cases hnone : ∀ entry ∈ (workspace host options).entries, ¬ path.Under entry.path
  · rw [resolve_of_no_root hglob hnone] at hresolve
    cases hresolve
  · have hsome : ∃ entry ∈ (workspace host options).entries, path.Under entry.path := by
      by_contra hcontra
      exact hnone fun entry hentry hpath => hcontra ⟨entry, hentry, hpath⟩
    obtain ⟨entry, ⟨before, after, hsplit, hlast⟩, hpath, haccess, hlongest⟩ :=
      (isLeast_resolve hglob hsome).1
    rw [hresolve] at haccess
    obtain ⟨metadata, hmetadata, heq⟩ := metadata_declared hname hprotect hroot hsplit haccess
    have hmem : metadata ∈ (workspace host options).entries := by
      rw [hsplit]
      exact List.mem_append_right _ (List.mem_cons_of_mem _ hmetadata)
    rw [← heq] at hunder ⊢
    have hentry : entry ∈ (workspace host options).entries := by
      rw [hsplit]
      exact List.mem_append_right _ List.mem_cons_self
    exact ⟨entry.path, (declaredWritable_spec (workspace_write hentry haccess)).2,
      hpath.under_of_le hunder (hlongest metadata hmem hunder), (hlast metadata hmetadata).symm⟩

/-- How a profile decides: a denied glob, else the most restrictive of the last declarations of the
longest roots, else the default. Without its write permissions it gives no more than reading, an
allowed write is a resolved one and comes with the read, and the metadata of a workspace stays
protected. -/
theorem filesystem_permissions (host : PathHost) (profile : FileSystemPermissionProfile)
    (path : PosixPath) :
    ((∃ pattern ∈ profile.deniedReadGlobs, matchesDeniedReadGlob host path pattern = true) →
      profile.resolve host path = .deny) ∧
    ((¬ ∃ pattern ∈ profile.deniedReadGlobs, matchesDeniedReadGlob host path pattern = true) →
      (∃ entry ∈ profile.entries, path.Under entry.path) →
        IsLeast (profile.longestAccesses path) (profile.resolve host path)) ∧
    ((¬ ∃ pattern ∈ profile.deniedReadGlobs, matchesDeniedReadGlob host path pattern = true) →
      (∀ entry ∈ profile.entries, ¬ path.Under entry.path) →
        profile.resolve host path = profile.defaultAccess) ∧
    profile.asReadOnly.resolve host path = min (profile.resolve host path) .read ∧
    (∀ workspace mounts logical,
      (decidePathAccess host path workspace mounts true (some profile) logical).status = .allowed →
        profile.resolve host path = .write) ∧
    (∀ workspace mounts active logical,
      (decidePathAccess host path workspace mounts true active logical).status = .allowed →
        (decidePathAccess host path workspace mounts false active logical).status = .allowed) ∧
    ∀ (options : WorkspaceOptions) (root : PosixPath) (name : Str)
      (hname : name ∈ protectedMetadataNames), options.protectMetadata = true →
        root ∈ options.givenWritable →
        path.Under (root.child name (isPart_of_protected hname)) →
        (workspace host options).resolve host path = .write →
          ∃ inner ∈ options.givenWritable,
            inner.Under (root.child name (isPart_of_protected hname)) ∧
              inner ≠ root.child name (isPart_of_protected hname) := by
  refine ⟨resolve_of_glob, isLeast_resolve, resolve_of_no_root, resolve_asReadOnly, ?_, ?_, ?_⟩
  · intro workspace mounts logical h
    exact resolve_of_allowed_write h
  · intro workspace mounts active logical h
    exact decidePathAccess_read_of_write h
  · intro options root name hname hprotect hroot hunder hresolve
    exact workspace_protects_metadata hname hprotect hroot hunder hresolve

end FileSystemPermissionProfile

end OpenStarry.Sandbox
