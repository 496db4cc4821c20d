import Mathlib.Data.List.Infix
import OpenStarry.Lib.Text

/-!
# A file system without symbolic links

A tree of directories and files under absolute paths. Nothing else writes to it and no operation
fails for a reason other than what stands at the paths it names. A failed operation leaves the
file system as it was.
-/

namespace OpenStarry.Lib

abbrev AbsPath := List String

namespace AbsPath

def parent (path : AbsPath) : AbsPath := path.dropLast

def ancestors (path : AbsPath) : List AbsPath := path.inits

theorem mem_ancestors {ancestor path : AbsPath} : ancestor ∈ ancestors path ↔ ancestor <+: path :=
  List.mem_inits _ _

theorem parent_prefix (path : AbsPath) : parent path <+: path := List.dropLast_prefix _

theorem not_prefix_parent {path : AbsPath} (h : path ≠ []) : ¬ path <+: parent path := by
  intro hpre
  have hlength := hpre.length_le
  have hpos := List.length_pos_iff.mpr h
  rw [parent, List.length_dropLast] at hlength
  omega

end AbsPath

/-- What a file holds, as far as reading it as UTF-8 text goes. -/
inductive FileContent where
  | text (text : Str)
  | undecodable (bytes : List UInt8)
  deriving DecidableEq, Repr

inductive Node where
  | file (content : FileContent)
  | dir
  deriving DecidableEq, Repr

inductive OSError where
  | fileNotFound (path : AbsPath)
  | fileExists (path : AbsPath)
  | isADirectory (path : AbsPath)
  | notADirectory (path : AbsPath)
  | unicodeDecode (path : AbsPath)
  deriving DecidableEq, Repr

/-- Whatever exists stands in a directory. -/
@[ext] structure FileSystem where
  node : AbsPath → Option Node
  root : node [] = some .dir
  parent_dir : ∀ path : AbsPath, path ≠ [] → (node path).isSome → node path.parent = some .dir

namespace FileSystem

variable (fs : FileSystem)

def Exists (path : AbsPath) : Bool := (fs.node path).isSome

def isDir (path : AbsPath) : Bool := fs.node path == some .dir

def isFile (path : AbsPath) : Bool :=
  match fs.node path with
  | some (.file _) => true
  | _ => false

theorem isFile_iff {path : AbsPath} :
    fs.isFile path = true ↔ ∃ content, fs.node path = some (.file content) := by
  unfold isFile
  split
  · rename_i content hnode
    simp [hnode]
  · rename_i hnode
    simp only [Bool.false_eq_true, false_iff]
    rintro ⟨content, hcontent⟩
    exact hnode content hcontent

theorem isFile_eq_false_iff {path : AbsPath} :
    fs.isFile path = false ↔ fs.node path = none ∨ fs.node path = some .dir := by
  unfold isFile
  split
  · rename_i content hnode
    simp [hnode]
  · rename_i hnode
    cases hcase : fs.node path with
    | none => simp
    | some node =>
        cases node with
        | file content => exact absurd hcase (hnode content)
        | dir => simp

theorem isFile_eq (path : AbsPath) : fs.isFile path = (fs.Exists path && !fs.isDir path) := by
  unfold isFile Exists isDir
  cases fs.node path with
  | none => rfl
  | some node => cases node <;> simp

theorem exists_of_isFile {path : AbsPath} (h : fs.isFile path = true) : fs.Exists path = true := by
  rw [isFile_eq, Bool.and_eq_true] at h
  exact h.1

theorem dir_of_prefix {path above : AbsPath} (h : fs.Exists path = true) (hpre : above <+: path)
    (hne : above ≠ path) : fs.node above = some .dir := by
  induction path using List.reverseRecOn with
  | nil => exact absurd (List.prefix_nil.mp hpre) hne
  | append_singleton path name ih =>
      have hparent : fs.node path = some .dir := by
        simpa [AbsPath.parent] using fs.parent_dir (path ++ [name]) (by simp) h
      rcases List.prefix_concat_iff.mp hpre with rfl | hpre
      · exact absurd rfl hne
      · by_cases heq : above = path
        · exact heq ▸ hparent
        · exact ih (by simp [Exists, hparent]) hpre heq

def rootOnly : FileSystem :=
  { node := fun path => if path = [] then some .dir else none
    root := rfl
    parent_dir := fun path hne h => by simp [hne] at h }

/-! ### Operations -/

/-- `mkdir(parents=True, exist_ok=True)`. -/
def mkdirParents (path : AbsPath) : Except OSError FileSystem :=
  match path.ancestors.find? fs.isFile with
  | some file => .error (if file = path then .fileExists path else .notADirectory path)
  | none =>
      .ok
        { node := fun other => if other <+: path then some .dir else fs.node other
          root := if_pos (List.nil_prefix)
          parent_dir := fun other hother hexists => by
            split_ifs with hparent
            · rfl
            · have habove : ¬ other <+: path := fun h =>
                hparent ((AbsPath.parent_prefix other).trans h)
              rw [if_neg habove] at hexists
              exact fs.parent_dir other hother hexists }

theorem ne_nil_of_node_ne_dir {path : AbsPath} (h : fs.node path ≠ some .dir) : path ≠ [] := by
  rintro rfl
  exact h fs.root

theorem parent_ne {path : AbsPath} (h : path ≠ []) : path.parent ≠ path := fun heq =>
  AbsPath.not_prefix_parent h (heq.symm ▸ List.prefix_refl path)

theorem parent_dir_update {path : AbsPath} {content : Option Node}
    (hpath : fs.node path ≠ some .dir)
    (hparent : content.isSome → fs.node path.parent = some .dir) (other : AbsPath)
    (hother : other ≠ []) (hexists : (Function.update fs.node path content other).isSome) :
    Function.update fs.node path content other.parent = some .dir := by
  have hne : path ≠ [] := fs.ne_nil_of_node_ne_dir hpath
  by_cases heq : other = path
  · subst heq
    rw [Function.update_self] at hexists
    rw [Function.update_of_ne (parent_ne hne)]
    exact hparent hexists
  · rw [Function.update_of_ne heq] at hexists
    have hdir := fs.parent_dir other hother hexists
    rw [Function.update_of_ne fun h : other.parent = path => hpath (h ▸ hdir)]
    exact hdir

theorem root_update {path : AbsPath} (content : Option Node) (hpath : fs.node path ≠ some .dir) :
    Function.update fs.node path content [] = some .dir := by
  rw [Function.update_of_ne (fs.ne_nil_of_node_ne_dir hpath).symm]
  exact fs.root

/-- `write_text`: the parent must be a directory. -/
def writeText (path : AbsPath) (text : Str) : Except OSError FileSystem :=
  if hpath : fs.node path = some .dir then .error (.isADirectory path)
  else if hparent : fs.node path.parent = some .dir then
    .ok
      { node := Function.update fs.node path (some (.file (.text text)))
        root := fs.root_update _ hpath
        parent_dir := fs.parent_dir_update hpath fun _ => hparent }
  else if fs.Exists path.parent then .error (.notADirectory path)
  else .error (.fileNotFound path)

/-- `unlink`. -/
def unlink (path : AbsPath) : Except OSError FileSystem :=
  if hpath : fs.node path = some .dir then .error (.isADirectory path)
  else if fs.Exists path then
    .ok
      { node := Function.update fs.node path none
        root := fs.root_update _ hpath
        parent_dir := fs.parent_dir_update hpath fun h => by simp at h }
  else .error (.fileNotFound path)

/-- `read_text`, with universal newlines. -/
def readText (path : AbsPath) : Except OSError Str :=
  match fs.node path with
  | none => .error (.fileNotFound path)
  | some .dir => .error (.isADirectory path)
  | some (.file (.undecodable _)) => .error (.unicodeDecode path)
  | some (.file (.text text)) => .ok (Text.universalNewlines text)

/-! ### What the operations do -/

variable {fs}

theorem mkdirParents_ok {path : AbsPath} (h : ∀ above, above <+: path → fs.isFile above = false) :
    ∃ fs', fs.mkdirParents path = .ok fs' ∧
      ∀ other, fs'.node other = if other <+: path then some .dir else fs.node other := by
  have hfind : path.ancestors.find? fs.isFile = none :=
    List.find?_eq_none.mpr fun above habove => by simp [h above (AbsPath.mem_ancestors.mp habove)]
  unfold mkdirParents
  split
  · rename_i file hfile
    rw [hfind] at hfile
    exact absurd hfile (by simp)
  · exact ⟨_, rfl, fun _ => rfl⟩

theorem mkdirParents_eq_self {path : AbsPath} (h : fs.node path = some .dir) :
    fs.mkdirParents path = .ok fs := by
  have habove : ∀ above, above <+: path → fs.node above = some .dir := by
    intro above hpre
    by_cases heq : above = path
    · exact heq ▸ h
    · exact fs.dir_of_prefix (by simp [Exists, h]) hpre heq
  obtain ⟨fs', hfs', hnode⟩ := mkdirParents_ok fun above hpre =>
    fs.isFile_eq_false_iff.mpr (.inr (habove above hpre))
  have hsame : fs' = fs := by
    apply FileSystem.ext
    funext other
    rw [hnode]
    split_ifs with hpre
    · exact (habove other hpre).symm
    · rfl
  rw [hfs', hsame]

theorem writeText_ok {path : AbsPath} (hpath : fs.node path ≠ some .dir)
    (hparent : fs.node path.parent = some .dir) (text : Str) :
    ∃ fs', fs.writeText path text = .ok fs' ∧
      fs'.node = Function.update fs.node path (some (.file (.text text))) := by
  unfold writeText
  rw [dif_neg hpath, dif_pos hparent]
  exact ⟨_, rfl, rfl⟩

theorem unlink_ok {path : AbsPath} (h : fs.isFile path = true) :
    ∃ fs', fs.unlink path = .ok fs' ∧ fs'.node = Function.update fs.node path none := by
  obtain ⟨content, hnode⟩ := fs.isFile_iff.mp h
  unfold unlink
  rw [dif_neg (by simp [hnode]), if_pos (by simp [Exists, hnode])]
  exact ⟨_, rfl, rfl⟩

theorem readText_congr {fs' : FileSystem} {path : AbsPath} (h : fs'.node path = fs.node path) :
    fs'.readText path = fs.readText path := by
  rw [readText, readText, h]

theorem readText_text {path : AbsPath} {text : Str} (h : fs.node path = some (.file (.text text)))
    (hreturn : '\r' ∉ text) : fs.readText path = .ok text := by
  rw [readText, h]
  exact congrArg Except.ok (Text.universalNewlines_eq_self hreturn)

theorem node_of_readText {path : AbsPath} {text : Str} (h : fs.readText path = .ok text) :
    (∃ stored, fs.node path = some (.file (.text stored))) ∧ '\r' ∉ text := by
  unfold readText at h
  split at h <;> try simp at h
  rename_i stored hnode
  exact ⟨⟨stored, hnode⟩, h ▸ Text.return_notMem_universalNewlines stored⟩

end FileSystem

end OpenStarry.Lib
