import Mathlib.Data.Nat.Bitwise

/-!
# Files with an identity

A disk holds at most one file under a name. A file keeps its device and inode wherever it is moved;
its mode, its size and the time of its last change go with it. A move never replaces a file.
-/

namespace OpenStarry.Lib

/-- What a program can tell a file by without reading it. -/
structure Identity where
  device : Nat
  inode : Nat
  mode : Nat
  size : Nat
  modifiedAt : Nat
  deriving DecidableEq

structure File (β : Type) where
  device : Nat
  inode : Nat
  mode : Nat
  modifiedAt : Nat
  data : β

/-! ### Modes -/

/-- `stat.S_IFMT`. -/
def fileType (mode : Nat) : Nat := mode &&& 0o170000

/-- `stat.S_IMODE`. -/
def permissions (mode : Nat) : Nat := mode &&& 0o7777

def regular : Nat := 0o100000

/-- The mode of a file after `fchmod`. -/
def chmodMode (mode perm : Nat) : Nat := fileType mode ||| permissions perm

theorem fileType_chmodMode (mode perm : Nat) : fileType (chmodMode mode perm) = fileType mode := by
  rw [fileType, chmodMode, fileType, permissions, Nat.and_or_distrib_right, Nat.and_assoc,
    Nat.and_assoc]
  show mode &&& 0o170000 ||| perm &&& 0 = mode &&& 0o170000
  rw [Nat.and_zero, Nat.or_zero]

theorem chmodMode_chmodMode (mode first second : Nat) :
    chmodMode (chmodMode mode first) second = chmodMode mode second := by
  rw [chmodMode, fileType_chmodMode, chmodMode]

namespace File

variable {β : Type}

def identity (size : β → Nat) (f : File β) : Identity :=
  ⟨f.device, f.inode, f.mode, size f.data, f.modifiedAt⟩

def chmod (f : File β) (perm : Nat) : File β := { f with mode := chmodMode f.mode perm }

def SameObject (f g : File β) : Prop := f.device = g.device ∧ f.inode = g.inode

instance (f g : File β) : Decidable (SameObject f g) := inferInstanceAs (Decidable (_ ∧ _))

@[simp] theorem chmod_device (f : File β) (perm : Nat) : (f.chmod perm).device = f.device := rfl
@[simp] theorem chmod_inode (f : File β) (perm : Nat) : (f.chmod perm).inode = f.inode := rfl
@[simp] theorem chmod_data (f : File β) (perm : Nat) : (f.chmod perm).data = f.data := rfl
@[simp] theorem chmod_modifiedAt (f : File β) (perm : Nat) :
    (f.chmod perm).modifiedAt = f.modifiedAt := rfl

theorem chmod_chmod (f : File β) (first second : Nat) :
    (f.chmod first).chmod second = f.chmod second := by
  rw [chmod, chmod, chmod, chmodMode_chmodMode]

end File

abbrev Disk (ν β : Type) := ν → Option (File β)

namespace Disk

variable {ν β : Type} [DecidableEq ν] (d : Disk ν β)

def put (name : ν) (file : Option (File β)) : Disk ν β := Function.update d name file

def move (source destination : ν) : Option (Disk ν β) :=
  match d source, d destination with
  | some file, none => some ((d.put source none).put destination (some file))
  | _, _ => none

/-- `os.open` with `O_CREAT | O_EXCL`. -/
def create (name : ν) (file : File β) : Option (Disk ν β) :=
  match d name with
  | none => some (d.put name (some file))
  | some _ => none

def change (name : ν) (f : File β → File β) : Disk ν β := d.put name ((d name).map f)

variable {d} {name other : ν} {file : Option (File β)}

@[simp] theorem put_self : d.put name file name = file := Function.update_self ..

theorem put_other (h : other ≠ name) : d.put name file other = d other :=
  Function.update_of_ne h ..

theorem put_put (first second : Option (File β)) :
    (d.put name first).put name second = d.put name second := Function.update_idem ..

theorem put_eq_self (h : d name = file) : d.put name file = d := by
  rw [put, ← h, Function.update_eq_self]

theorem move_eq_some {source destination : ν} {f : File β} (hsource : d source = some f)
    (hdestination : d destination = none) :
    d.move source destination = some ((d.put source none).put destination (some f)) := by
  rw [move, hsource, hdestination]

end Disk

end OpenStarry.Lib
