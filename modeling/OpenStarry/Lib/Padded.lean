import Mathlib.Algebra.GroupWithZero.Nat
import OpenStarry.Lib.Text

/-!
# The order of texts made of fixed-width fields

Texts are compared character by character, by code points. Numbers written with a fixed number of
digits compare as the numbers do, and a text of several such fields compares by its first field that
differs.
-/

namespace OpenStarry.Lib.Text

def before : Str → Str → Bool
  | _, [] => false
  | [], _ :: _ => true
  | c :: s, d :: t => if c = d then before s t else decide (c.toNat < d.toNat)

/-- `<=`. -/
def notAfter (s t : Str) : Prop := before t s = false

instance (s t : Str) : Decidable (notAfter s t) := inferInstanceAs (Decidable (_ = _))

@[simp] theorem before_nil_right (s : Str) : before s [] = false := by cases s <;> rfl

@[simp] theorem before_cons_self (c : Char) (s t : Str) : before (c :: s) (c :: t) = before s t :=
  if_pos rfl

theorem before_cons_of_ne {c d : Char} (h : c ≠ d) (s t : Str) :
    before (c :: s) (d :: t) = decide (c.toNat < d.toNat) :=
  if_neg h

theorem before_self (s : Str) : before s s = false := by
  induction s with
  | nil => rfl
  | cons c s ih => rw [before_cons_self, ih]

theorem eq_of_not_before {s t : Str} (h : before s t = false) (h' : before t s = false) : s = t := by
  induction s generalizing t with
  | nil =>
      cases t with
      | nil => rfl
      | cons d t => exact absurd h (Bool.noConfusion ·)
  | cons c s ih =>
      cases t with
      | nil => exact absurd h' (Bool.noConfusion ·)
      | cons d t =>
          by_cases hsame : c = d
          · rw [hsame, before_cons_self] at h h'
            rw [hsame, ih h h']
          · rw [before_cons_of_ne hsame, decide_eq_false_iff_not] at h
            rw [before_cons_of_ne (Ne.symm hsame), decide_eq_false_iff_not] at h'
            exact absurd (Char.toNat_inj.mp (by omega)) hsame

theorem before_append {front front' : Str} (h : front.length = front'.length) (back back' : Str) :
    before (front ++ back) (front' ++ back') = true ↔
      before front front' = true ∨ front = front' ∧ before back back' = true := by
  induction front generalizing front' with
  | nil =>
      obtain rfl : front' = [] := List.length_eq_zero_iff.mp h.symm
      simp
  | cons c front ih =>
      obtain _ | ⟨d, front'⟩ := front'
      · exact absurd h (Nat.succ_ne_zero _)
      · rw [List.cons_append, List.cons_append]
        by_cases hsame : c = d
        · rw [hsame, before_cons_self, before_cons_self, ih (Nat.succ.inj h), List.cons.injEq]
          tauto
        · rw [before_cons_of_ne hsame, before_cons_of_ne hsame, List.cons.injEq]
          tauto

/-! ### Fixed-width numbers -/

def digitChar (n : Nat) : Char := Char.ofNat (48 + n % 10)

/-- The last `width` digits of a number, as `%0widthd` writes a number that has no more. -/
def padded : Nat → Nat → Str
  | 0, _ => []
  | width + 1, n => padded width (n / 10) ++ [digitChar n]

@[simp] theorem length_padded (width n : Nat) : (padded width n).length = width := by
  induction width generalizing n with
  | zero => rfl
  | succ width ih => rw [padded, List.length_append, ih, List.length_singleton]

theorem toNat_digitChar (n : Nat) : (digitChar n).toNat = 48 + n % 10 := by
  have hvalid : (48 + n % 10).isValidChar := Or.inl (by omega)
  rw [digitChar, Char.ofNat, dif_pos hvalid]
  rfl

theorem digitChar_inj {m n : Nat} : digitChar m = digitChar n ↔ m % 10 = n % 10 := by
  constructor
  · intro h
    have hcode := congrArg Char.toNat h
    rw [toNat_digitChar, toNat_digitChar] at hcode
    omega
  · intro h
    rw [digitChar, digitChar, h]

theorem before_digitChar {m n : Nat} :
    before [digitChar m] [digitChar n] = true ↔ m % 10 < n % 10 := by
  by_cases hsame : digitChar m = digitChar n
  · rw [hsame, before_self]
    have hdigits := digitChar_inj.mp hsame
    exact ⟨nofun, fun h => absurd h (by omega)⟩
  · rw [before_cons_of_ne hsame, decide_eq_true_eq, toNat_digitChar, toNat_digitChar]
    omega

section

variable {width m n : Nat} (hm : m < 10 ^ width) (hn : n < 10 ^ width)

include hm hn

theorem padded_inj : padded width m = padded width n ↔ m = n := by
  induction width generalizing m n with
  | zero =>
      rw [Nat.pow_zero, Nat.lt_one_iff] at hm hn
      exact ⟨fun _ => hm.trans hn.symm, fun _ => rfl⟩
  | succ width ih =>
      rw [Nat.pow_succ] at hm hn
      constructor
      · intro h
        obtain ⟨hfront, hlast⟩ := List.append_inj h (by simp)
        have hhigh := (ih (Nat.div_lt_of_lt_mul (by omega))
          (Nat.div_lt_of_lt_mul (by omega))).mp hfront
        have hlow := digitChar_inj.mp (List.singleton_inj.mp hlast)
        omega
      · intro h
        rw [h]

theorem before_padded : before (padded width m) (padded width n) = true ↔ m < n := by
  induction width generalizing m n with
  | zero =>
      rw [Nat.pow_zero, Nat.lt_one_iff] at hm hn
      exact ⟨nofun, fun h => absurd h (by omega)⟩
  | succ width ih =>
      rw [Nat.pow_succ] at hm hn
      have hmfront : m / 10 < 10 ^ width := Nat.div_lt_of_lt_mul (by omega)
      have hnfront : n / 10 < 10 ^ width := Nat.div_lt_of_lt_mul (by omega)
      rw [padded, padded, before_append (by simp), ih hmfront hnfront,
        padded_inj hmfront hnfront, before_digitChar]
      omega

theorem before_padded_append (rest rest' : Str) :
    before (padded width m ++ rest) (padded width n ++ rest') = true ↔
      m < n ∨ m = n ∧ before rest rest' = true := by
  rw [before_append (by simp), before_padded hm hn, padded_inj hm hn]

end

example : before (padded 4 999) (padded 4 1000) = true := by decide

end OpenStarry.Lib.Text
