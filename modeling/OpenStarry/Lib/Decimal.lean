import OpenStarry.Lib.Text

/-!
# Decimal numbers in text

`str` of a natural number, the character class `\d` and `int` of a text of digits. The class holds
the decimal digits of every script; they come in runs of ten, so a digit's value is its distance
from the zero of its run.
-/

namespace OpenStarry.Lib.Text

/-- The code points of the characters that are a zero, in the order of the code points. -/
def decimalZeros : List Nat :=
  [0x30, 0x660, 0x6f0, 0x7c0, 0x966, 0x9e6, 0xa66, 0xae6, 0xb66, 0xbe6, 0xc66, 0xce6, 0xd66, 0xde6,
   0xe50, 0xed0, 0xf20, 0x1040, 0x1090, 0x17e0, 0x1810, 0x1946, 0x19d0, 0x1a80, 0x1a90, 0x1b50,
   0x1bb0, 0x1c40, 0x1c50, 0xa620, 0xa8d0, 0xa900, 0xa9d0, 0xa9f0, 0xaa50, 0xabf0, 0xff10, 0x104a0,
   0x10d30, 0x11066, 0x110f0, 0x11136, 0x111d0, 0x112f0, 0x11450, 0x114d0, 0x11650, 0x116c0,
   0x11730, 0x118e0, 0x11950, 0x11c50, 0x11d50, 0x11da0, 0x16a60, 0x16ac0, 0x16b50, 0x1d7ce,
   0x1d7d8, 0x1d7e2, 0x1d7ec, 0x1d7f6, 0x1e140, 0x1e2f0, 0x1e950, 0x1fbf0]

def digitValue (c : Char) : Option Nat :=
  (decimalZeros.find? fun start => start ≤ c.toNat && c.toNat < start + 10).map (c.toNat - ·)

/-- `\d`. -/
def isDecimal (c : Char) : Bool := (digitValue c).isSome

/-- `int(text)` of a text of decimal digits. -/
def intOf (text : Str) : Nat := text.foldl (fun value c => 10 * value + (digitValue c).getD 0) 0

/-- `str(n)`. -/
def decimal (n : Nat) : Str := Nat.toDigits 10 n

theorem isDigit_iff_toNat {c : Char} :
    c.isDigit = true ↔ 0x30 ≤ c.toNat ∧ c.toNat < 0x30 + 10 := by
  have hzero : '0'.toNat = 0x30 := rfl
  have hnine : '9'.toNat = 0x39 := rfl
  simp only [Char.isDigit, Bool.and_eq_true, decide_eq_true_eq, ge_iff_le, UInt32.le_iff_toNat_le,
    Char.toNat_val]
  omega

theorem digitValue_of_isDigit {c : Char} (h : c.isDigit = true) :
    digitValue c = some (c.toNat - '0'.toNat) := by
  simp only [digitValue, decimalZeros]
  rw [List.find?_cons_of_pos (by simpa using isDigit_iff_toNat.mp h)]
  rfl

theorem isDecimal_of_isDigit {c : Char} (h : c.isDigit = true) : isDecimal c = true := by
  rw [isDecimal, digitValue_of_isDigit h, Option.isSome_some]

theorem isDigit_of_mem_decimal {n : Nat} {c : Char} (h : c ∈ decimal n) : c.isDigit = true :=
  Nat.isDigit_of_mem_toDigits (by decide) (by decide) h

theorem decimal_ne_nil (n : Nat) : decimal n ≠ [] := Nat.toDigits_ne_nil

/-- On ASCII digits `int` is the positional value. -/
theorem intOf_eq_ofDigitChars {text : Str} (h : ∀ c ∈ text, c.isDigit = true) :
    intOf text = Nat.ofDigitChars 10 text 0 := by
  have hfold : ∀ value : Nat,
      text.foldl (fun value c => 10 * value + (digitValue c).getD 0) value =
        Nat.ofDigitChars 10 text value := by
    induction text with
    | nil => intro value; rfl
    | cons c rest ih =>
        intro value
        rw [List.foldl_cons, digitValue_of_isDigit (h c List.mem_cons_self),
          Nat.ofDigitChars_cons]
        exact ih (fun c hc => h c (List.mem_cons_of_mem _ hc)) _
  exact hfold 0

@[simp] theorem intOf_decimal (n : Nat) : intOf (decimal n) = n := by
  rw [intOf_eq_ofDigitChars fun c hc => isDigit_of_mem_decimal hc, decimal,
    Nat.ofDigitChars_ten_toDigits]

theorem singleLine_decimal (n : Nat) : SingleLine (decimal n) := by
  intro c hc
  have hdigit := isDigit_of_mem_decimal hc
  have hrange := isDigit_iff_toNat.mp hdigit
  simp only [isLineBoundary, Bool.or_eq_false_iff, Bool.and_eq_false_iff, decide_eq_false_iff_not,
    beq_eq_false_iff_ne]
  omega

/-!
## Reading integers

`int` of a text: whitespace around it, one sign, and decimal digits of any script with single
underscores between them. Texts of too many digits are refused.
-/

/-- `sys.get_int_max_str_digits()`. -/
def maxStrDigits : Nat := 4300

def isGrouped : Str → Bool
  | [] => false
  | [c] => isDecimal c
  | c :: d :: rest => isDecimal c && if d = '_' then isGrouped rest else isGrouped (d :: rest)

def readDigits (text : Str) : Option Nat :=
  let digits := text.filter (· ≠ '_')
  if isGrouped text && decide (digits.length ≤ maxStrDigits) then some (intOf digits) else none

/-- `int(text)`, `none` for its error. -/
def readInt (text : Str) : Option Int :=
  match strip text with
  | '-' :: digits => (readDigits digits).map fun n : Nat => -(n : Int)
  | '+' :: digits => (readDigits digits).map Int.ofNat
  | digits => (readDigits digits).map Int.ofNat

/-- `str(value)`. -/
def intText (value : Int) : Str :=
  if value < 0 then '-' :: decimal value.natAbs else decimal value.natAbs

/-! ### What a text that reads is made of -/

def isIntChar (c : Char) : Bool := isSpace c || isDecimal c || c = '_' || c = '+' || c = '-'

theorem isIntChar_of_isGrouped {text : Str} (h : isGrouped text = true) :
    ∀ c ∈ text, isIntChar c = true := by
  have hdigit : ∀ c, isDecimal c = true → isIntChar c = true := by
    intro c hc
    rw [isIntChar, hc, Bool.or_true, Bool.true_or, Bool.true_or, Bool.true_or]
  induction text using isGrouped.induct with
  | case1 => exact nofun
  | case2 c =>
      rw [isGrouped] at h
      rw [List.forall_mem_singleton]
      exact hdigit c h
  | case3 c d rest ihjoin ihdigit =>
      rw [isGrouped, Bool.and_eq_true] at h
      rw [List.forall_mem_cons]
      refine ⟨hdigit c h.1, ?_⟩
      by_cases hjoin : d = '_'
      · rw [if_pos hjoin] at h
        rw [List.forall_mem_cons, hjoin]
        exact ⟨rfl, ihjoin h.2⟩
      · rw [if_neg hjoin] at h
        exact ihdigit h.2

theorem isIntChar_of_readDigits {text : Str} {n : Nat} (h : readDigits text = some n) :
    ∀ c ∈ text, isIntChar c = true := by
  unfold readDigits at h
  dsimp only at h
  split_ifs at h with hread
  exact isIntChar_of_isGrouped (Bool.and_eq_true_iff.mp hread).1

theorem isIntChar_of_strip {text : Str} (h : ∀ c ∈ strip text, isIntChar c = true) :
    ∀ c ∈ text, isIntChar c = true := by
  have hspace : ∀ c, isSpace c = true → isIntChar c = true := by
    intro c hc
    rw [isIntChar, hc, Bool.true_or, Bool.true_or, Bool.true_or, Bool.true_or]
  have hfront : ∀ c ∈ text.takeWhile isSpace, isIntChar c = true :=
    fun c hc => hspace c (List.mem_takeWhile_imp hc)
  have hback : ∀ c ∈ (lstrip text).rtakeWhile isSpace, isIntChar c = true :=
    fun c hc => hspace c (List.mem_rtakeWhile_imp hc)
  rw [← List.takeWhile_append_dropWhile (p := isSpace) (l := text)]
  have hinner : text.dropWhile isSpace =
      strip text ++ (lstrip text).rtakeWhile isSpace :=
    List.rdropWhile_append_rtakeWhile.symm
  rw [hinner, List.forall_mem_append, List.forall_mem_append]
  exact ⟨hfront, h, hback⟩

theorem isIntChar_of_readInt {text : Str} {value : Int} (h : readInt text = some value) :
    ∀ c ∈ text, isIntChar c = true := by
  apply isIntChar_of_strip
  unfold readInt at h
  split at h
  · rename_i digits hstrip
    obtain ⟨n, hdigits, -⟩ := Option.map_eq_some_iff.mp h
    rw [hstrip, List.forall_mem_cons]
    exact ⟨rfl, isIntChar_of_readDigits hdigits⟩
  · rename_i digits hstrip
    obtain ⟨n, hdigits, -⟩ := Option.map_eq_some_iff.mp h
    rw [hstrip, List.forall_mem_cons]
    exact ⟨rfl, isIntChar_of_readDigits hdigits⟩
  · obtain ⟨n, hdigits, -⟩ := Option.map_eq_some_iff.mp h
    exact isIntChar_of_readDigits hdigits

end OpenStarry.Lib.Text
