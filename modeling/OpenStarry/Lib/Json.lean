import OpenStarry.Lib.Decimal

/-!
# JSON values

The values `json.loads` makes. A number is kept as the text it is written with, and a dict as its
fields in their order.
-/

namespace OpenStarry.Lib

open Text

/-! ### Numbers -/

namespace Json

def digits (text : Str) : Str := text.takeWhile Char.isDigit

def afterDigits (text : Str) : Str := text.dropWhile Char.isDigit

def scanInteger : Str → Option (Str × Str)
  | [] => none
  | c :: rest =>
      if c = '0' then some (['0'], rest)
      else if c.isDigit then some (c :: digits rest, afterDigits rest)
      else none

def scanFraction : Str → Str × Str
  | [] => ([], [])
  | c :: rest =>
      if c = '.' ∧ digits rest ≠ [] then (c :: digits rest, afterDigits rest) else ([], c :: rest)

def scanSign : Str → Str × Str
  | [] => ([], [])
  | c :: rest => if c = '+' ∨ c = '-' then ([c], rest) else ([], c :: rest)

def scanExponent : Str → Str × Str
  | [] => ([], [])
  | c :: rest =>
      if (c = 'e' ∨ c = 'E') ∧ digits (scanSign rest).2 ≠ [] then
        (c :: ((scanSign rest).1 ++ digits (scanSign rest).2), afterDigits (scanSign rest).2)
      else ([], c :: rest)

def scanUnsigned (text : Str) : Option (Str × Str) :=
  (scanInteger text).map fun integer =>
    let fraction := scanFraction integer.2
    let exponent := scanExponent fraction.2
    (integer.1 ++ (fraction.1 ++ exponent.1), exponent.2)

def specials : List Str := ["NaN".toList, "Infinity".toList, "-Infinity".toList]

def scanSpecial (text : Str) : Option (Str × Str) :=
  (specials.find? fun special => special.isPrefixOf text).map fun special =>
    (special, text.drop special.length)

def scanSigned : Str → Option (Str × Str)
  | [] => none
  | c :: rest =>
      if c = '-' then (scanUnsigned rest).map fun number => (c :: number.1, number.2)
      else scanUnsigned (c :: rest)

def scanNumber (text : Str) : Option (Str × Str) := (scanSpecial text).or (scanSigned text)

end Json

/-- A number by the text it is written with. -/
structure Number where
  text : Str
  scanned : Json.scanNumber text = some (text, [])
  deriving DecidableEq, Repr

namespace Number

def isFinite (n : Number) : Bool := n.text ∉ Json.specials

def isZero (n : Number) : Bool :=
  n.isFinite && (n.text.takeWhile fun c => c ≠ 'e' && c ≠ 'E').all fun c => !c.isDigit || c = '0'

end Number

/-! ### Values -/

inductive Json where
  | null
  | bool (b : Bool)
  | num (n : Number)
  | str (s : Str)
  | arr (items : List Json)
  | obj (fields : List (Str × Json))
  deriving Repr

abbrev Dict := List (Str × Json)

namespace Json

mutual

def beq : Json → Json → Bool
  | null, null => true
  | bool a, bool b => a == b
  | num a, num b => decide (a = b)
  | str a, str b => a == b
  | arr a, arr b => beqItems a b
  | obj a, obj b => beqFields a b
  | _, _ => false

def beqItems : List Json → List Json → Bool
  | [], [] => true
  | x :: xs, y :: ys => beq x y && beqItems xs ys
  | _, _ => false

def beqFields : Dict → Dict → Bool
  | [], [] => true
  | x :: xs, y :: ys => x.1 == y.1 && beq x.2 y.2 && beqFields xs ys
  | _, _ => false

end

mutual

theorem beq_iff (a b : Json) : beq a b = true ↔ a = b := by
  cases a <;> cases b <;> simp [beq]
  · exact beqItems_iff _ _
  · exact beqFields_iff _ _

theorem beqItems_iff (a b : List Json) : beqItems a b = true ↔ a = b := by
  match a, b with
  | [], [] => simp [beqItems]
  | [], _ :: _ => simp [beqItems]
  | _ :: _, [] => simp [beqItems]
  | x :: xs, y :: ys =>
      rw [beqItems, Bool.and_eq_true, beq_iff x y, beqItems_iff xs ys, List.cons.injEq]

theorem beqFields_iff (a b : Dict) : beqFields a b = true ↔ a = b := by
  match a, b with
  | [], [] => simp [beqFields]
  | [], _ :: _ => simp [beqFields]
  | _ :: _, [] => simp [beqFields]
  | (k, x) :: xs, (k', y) :: ys =>
      rw [beqFields, Bool.and_eq_true, Bool.and_eq_true, beq_iff x y, beqFields_iff xs ys,
        beq_iff_eq, List.cons.injEq, Prod.mk.injEq]

end

instance : DecidableEq Json := fun a b => decidable_of_iff (beq a b = true) (beq_iff a b)

/-- `bool(value)`. -/
def truthy : Json → Bool
  | null => false
  | bool b => b
  | num n => !n.isZero
  | str s => s ≠ []
  | arr items => !items.isEmpty
  | obj fields => !fields.isEmpty

/-- `value if isinstance(value, list) else []`. -/
def items : Json → List Json
  | arr xs => xs
  | _ => []

/-- `value if isinstance(value, dict) else None`. -/
def fields? : Json → Option Dict
  | obj fields => some fields
  | _ => none

/-- `value if isinstance(value, str) else None`. -/
def str? : Json → Option Str
  | str s => some s
  | _ => none

end Json

namespace Dict

/-- `d.get(key)`: what is missing is `None`. -/
def get (d : Dict) (key : String) : Json := (d.lookup key.toList).getD .null

/-- `key in d`. -/
def has (d : Dict) (key : String) : Bool := (d.lookup key.toList).isSome

end Dict

end OpenStarry.Lib

/-!
# JSON values as text

`json.dumps` with `ensure_ascii=False`: only quotes, backslashes and control characters are escaped.
-/

namespace OpenStarry.Lib.Json

open Text

def hexDigit (n : Nat) : Char := if n < 10 then Char.ofNat (48 + n) else Char.ofNat (87 + n)

def escape (c : Char) : Str :=
  if c = '"' then ['\\', '"']
  else if c = '\\' then ['\\', '\\']
  else if c = '\n' then ['\\', 'n']
  else if c = '\r' then ['\\', 'r']
  else if c = '\t' then ['\\', 't']
  else if c = '\x0c' then ['\\', 'f']
  else if c = '\x08' then ['\\', 'b']
  else if c.toNat < 32 then
    ['\\', 'u', '0', '0', hexDigit (c.toNat / 16), hexDigit (c.toNat % 16)]
  else [c]

def quote (s : Str) : Str := '"' :: (s.flatMap escape ++ ['"'])

/-- What stands between items, and between a key and its value. -/
structure Separators where
  item : Str
  key : Str

def compactSeparators : Separators := ⟨[','], [':']⟩
def defaultSeparators : Separators := ⟨[',', ' '], [':', ' ']⟩

mutual

/-- `json.dumps`. -/
def dumpsWith (seps : Separators) : Json → Str
  | null => ['n', 'u', 'l', 'l']
  | bool true => ['t', 'r', 'u', 'e']
  | bool false => ['f', 'a', 'l', 's', 'e']
  | num n => n.text
  | str s => quote s
  | arr [] => ['[', ']']
  | arr (x :: rest) => '[' :: (dumpsWith seps x ++ dumpsItems seps rest)
  | obj [] => ['{', '}']
  | obj ((key, value) :: rest) =>
      '{' :: (quote key ++ (seps.key ++ (dumpsWith seps value ++ dumpsFields seps rest)))

def dumpsItems (seps : Separators) : List Json → Str
  | [] => [']']
  | x :: rest => seps.item ++ (dumpsWith seps x ++ dumpsItems seps rest)

def dumpsFields (seps : Separators) : List (Str × Json) → Str
  | [] => ['}']
  | (key, value) :: rest =>
      seps.item ++ (quote key ++ (seps.key ++ (dumpsWith seps value ++ dumpsFields seps rest)))

end

/-- `json.dumps(value, separators=(",", ":"))`. -/
def dumps (value : Json) : Str := dumpsWith compactSeparators value

mutual

/-- Whether `json.dumps` takes a value with `allow_nan=False`. -/
def isFinite : Json → Bool
  | num n => n.isFinite
  | arr items => itemsFinite items
  | obj fields => fieldsFinite fields
  | _ => true

def itemsFinite : List Json → Bool
  | [] => true
  | x :: rest => isFinite x && itemsFinite rest

def fieldsFinite : List (Str × Json) → Bool
  | [] => true
  | (_, value) :: rest => isFinite value && fieldsFinite rest

end

example : dumps (.obj [("a".toList, .arr [.null, .str ['"', '\n']]), ([], .bool true)]) =
    "\x7b\"a\":[null,\"\\\"\\n\"],\"\":true\x7d".toList := by decide

/-! ### Lines -/

theorem return_notMem_escape (c : Char) : '\r' ∉ escape c := by
  have hdigit : ∀ n < 16, hexDigit n ≠ '\r' := by decide
  unfold escape
  split_ifs with _ _ _ hreturn _ _ _ hcontrol
  all_goals try decide
  · simp only [List.mem_cons, List.not_mem_nil, or_false, not_or]
    refine ⟨by decide, by decide, by decide, by decide, ?_, ?_⟩
    · exact Ne.symm (hdigit _ (by omega))
    · exact Ne.symm (hdigit _ (by omega))
  · simpa using Ne.symm hreturn

theorem return_notMem_quote (s : Str) : '\r' ∉ quote s := by
  have hreturn : ∀ c ∈ s, '\r' ∉ escape c := fun c _ => return_notMem_escape c
  simpa [quote] using hreturn

section Lines

variable {seps : Separators} (hitem : '\r' ∉ seps.item) (hkey : '\r' ∉ seps.key)

include hitem hkey

theorem return_notMem_dumpsFields {fields : List (Str × Json)}
    (h : ∀ p ∈ fields, '\r' ∉ dumpsWith seps p.2) : '\r' ∉ dumpsFields seps fields := by
  induction fields with
  | nil => simp [dumpsFields]
  | cons p rest ih =>
      obtain ⟨key, value⟩ := p
      rw [List.forall_mem_cons] at h
      simp only [dumpsFields, List.mem_append, not_or]
      exact ⟨hitem, return_notMem_quote key, hkey, h.1, ih h.2⟩

theorem return_notMem_dumpsWith_obj {fields : List (Str × Json)}
    (h : ∀ p ∈ fields, '\r' ∉ dumpsWith seps p.2) : '\r' ∉ dumpsWith seps (obj fields) := by
  cases fields with
  | nil => simp [dumpsWith]
  | cons p rest =>
      obtain ⟨key, value⟩ := p
      rw [List.forall_mem_cons] at h
      simp only [dumpsWith, List.mem_cons, List.mem_append, not_or]
      exact ⟨by decide, return_notMem_quote key, hkey, h.1,
        return_notMem_dumpsFields hitem hkey h.2⟩

end Lines

end OpenStarry.Lib.Json
