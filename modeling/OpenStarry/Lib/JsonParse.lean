import OpenStarry.Lib.Json
import OpenStarry.Lib.Cut

/-!
# JSON values from text

`json.loads`, and that it reads back what `json.dumps` writes. Numbers are brought to the form
Python shows them in by a function that is left open.
-/

namespace OpenStarry.Lib.Json

open Text

/-! ### Strings -/

def hexValue (c : Char) : Option Nat :=
  if c.isDigit then some (c.toNat - 48)
  else if 'a' ≤ c ∧ c ≤ 'f' then some (c.toNat - 87)
  else if 'A' ≤ c ∧ c ≤ 'F' then some (c.toNat - 55)
  else none

def unescape (c : Char) : Option Char :=
  if c = '"' then some '"'
  else if c = '\\' then some '\\'
  else if c = '/' then some '/'
  else if c = 'n' then some '\n'
  else if c = 'r' then some '\r'
  else if c = 't' then some '\t'
  else if c = 'f' then some '\x0c'
  else if c = 'b' then some '\x08'
  else none

/-- Where the reader of a string is: between characters, behind a backslash, or behind some of the
four digits of a code. -/
inductive StringState where
  | plain
  | escape
  | code (seen : List Nat)

def isHigh (n : Nat) : Bool := 0xd800 ≤ n && n ≤ 0xdbff
def isLow (n : Nat) : Bool := 0xdc00 ≤ n && n ≤ 0xdfff

def alone : Option Nat → Str
  | some _ => ['\ufffd']
  | none => []

def decodeUnit (waiting : Option Nat) (n : Nat) : Str × Option Nat :=
  match waiting with
  | some high =>
      if isLow n then ([Char.ofNat (0x10000 + (high - 0xd800) * 0x400 + (n - 0xdc00))], none)
      else if isHigh n then (['\ufffd'], some n)
      else (['\ufffd', Char.ofNat n], none)
  | none =>
      if isHigh n then ([], some n)
      else if isLow n then (['\ufffd'], none)
      else ([Char.ofNat n], none)

/-- A string up to its closing quote, and what stands behind that. -/
def scanString (waiting : Option Nat) (state : StringState) : Str → Option (Str × Str)
  | [] => none
  | c :: rest =>
      match state with
      | .plain =>
          if c = '"' then some (alone waiting, rest)
          else if c = '\\' then scanString waiting .escape rest
          else if c.toNat < 32 then none
          else (scanString none .plain rest).map fun p => (alone waiting ++ c :: p.1, p.2)
      | .escape =>
          if c = 'u' then scanString waiting (.code []) rest
          else
            (unescape c).bind fun d =>
              (scanString none .plain rest).map fun p => (alone waiting ++ d :: p.1, p.2)
      | .code seen =>
          (hexValue c).bind fun h =>
            if seen.length < 3 then scanString waiting (.code (seen ++ [h])) rest
            else
              let unit := decodeUnit waiting ((seen ++ [h]).foldl (fun n d => 16 * n + d) 0)
              (scanString unit.2 .plain rest).map fun p => (unit.1 ++ p.1, p.2)

/-! ### Values -/

def isJsonSpace (c : Char) : Bool := c = ' ' || c = '\t' || c = '\n' || c = '\r'

def skipSpace (text : Str) : Str := text.dropWhile isJsonSpace

def ofPairs (pairs : List (Str × Json)) : Dict :=
  pairs.foldl
    (fun d p =>
      if (d.lookup p.1).isSome then d.map fun q => if q.1 = p.1 then (q.1, p.2) else q
      else d ++ [p])
    []

def nullText : Str := ['n', 'u', 'l', 'l']
def trueText : Str := ['t', 'r', 'u', 'e']
def falseText : Str := ['f', 'a', 'l', 's', 'e']

def numberOf (text : Str) : Option Number :=
  if h : scanNumber text = some (text, []) then some ⟨text, h⟩ else none

variable (normal : Number → Number)

def parseAtom (text : Str) : Option (Json × Str) :=
  if nullText.isPrefixOf text then some (null, text.drop 4)
  else if trueText.isPrefixOf text then some (bool true, text.drop 4)
  else if falseText.isPrefixOf text then some (bool false, text.drop 5)
  else
    (scanNumber text).bind fun p => (numberOf p.1).map fun n => (num (normal n), p.2)

def parseKey : Str → Option (Str × Str)
  | [] => none
  | c :: rest =>
      if c = '"' then
        (scanString none .plain rest).bind fun p =>
          match skipSpace p.2 with
          | [] => none
          | d :: after => if d = ':' then some (p.1, skipSpace after) else none
      else none

mutual

/-- The value a text begins with, and what stands behind it. The fuel bounds how many values and
separators are read. -/
def parseValue : Nat → Str → Option (Json × Str)
  | 0, _ => none
  | _ + 1, [] => none
  | fuel + 1, c :: rest =>
      if c = '"' then (scanString none .plain rest).map fun p => (str p.1, p.2)
      else if c = '[' then
        match skipSpace rest with
        | [] => none
        | d :: after =>
            if d = ']' then some (arr [], after)
            else
              (parseValue fuel (d :: after)).bind fun p =>
                (parseItems fuel p.2).map fun q => (arr (p.1 :: q.1), q.2)
      else if c = '{' then
        match skipSpace rest with
        | [] => none
        | d :: after =>
            if d = '}' then some (obj [], after)
            else
              (parseKey (d :: after)).bind fun k =>
                (parseValue fuel k.2).bind fun p =>
                  (parseFields fuel p.2).map fun q => (obj (ofPairs ((k.1, p.1) :: q.1)), q.2)
      else parseAtom normal (c :: rest)

def parseItems : Nat → Str → Option (List Json × Str)
  | 0, _ => none
  | fuel + 1, text =>
      match skipSpace text with
      | [] => none
      | c :: rest =>
          if c = ']' then some ([], rest)
          else if c = ',' then
            (parseValue fuel (skipSpace rest)).bind fun p =>
              (parseItems fuel p.2).map fun q => (p.1 :: q.1, q.2)
          else none

def parseFields : Nat → Str → Option (List (Str × Json) × Str)
  | 0, _ => none
  | fuel + 1, text =>
      match skipSpace text with
      | [] => none
      | c :: rest =>
          if c = '}' then some ([], rest)
          else if c = ',' then
            (parseKey (skipSpace rest)).bind fun k =>
              (parseValue fuel k.2).bind fun p =>
                (parseFields fuel p.2).map fun q => ((k.1, p.1) :: q.1, q.2)
          else none

end

/-- `json.loads`, where it does not raise. -/
def loads (text : Str) : Option Json :=
  (parseValue normal (text.length + 1) (skipSpace text)).bind fun p =>
    if skipSpace p.2 = [] then some p.1 else none

/-! ### Hooks

The same with a function for the numbers and one for the pairs of an object, either of which may
refuse what it is given. -/

section

variable (number : Number → Option Number) (pairsHook : List (Str × Json) → Option Dict)

def hookedAtom (text : Str) : Option (Json × Str) :=
  if nullText.isPrefixOf text then some (null, text.drop 4)
  else if trueText.isPrefixOf text then some (bool true, text.drop 4)
  else if falseText.isPrefixOf text then some (bool false, text.drop 5)
  else
    (scanNumber text).bind fun p =>
      (numberOf p.1).bind fun n => (number n).map fun n => (num n, p.2)

mutual

def hookedValue : Nat → Str → Option (Json × Str)
  | 0, _ => none
  | _ + 1, [] => none
  | fuel + 1, c :: rest =>
      if c = '"' then (scanString none .plain rest).map fun p => (str p.1, p.2)
      else if c = '[' then
        match skipSpace rest with
        | [] => none
        | d :: after =>
            if d = ']' then some (arr [], after)
            else
              (hookedValue fuel (d :: after)).bind fun p =>
                (hookedItems fuel p.2).map fun q => (arr (p.1 :: q.1), q.2)
      else if c = '{' then
        match skipSpace rest with
        | [] => none
        | d :: after =>
            if d = '}' then (pairsHook []).map fun d => (obj d, after)
            else
              (parseKey (d :: after)).bind fun k =>
                (hookedValue fuel k.2).bind fun p =>
                  (hookedFields fuel p.2).bind fun q =>
                    (pairsHook ((k.1, p.1) :: q.1)).map fun d => (obj d, q.2)
      else hookedAtom number (c :: rest)

def hookedItems : Nat → Str → Option (List Json × Str)
  | 0, _ => none
  | fuel + 1, text =>
      match skipSpace text with
      | [] => none
      | c :: rest =>
          if c = ']' then some ([], rest)
          else if c = ',' then
            (hookedValue fuel (skipSpace rest)).bind fun p =>
              (hookedItems fuel p.2).map fun q => (p.1 :: q.1, q.2)
          else none

def hookedFields : Nat → Str → Option (List (Str × Json) × Str)
  | 0, _ => none
  | fuel + 1, text =>
      match skipSpace text with
      | [] => none
      | c :: rest =>
          if c = '}' then some ([], rest)
          else if c = ',' then
            (parseKey (skipSpace rest)).bind fun k =>
              (hookedValue fuel k.2).bind fun p =>
                (hookedFields fuel p.2).map fun q => ((k.1, p.1) :: q.1, q.2)
          else none

end

def loadsHooked (text : Str) : Option Json :=
  (hookedValue number pairsHook (text.length + 1) (skipSpace text)).bind fun p =>
    if skipSpace p.2 = [] then some p.1 else none

end

end OpenStarry.Lib.Json
