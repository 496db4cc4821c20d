import OpenStarry.Lib.JsonParse

/-!
# What is written is read back

`loads` reads the text `dumps` writes: the same value, with its numbers in the form the reader gives
them and each key of a dict once.
-/

namespace OpenStarry.Lib

namespace Json

open Text

/-! ### Strings -/

theorem hexValue_hexDigit : ∀ n < 16, hexValue (hexDigit n) = some n := by decide

theorem decodeUnit_of_lt {n : Nat} (hlow : n < 32) : decodeUnit none n = ([Char.ofNat n], none) := by
  have hnotHigh : isHigh n = false := by
    simp only [isHigh, Bool.and_eq_false_iff, decide_eq_false_iff_not]
    omega
  have hnotLow : isLow n = false := by
    simp only [isLow, Bool.and_eq_false_iff, decide_eq_false_iff_not]
    omega
  simp only [decodeUnit, hnotHigh, hnotLow, Bool.false_eq_true, if_false]

theorem scanString_code {c : Char} (hcontrol : c.toNat < 32) (rest : Str) :
    scanString none .plain
        ('\\' :: 'u' :: '0' :: '0' :: hexDigit (c.toNat / 16) :: hexDigit (c.toNat % 16) :: rest) =
      (scanString none .plain rest).map fun p => (c :: p.1, p.2) := by
  have hzero : hexValue '0' = some 0 := by decide
  have hhigh := hexValue_hexDigit (c.toNat / 16) (by omega)
  have hlow := hexValue_hexDigit (c.toNat % 16) (by omega)
  have hvalue : 16 * (16 * (16 * (16 * 0 + 0) + 0) + c.toNat / 16) + c.toNat % 16 = c.toNat := by
    omega
  simp only [List.cons_append, List.nil_append, scanString, Char.reduceEq, if_true, if_false,
    hzero, hhigh, hlow, Option.bind_some, List.length_nil, List.length_cons, Nat.reduceAdd,
    Nat.reduceLT, List.foldl_cons, List.foldl_nil, hvalue]
  simp only [decodeUnit_of_lt hcontrol, Char.ofNat_toNat, List.cons_append, List.nil_append]

theorem scanString_escape (c : Char) (rest : Str) :
    scanString none .plain (escape c ++ rest) =
      (scanString none .plain rest).map fun p => (c :: p.1, p.2) := by
  unfold escape
  split_ifs with hquote hback hnewline hreturn htab hfeed hbackspace hcontrol
  all_goals
    first
    | exact scanString_code hcontrol rest
    | subst c; simp [scanString, unescape, alone]
    | simp [scanString, alone, hquote, hback, hcontrol]

theorem scanString_flatMap (s rest : Str) :
    scanString none .plain (s.flatMap escape ++ '"' :: rest) = some (s, rest) := by
  induction s with
  | nil => simp [scanString, alone]
  | cons c s ih =>
      rw [List.flatMap_cons, List.append_assoc, scanString_escape, ih]
      rfl

/-! ### Numbers -/

def continuesNumber (c : Char) : Bool :=
  c.isDigit || c = '.' || c = 'e' || c = 'E' || c = '+' || c = '-'

section Numbers

variable {rest : Str} (hrest : StopsAt continuesNumber rest)

include hrest

theorem stopsAt_isDigit : StopsAt Char.isDigit rest := by
  intro c hc
  have hstop := hrest c hc
  simp only [continuesNumber, Bool.or_eq_false_iff] at hstop
  exact hstop.1.1.1.1.1

theorem digits_append (text : Str) : digits (text ++ rest) = digits text := by
  induction text with
  | nil => simpa [digits] using (stopsAt_isDigit hrest).takeWhile_eq
  | cons c text ih =>
      by_cases hdigit : c.isDigit
      · simpa [digits, hdigit] using ih
      · simp [digits, hdigit]

theorem afterDigits_append (text : Str) : afterDigits (text ++ rest) = afterDigits text ++ rest := by
  induction text with
  | nil => simpa [afterDigits] using (stopsAt_isDigit hrest).dropWhile_eq
  | cons c text ih =>
      by_cases hdigit : c.isDigit
      · simpa [afterDigits, hdigit] using ih
      · simp [afterDigits, hdigit]

theorem scanInteger_append (text : Str) :
    scanInteger (text ++ rest) = (scanInteger text).map fun p => (p.1, p.2 ++ rest) := by
  cases text with
  | nil =>
      cases rest with
      | nil => rfl
      | cons d after =>
          have hdigit := stopsAt_isDigit hrest d rfl
          have hzero : d ≠ '0' := by rintro rfl; simp at hdigit
          simp [scanInteger, hdigit, hzero]
  | cons c text =>
      rw [List.cons_append, scanInteger, scanInteger, digits_append hrest, afterDigits_append hrest]
      split_ifs <;> rfl

theorem scanFraction_append (text : Str) :
    scanFraction (text ++ rest) = ((scanFraction text).1, (scanFraction text).2 ++ rest) := by
  cases text with
  | nil =>
      cases rest with
      | nil => rfl
      | cons d after =>
          have hstop := hrest d rfl
          simp only [continuesNumber, Bool.or_eq_false_iff, decide_eq_false_iff_not] at hstop
          simp [scanFraction, hstop.1.1.1.1.2]
  | cons c text =>
      rw [List.cons_append, scanFraction, scanFraction, digits_append hrest,
        afterDigits_append hrest]
      split_ifs <;> rfl

theorem scanSign_append (text : Str) :
    scanSign (text ++ rest) = ((scanSign text).1, (scanSign text).2 ++ rest) := by
  cases text with
  | nil =>
      cases rest with
      | nil => rfl
      | cons d after =>
          have hstop := hrest d rfl
          simp only [continuesNumber, Bool.or_eq_false_iff, decide_eq_false_iff_not] at hstop
          simp [scanSign, hstop.1.2, hstop.2]
  | cons c text =>
      rw [List.cons_append, scanSign, scanSign]
      split_ifs <;> rfl

theorem scanExponent_append (text : Str) :
    scanExponent (text ++ rest) = ((scanExponent text).1, (scanExponent text).2 ++ rest) := by
  cases text with
  | nil =>
      cases rest with
      | nil => rfl
      | cons d after =>
          have hstop := hrest d rfl
          simp only [continuesNumber, Bool.or_eq_false_iff, decide_eq_false_iff_not] at hstop
          simp [scanExponent, hstop.1.1.1.2, hstop.1.1.2]
  | cons c text =>
      rw [List.cons_append, scanExponent, scanExponent, scanSign_append hrest,
        digits_append hrest, afterDigits_append hrest]
      split_ifs <;> rfl

theorem scanUnsigned_append (text : Str) :
    scanUnsigned (text ++ rest) = (scanUnsigned text).map fun p => (p.1, p.2 ++ rest) := by
  rw [scanUnsigned, scanUnsigned, scanInteger_append hrest, Option.map_map, Option.map_map]
  congr 1
  funext p
  simp only [Function.comp_apply, scanFraction_append hrest, scanExponent_append hrest]

theorem scanSigned_append (text : Str) :
    scanSigned (text ++ rest) = (scanSigned text).map fun p => (p.1, p.2 ++ rest) := by
  cases text with
  | nil =>
      cases rest with
      | nil => rfl
      | cons d after =>
          have hstop := hrest d rfl
          simp only [continuesNumber, Bool.or_eq_false_iff, decide_eq_false_iff_not] at hstop
          have hnone := scanUnsigned_append hrest []
          rw [List.nil_append] at hnone
          simp only [List.nil_append, scanSigned, hstop.2, if_false, hnone]
          rfl
  | cons c text =>
      have hunsigned := scanUnsigned_append hrest (c :: text)
      rw [List.cons_append] at hunsigned ⊢
      rw [scanSigned, scanSigned, hunsigned, scanUnsigned_append hrest]
      split_ifs
      · rw [Option.map_map, Option.map_map]
        rfl
      · rfl

end Numbers

theorem head_of_scanInteger {text : Str} {p : Str × Str} (h : scanInteger text = some p) :
    ∃ c ∈ text.head?, c.isDigit = true := by
  cases text with
  | nil => simp [scanInteger] at h
  | cons c text =>
      refine ⟨c, rfl, ?_⟩
      rw [scanInteger] at h
      split_ifs at h with hzero hdigit
      · rw [hzero]
        rfl
      · exact hdigit

theorem head_of_scanUnsigned {text : Str} {p : Str × Str} (h : scanUnsigned text = some p) :
    ∃ c ∈ text.head?, c.isDigit = true := by
  rw [scanUnsigned, Option.map_eq_some_iff] at h
  obtain ⟨integer, hinteger, -⟩ := h
  exact head_of_scanInteger hinteger

theorem head_of_scanSigned {text : Str} {p : Str × Str} (h : scanSigned text = some p) :
    ∃ c rest, text = c :: rest ∧
      (c.isDigit = true ∨ c = '-' ∧ ∃ d ∈ rest.head?, d.isDigit = true) := by
  cases text with
  | nil => simp [scanSigned] at h
  | cons c rest =>
      refine ⟨c, rest, rfl, ?_⟩
      rw [scanSigned] at h
      split_ifs at h with hsign
      · rw [Option.map_eq_some_iff] at h
        obtain ⟨number, hnumber, -⟩ := h
        exact .inr ⟨hsign, head_of_scanUnsigned hnumber⟩
      · obtain ⟨d, hd, hdigit⟩ := head_of_scanUnsigned h
        rw [List.head?_cons, Option.mem_some_iff] at hd
        subst hd
        exact .inl hdigit

theorem scanSpecial_eq_none {c : Char} {rest : Str}
    (h : c.isDigit = true ∨ c = '-' ∧ ∃ d ∈ rest.head?, d.isDigit = true) :
    scanSpecial (c :: rest) = none := by
  rw [scanSpecial, Option.map_eq_none_iff, List.find?_eq_none]
  intro special hspecial
  simp only [specials, List.mem_cons, List.not_mem_nil, or_false] at hspecial
  obtain hdigit | ⟨rfl, d, hd, hdigit⟩ := h
  · rcases hspecial with rfl | rfl | rfl
    all_goals
      intro hbegins
      simp only [String.reduceToList, List.isPrefixOf, Bool.and_eq_true, beq_iff_eq] at hbegins
      rw [← hbegins.1] at hdigit
      exact absurd hdigit (by decide)
  · cases rest with
    | nil => simp at hd
    | cons e rest =>
        rw [List.head?_cons, Option.mem_some_iff] at hd
        subst hd
        rcases hspecial with rfl | rfl | rfl
        all_goals
          intro hbegins
          simp only [String.reduceToList, List.isPrefixOf, Bool.and_eq_true, beq_iff_eq] at hbegins
        · exact absurd hbegins.1 (by decide)
        · exact absurd hbegins.1 (by decide)
        · rw [← hbegins.2.1] at hdigit
          exact absurd hdigit (by decide)

theorem special_of_scanSpecial {text : Str} (h : scanSpecial text = some (text, [])) :
    text ∈ specials := by
  rw [scanSpecial, Option.map_eq_some_iff] at h
  obtain ⟨special, hfind, heq⟩ := h
  have hname : special = text := congrArg Prod.fst heq
  rw [← hname]
  exact List.mem_of_find?_eq_some hfind

theorem scanSpecial_append {text : Str} (h : text ∈ specials) (rest : Str) :
    scanSpecial (text ++ rest) = some (text, rest) := by
  simp only [specials, List.mem_cons, List.not_mem_nil, or_false] at h
  rcases h with rfl | rfl | rfl
  · rfl
  · rfl
  · rfl

end Json

namespace Number

open Json Text

theorem special_or_signed (n : Number) :
    n.text ∈ specials ∨ scanSpecial n.text = none ∧ scanSigned n.text = some (n.text, []) := by
  have hscanned := n.scanned
  rw [scanNumber] at hscanned
  cases hspecial : scanSpecial n.text with
  | none =>
      rw [hspecial, Option.none_or] at hscanned
      exact .inr ⟨rfl, hscanned⟩
  | some p =>
      rw [hspecial, Option.some_or] at hscanned
      exact .inl (special_of_scanSpecial (hspecial.trans hscanned))

theorem scanNumber_append (n : Number) {rest : Str} (hrest : StopsAt continuesNumber rest) :
    scanNumber (n.text ++ rest) = some (n.text, rest) := by
  rw [scanNumber]
  obtain hspecial | ⟨-, hsigned⟩ := n.special_or_signed
  · rw [scanSpecial_append hspecial]
    rfl
  · obtain ⟨c, tail, htext, hhead⟩ := head_of_scanSigned hsigned
    have hnone : scanSpecial (n.text ++ rest) = none := by
      rw [htext, List.cons_append]
      apply scanSpecial_eq_none
      obtain hdigit | ⟨hsign, d, hd, hdigit⟩ := hhead
      · exact .inl hdigit
      · cases tail with
        | nil => simp at hd
        | cons e tail => exact .inr ⟨hsign, d, hd, hdigit⟩
    rw [hnone, Option.none_or, scanSigned_append hrest, hsigned]
    rfl

def begins (c : Char) : Bool := c.isDigit || c = '-' || c = 'N' || c = 'I'

theorem exists_head (n : Number) : ∃ c rest, n.text = c :: rest ∧ begins c = true := by
  obtain hspecial | ⟨-, hsigned⟩ := n.special_or_signed
  · simp only [specials, List.mem_cons, List.not_mem_nil, or_false] at hspecial
    rcases hspecial with htext | htext | htext
    all_goals exact ⟨_, _, htext, by decide⟩
  · obtain ⟨c, rest, htext, hhead⟩ := head_of_scanSigned hsigned
    refine ⟨c, rest, htext, ?_⟩
    obtain hdigit | ⟨hsign, -⟩ := hhead
    · simp [begins, hdigit]
    · simp [begins, hsign]

theorem head_decimal {n : Nat} (hpos : 0 < n) : ∃ c rest, decimal n = c :: rest ∧ c ≠ '0' := by
  induction n using Nat.strong_induction_on with
  | h n ih =>
      rw [decimal]
      by_cases hsmall : n < 10
      · have hdigit : ∀ d < 10, 0 < d → d.digitChar ≠ '0' := by decide
        rw [Nat.toDigits_of_lt_base hsmall]
        exact ⟨_, [], rfl, hdigit n hsmall hpos⟩
      · rw [Nat.toDigits_of_base_le (by decide) (by omega)]
        obtain ⟨c, rest, hdecimal, hc⟩ := ih (n / 10) (by omega) (by omega)
        rw [decimal] at hdecimal
        rw [hdecimal]
        exact ⟨c, rest ++ [(n % 10).digitChar], rfl, hc⟩

theorem scanNumber_decimal (n : Nat) : scanNumber (decimal n) = some (decimal n, []) := by
  obtain rfl | hpos := Nat.eq_zero_or_pos n
  · decide
  · obtain ⟨c, rest, hdecimal, hc⟩ := head_decimal hpos
    have hdigit (d : Char) (hd : d ∈ c :: rest) : d.isDigit = true :=
      isDigit_of_mem_decimal (by rwa [hdecimal])
    have hfirst : c.isDigit = true := hdigit c (by simp)
    have hsign : c ≠ '-' := by
      rintro rfl
      exact absurd hfirst (by decide)
    have htake : digits rest = rest :=
      List.takeWhile_eq_self_iff.mpr fun d hd => hdigit d (by simp [hd])
    have hdrop : afterDigits rest = [] :=
      List.dropWhile_eq_nil_iff.mpr fun d hd => hdigit d (by simp [hd])
    have hinteger : scanInteger (c :: rest) = some (c :: rest, []) := by
      rw [scanInteger, if_neg hc, if_pos hfirst, htake, hdrop]
    rw [hdecimal, scanNumber, scanSpecial_eq_none (.inl hfirst), Option.none_or, scanSigned,
      if_neg hsign, scanUnsigned, hinteger]
    simp [scanFraction, scanExponent]

def ofNat (n : Nat) : Number := ⟨decimal n, scanNumber_decimal n⟩

theorem ofNat_injective : Function.Injective ofNat := by
  intro m n h
  have htext : decimal m = decimal n := congrArg Number.text h
  rw [← intOf_decimal m, htext, intOf_decimal]

end Number

/-! ### Values -/

namespace Json

variable (normal : Number → Number)

mutual

def reread : Json → Json
  | null => null
  | bool b => bool b
  | num n => num (normal n)
  | str s => str s
  | arr items => arr (rereadItems items)
  | obj fields => obj (ofPairs (rereadFields fields))

def rereadItems : List Json → List Json
  | [] => []
  | x :: rest => reread x :: rereadItems rest

def rereadFields : List (Str × Json) → List (Str × Json)
  | [] => []
  | (key, value) :: rest => (key, reread value) :: rereadFields rest

end

mutual

def weight : Json → Nat
  | arr [] => 1
  | arr (x :: rest) => 1 + weight x + weightItems rest
  | obj [] => 1
  | obj ((_, value) :: rest) => 1 + weight value + weightFields rest
  | _ => 1

def weightItems : List Json → Nat
  | [] => 1
  | x :: rest => 1 + weight x + weightItems rest

def weightFields : List (Str × Json) → Nat
  | [] => 1
  | (_, value) :: rest => 1 + weight value + weightFields rest

end

theorem quote_append (s rest : Str) : quote s ++ rest = '"' :: (s.flatMap escape ++ '"' :: rest) := by
  simp [quote]

/-! ### Separators -/

/-- Separators that are one character and spaces. -/
structure Separators.Spaced (seps : Separators) : Prop where
  item : ∃ space, seps.item = ',' :: space ∧ ∀ c ∈ space, isJsonSpace c = true
  key : ∃ space, seps.key = ':' :: space ∧ ∀ c ∈ space, isJsonSpace c = true

theorem spaced_compactSeparators : compactSeparators.Spaced :=
  ⟨⟨[], rfl, by decide⟩, ⟨[], rfl, by decide⟩⟩

theorem spaced_defaultSeparators : defaultSeparators.Spaced :=
  ⟨⟨[' '], rfl, by decide⟩, ⟨[' '], rfl, by decide⟩⟩

theorem skipSpace_cons {c : Char} (hspace : isJsonSpace c = false) (rest : Str) :
    skipSpace (c :: rest) = c :: rest := by
  rw [skipSpace, List.dropWhile_cons, hspace]
  rfl

theorem skipSpace_append {space : Str} (hspace : ∀ c ∈ space, isJsonSpace c = true) (rest : Str) :
    skipSpace (space ++ rest) = skipSpace rest := by
  induction space with
  | nil => rfl
  | cons c space ih =>
      rw [List.cons_append, skipSpace, List.dropWhile_cons, hspace c List.mem_cons_self]
      exact ih fun d hd => hspace d (List.mem_cons_of_mem c hd)

section Values

variable {seps : Separators} (hseps : seps.Spaced)

mutual

theorem weight_le (hseps : seps.Spaced) : (value : Json) → weight value ≤ (dumpsWith seps value).length
  | null => by simp [weight, dumpsWith]
  | bool true => by simp [weight, dumpsWith]
  | bool false => by simp [weight, dumpsWith]
  | num n => by
      obtain ⟨c, rest, htext, -⟩ := n.exists_head
      simp [weight, dumpsWith, htext]
  | str s => by simp [weight, dumpsWith, quote]
  | arr [] => by simp [weight, dumpsWith]
  | arr (x :: rest) => by
      have hfirst := weight_le hseps x
      have hrest := weightItems_le hseps rest
      simp only [weight, dumpsWith, List.length_cons, List.length_append]
      omega
  | obj [] => by simp [weight, dumpsWith]
  | obj ((key, value) :: rest) => by
      have hfirst := weight_le hseps value
      have hrest := weightFields_le hseps rest
      simp only [weight, dumpsWith, List.length_cons, List.length_append]
      omega

theorem weightItems_le (hseps : seps.Spaced) :
    (items : List Json) → weightItems items ≤ (dumpsItems seps items).length
  | [] => by simp [weightItems, dumpsItems]
  | x :: rest => by
      have hfirst := weight_le hseps x
      have hrest := weightItems_le hseps rest
      obtain ⟨space, hitem, -⟩ := hseps.item
      simp only [weightItems, dumpsItems, hitem, List.length_cons, List.length_append]
      omega

theorem weightFields_le (hseps : seps.Spaced) : (fields : List (Str × Json)) →
    weightFields fields ≤ (dumpsFields seps fields).length
  | [] => by simp [weightFields, dumpsFields]
  | (key, value) :: rest => by
      have hfirst := weight_le hseps value
      have hrest := weightFields_le hseps rest
      obtain ⟨space, hitem, -⟩ := hseps.item
      simp only [weightFields, dumpsFields, hitem, List.length_cons, List.length_append]
      omega

end

theorem begins_ne {c : Char} (h : Number.begins c = true) :
    isJsonSpace c = false ∧ c ≠ ']' ∧ c ≠ '"' ∧ c ≠ '[' ∧ c ≠ '\x7b' ∧ c ≠ 'n' ∧ c ≠ 't' ∧ c ≠ 'f' := by
  have hne (d : Char) (hd : Number.begins d = false) : c ≠ d := fun heq => by
    rw [heq, hd] at h
    exact Bool.false_ne_true h
  have hspace : isJsonSpace c = false := by
    simp only [isJsonSpace, Bool.or_eq_false_iff, decide_eq_false_iff_not]
    exact ⟨⟨⟨hne ' ' (by decide), hne '\t' (by decide)⟩, hne '\n' (by decide)⟩, hne '\r' (by decide)⟩
  exact ⟨hspace, hne _ (by decide), hne _ (by decide), hne _ (by decide), hne _ (by decide),
    hne _ (by decide), hne _ (by decide), hne _ (by decide)⟩

theorem dumps_head (seps : Separators) (value : Json) :
    ∃ c rest, dumpsWith seps value = c :: rest ∧ isJsonSpace c = false ∧ c ≠ ']' := by
  cases value with
  | null => exact ⟨_, _, by rw [dumpsWith], by decide, by decide⟩
  | bool b => cases b <;> exact ⟨_, _, by rw [dumpsWith], by decide, by decide⟩
  | num n =>
      obtain ⟨c, rest, htext, hbegins⟩ := n.exists_head
      exact ⟨c, rest, by rw [dumpsWith, htext], (begins_ne hbegins).1, (begins_ne hbegins).2.1⟩
  | str s => exact ⟨_, _, by rw [dumpsWith, quote], by decide, by decide⟩
  | arr items => cases items <;> exact ⟨_, _, by rw [dumpsWith], by decide, by decide⟩
  | obj fields =>
      cases fields with
      | nil => exact ⟨_, _, by rw [dumpsWith], by decide, by decide⟩
      | cons p rest => exact ⟨_, _, by rw [dumpsWith], by decide, by decide⟩

theorem parseAtom_number (n : Number) {rest : Str} (hrest : StopsAt continuesNumber rest) :
    parseAtom normal (n.text ++ rest) = some (num (normal n), rest) := by
  obtain ⟨c, tail, htext, hbegins⟩ := n.exists_head
  obtain ⟨-, -, -, -, -, hn, ht, hf⟩ := begins_ne hbegins
  have hword (d : Char) (word : Str) (hd : c ≠ d) : (d :: word).isPrefixOf (n.text ++ rest) = false := by
    rw [htext, List.cons_append, List.isPrefixOf]
    simp [Ne.symm hd]
  have hnumber : numberOf n.text = some n := by
    rw [numberOf, dif_pos n.scanned]
  rw [parseAtom, nullText, trueText, falseText, hword _ _ hn, hword _ _ ht, hword _ _ hf,
    n.scanNumber_append hrest, Option.bind_some, hnumber]
  rfl

include hseps

theorem stopsAt_dumpsItems (items : List Json) (rest : Str) :
    StopsAt continuesNumber (dumpsItems seps items ++ rest) := by
  obtain ⟨space, hitem, -⟩ := hseps.item
  cases items with
  | nil => simp [StopsAt, dumpsItems, continuesNumber]
  | cons x items => simp [StopsAt, dumpsItems, hitem, continuesNumber]

theorem stopsAt_dumpsFields (fields : List (Str × Json)) (rest : Str) :
    StopsAt continuesNumber (dumpsFields seps fields ++ rest) := by
  obtain ⟨space, hitem, -⟩ := hseps.item
  cases fields with
  | nil => simp [StopsAt, dumpsFields, continuesNumber]
  | cons x fields => simp [StopsAt, dumpsFields, hitem, continuesNumber]

theorem parseKey_dumps (key : Str) (value : Json) (rest : Str) :
    parseKey (quote key ++ (seps.key ++ (dumpsWith seps value ++ rest))) =
      some (key, dumpsWith seps value ++ rest) := by
  obtain ⟨c, tail, hvalue, hspace, -⟩ := dumps_head seps value
  obtain ⟨space, hkey, hspaces⟩ := hseps.key
  rw [quote_append, parseKey, if_pos rfl, scanString_flatMap, Option.bind_some]
  simp only [hkey, List.cons_append, skipSpace_cons (show isJsonSpace ':' = false by decide),
    if_true, skipSpace_append hspaces, hvalue, skipSpace_cons hspace]

mutual

theorem parseValue_dumps : (value : Json) → (fuel : Nat) → (rest : Str) → weight value ≤ fuel →
    StopsAt continuesNumber rest →
    parseValue normal fuel (dumpsWith seps value ++ rest) = some (reread normal value, rest)
  | value, 0, _, hfuel, _ => by
      have hweight : 1 ≤ weight value := by
        unfold weight
        split <;> omega
      omega
  | null, fuel + 1, rest, _, _ => by simp [dumpsWith, parseValue, parseAtom, nullText, reread]
  | bool true, fuel + 1, rest, _, _ => by
      simp [dumpsWith, parseValue, parseAtom, nullText, trueText, reread]
  | bool false, fuel + 1, rest, _, _ => by
      simp [dumpsWith, parseValue, parseAtom, nullText, trueText, falseText, reread]
  | num n, fuel + 1, rest, _, hrest => by
      have hatom := parseAtom_number normal n hrest
      obtain ⟨c, tail, htext, hbegins⟩ := n.exists_head
      obtain ⟨-, -, hquote, hbracket, hbrace, -⟩ := begins_ne hbegins
      rw [htext, List.cons_append] at hatom
      rw [dumpsWith, htext, List.cons_append, parseValue, if_neg hquote, if_neg hbracket,
        if_neg hbrace, hatom, reread]
  | str s, fuel + 1, rest, _, _ => by
      rw [dumpsWith, quote_append, parseValue, if_pos rfl, scanString_flatMap, reread]
      rfl
  | arr [], fuel + 1, rest, _, _ => by
      simp [dumpsWith, parseValue, skipSpace, isJsonSpace, reread, rereadItems]
  | arr (x :: items), fuel + 1, rest, hfuel, _ => by
      rw [weight] at hfuel
      have hfirst := parseValue_dumps x fuel (dumpsItems seps items ++ rest) (by omega)
        (stopsAt_dumpsItems hseps items rest)
      have hitems := parseItems_dumps items fuel rest (by omega)
      obtain ⟨c, tail, hvalue, hspace, hclose⟩ := dumps_head seps x
      rw [hvalue] at hfirst
      rw [dumpsWith, hvalue, List.cons_append, List.append_assoc, parseValue,
        if_neg (by decide), if_pos rfl, List.cons_append, skipSpace_cons hspace]
      dsimp only
      rw [if_neg hclose, ← List.cons_append, hfirst, Option.bind_some, hitems]
      rfl
  | obj [], fuel + 1, rest, _, _ => by
      simp [dumpsWith, parseValue, skipSpace, isJsonSpace, reread, rereadFields, ofPairs]
  | obj ((key, value) :: fields), fuel + 1, rest, hfuel, _ => by
      rw [weight] at hfuel
      have hfirst := parseValue_dumps value fuel (dumpsFields seps fields ++ rest)
        (by omega) (stopsAt_dumpsFields hseps fields rest)
      have hfields := parseFields_dumps fields fuel rest (by omega)
      have hkey := parseKey_dumps hseps key value (dumpsFields seps fields ++ rest)
      rw [quote_append] at hkey
      rw [dumpsWith]
      simp only [List.cons_append, List.append_assoc, quote_append] at hkey ⊢
      rw [parseValue, if_neg (by decide), if_neg (by decide), if_pos rfl,
        skipSpace_cons (by decide)]
      dsimp only
      rw [if_neg (by decide), hkey, Option.bind_some, hfirst, Option.bind_some, hfields]
      rfl

theorem parseItems_dumps : (items : List Json) → (fuel : Nat) → (rest : Str) →
    weightItems items ≤ fuel →
    parseItems normal fuel (dumpsItems seps items ++ rest) =
      some (rereadItems normal items, rest)
  | items, 0, _, hfuel => by cases items <;> rw [weightItems] at hfuel <;> omega
  | [], fuel + 1, rest, _ => by
      simp [dumpsItems, parseItems, skipSpace, isJsonSpace, rereadItems]
  | x :: items, fuel + 1, rest, hfuel => by
      rw [weightItems] at hfuel
      have hfirst := parseValue_dumps x fuel (dumpsItems seps items ++ rest) (by omega)
        (stopsAt_dumpsItems hseps items rest)
      have hitems := parseItems_dumps items fuel rest (by omega)
      obtain ⟨c, tail, hvalue, hspace, -⟩ := dumps_head seps x
      obtain ⟨space, hitem, hspaces⟩ := hseps.item
      rw [hvalue] at hfirst
      rw [dumpsItems, hvalue, hitem]
      simp only [List.cons_append, List.append_assoc] at hfirst ⊢
      rw [parseItems, skipSpace_cons (by decide)]
      dsimp only
      rw [if_neg (by decide), if_pos rfl, skipSpace_append hspaces, skipSpace_cons hspace, hfirst,
        Option.bind_some, hitems]
      rfl

theorem parseFields_dumps : (fields : List (Str × Json)) → (fuel : Nat) → (rest : Str) →
    weightFields fields ≤ fuel →
    parseFields normal fuel (dumpsFields seps fields ++ rest) =
      some (rereadFields normal fields, rest)
  | fields, 0, _, hfuel => by cases fields <;> rw [weightFields] at hfuel <;> omega
  | [], fuel + 1, rest, _ => by
      simp [dumpsFields, parseFields, skipSpace, isJsonSpace, rereadFields]
  | (key, value) :: fields, fuel + 1, rest, hfuel => by
      rw [weightFields] at hfuel
      have hfirst := parseValue_dumps value fuel (dumpsFields seps fields ++ rest)
        (by omega) (stopsAt_dumpsFields hseps fields rest)
      have hfields := parseFields_dumps fields fuel rest (by omega)
      have hkey := parseKey_dumps hseps key value (dumpsFields seps fields ++ rest)
      obtain ⟨space, hitem, hspaces⟩ := hseps.item
      rw [quote_append] at hkey
      rw [dumpsFields, hitem]
      simp only [List.cons_append, List.append_assoc, quote_append] at hkey ⊢
      rw [parseFields, skipSpace_cons (by decide)]
      dsimp only
      rw [if_neg (by decide), if_pos rfl, skipSpace_append hspaces, skipSpace_cons (by decide), hkey,
        Option.bind_some, hfirst, Option.bind_some, hfields]
      rfl

end

/-- What is written with such separators `loads` reads back. -/
theorem loads_dumpsWith (value : Json) :
    loads normal (dumpsWith seps value) = some (reread normal value) := by
  obtain ⟨c, tail, hvalue, hspace, -⟩ := dumps_head seps value
  have hparse := parseValue_dumps normal hseps value ((dumpsWith seps value).length + 1) []
    (by have := weight_le hseps value; omega) (by intro c hc; simp at hc)
  rw [List.append_nil] at hparse
  have hstart : skipSpace (dumpsWith seps value) = dumpsWith seps value := by
    rw [hvalue, skipSpace_cons hspace]
  rw [loads, hstart, hparse, Option.bind_some]
  rfl

end Values

/-- What `dumps` writes `loads` reads back. -/
theorem loads_dumps (value : Json) : loads normal (dumps value) = some (reread normal value) :=
  loads_dumpsWith normal spaced_compactSeparators value

end Json

end OpenStarry.Lib
