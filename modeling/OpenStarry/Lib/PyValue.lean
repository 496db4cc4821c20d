import OpenStarry.Lib.SortKeys

/-!
# Python values and JSON

The values that a decoded document may hold: those of JSON, dicts with keys of any kind, and objects
that JSON has no form for. `json.dumps` writes the first kind only; a value made of JSON parts with
distinct text keys comes back from its text as it was.
-/

namespace OpenStarry.Lib

open Text

/-! ### Integers as numbers -/

namespace Number

theorem scanNumber_neg_decimal (n : Nat) :
    Json.scanNumber ('-' :: decimal n) = some ('-' :: decimal n, []) := by
  have hdecimal := scanNumber_decimal n
  obtain ⟨c, rest, htext⟩ := List.exists_cons_of_ne_nil (decimal_ne_nil n)
  have hdigit : c.isDigit = true := isDigit_of_mem_decimal (htext ▸ List.mem_cons_self)
  have hsign : c ≠ '-' := by
    rintro rfl
    exact absurd hdigit (by decide)
  rw [htext] at hdecimal ⊢
  rw [Json.scanNumber, Json.scanSpecial_eq_none (.inl hdigit), Option.none_or, Json.scanSigned,
    if_neg hsign] at hdecimal
  rw [Json.scanNumber, Json.scanSpecial_eq_none (.inr ⟨rfl, c, rfl, hdigit⟩), Option.none_or,
    Json.scanSigned, if_pos rfl, hdecimal]
  rfl

theorem scanNumber_intText (value : Int) :
    Json.scanNumber (intText value) = some (intText value, []) := by
  rw [intText]
  split
  · exact scanNumber_neg_decimal _
  · exact scanNumber_decimal _

def ofInt (value : Int) : Number := ⟨intText value, scanNumber_intText value⟩

def toInt? (n : Number) : Option Int :=
  match n.text with
  | '-' :: digits => if digits.all Char.isDigit then some (-(intOf digits : Int)) else none
  | digits => if digits.all Char.isDigit then some (intOf digits : Int) else none

theorem toInt?_ofInt (value : Int) : (ofInt value).toInt? = some value := by
  have hdigits : (decimal value.natAbs).all Char.isDigit = true :=
    List.all_eq_true.mpr fun c hc => isDigit_of_mem_decimal hc
  have htext : (ofInt value).text = intText value := rfl
  rw [toInt?, htext]
  by_cases hneg : value < 0
  · have hminus : intText value = '-' :: decimal value.natAbs := if_pos hneg
    rw [hminus]
    simp only [hdigits, if_true, intOf_decimal, Option.some_inj]
    omega
  · have hplain : intText value = decimal value.natAbs := if_neg hneg
    rw [hplain]
    split
    · rename_i digits hsplit
      have hsign : '-' ∈ decimal value.natAbs := hsplit ▸ List.mem_cons_self
      exact absurd (isDigit_of_mem_decimal hsign) (by decide)
    · rw [if_pos hdigits, intOf_decimal]
      congr 1
      omega

end Number

/-! ### Values -/

inductive PyValue where
  | none
  | bool (b : Bool)
  | int (value : Int)
  | float (repr : Number)
  | str (s : Str)
  | list (items : List PyValue)
  | dict (entries : List (PyValue × PyValue))
  | other (name : Str)

namespace PyValue

mutual

/-- What `json.loads` makes of a value. -/
def ofJson : Json → PyValue
  | .null => none
  | .bool b => bool b
  | .num n => n.toInt?.elim (float n) int
  | .str s => str s
  | .arr items => list (ofJsonItems items)
  | .obj fields => dict (ofJsonFields fields)

def ofJsonItems : List Json → List PyValue
  | [] => []
  | x :: rest => ofJson x :: ofJsonItems rest

def ofJsonFields : List (Str × Json) → List (PyValue × PyValue)
  | [] => []
  | (key, value) :: rest => (str key, ofJson value) :: ofJsonFields rest

end

/-- The key of a dict as `json.dumps` writes it. -/
def keyText : PyValue → Option Str
  | none => some Json.nullText
  | bool true => some Json.trueText
  | bool false => some Json.falseText
  | int value => some (intText value)
  | float repr => some repr.text
  | str s => some s
  | _ => Option.none

mutual

/-- What `json.dumps` writes, `none` for its error. -/
def toJson? : PyValue → Option Json
  | none => some .null
  | bool b => some (.bool b)
  | int value => some (.num (Number.ofInt value))
  | float repr => some (.num repr)
  | str s => some (.str s)
  | list items => (toJsonItems? items).map .arr
  | dict entries => (toJsonFields? entries).map .obj
  | other _ => Option.none

def toJsonItems? : List PyValue → Option (List Json)
  | [] => some []
  | x :: rest => (toJson? x).bind fun value => (toJsonItems? rest).map (value :: ·)

def toJsonFields? : List (PyValue × PyValue) → Option (List (Str × Json))
  | [] => some []
  | (key, value) :: rest =>
      (keyText key).bind fun text => (toJson? value).bind fun value =>
        (toJsonFields? rest).map ((text, value) :: ·)

end

def IsJson (value : PyValue) : Prop := ∃ json : Json, json.Proper ∧ json.isFinite ∧ ofJson json = value

def Survives (value : PyValue) : Prop :=
  ∃ json, toJson? value = some json ∧ json.Proper ∧ ofJson json = value

/-- `json.loads(json.dumps(value))`. -/
def reload (value : PyValue) : Option PyValue :=
  (toJson? value).bind fun json =>
    (Json.loads id (Json.dumpsWith Json.defaultSeparators json)).map ofJson

theorem reload_eq {value : PyValue} (h : Survives value) : reload value = some value := by
  obtain ⟨json, hjson, hproper, hback⟩ := h
  rw [reload, hjson, Option.bind_some, Json.loads_dumpsWith id Json.spaced_defaultSeparators,
    Json.reread_of_proper json hproper, Option.map_some, hback]

/-! ### Which values come back -/

theorem survives_none : Survives none := ⟨.null, rfl, trivial, rfl⟩

theorem survives_bool (b : Bool) : Survives (bool b) := ⟨.bool b, rfl, trivial, rfl⟩

theorem survives_str (s : Str) : Survives (str s) := ⟨.str s, rfl, trivial, rfl⟩

theorem survives_int (value : Int) : Survives (int value) :=
  ⟨.num (Number.ofInt value), rfl, trivial, by rw [ofJson, Number.toInt?_ofInt]; rfl⟩

theorem survives_items {items : List PyValue} (h : ∀ x ∈ items, Survives x) :
    ∃ jsons, toJsonItems? items = some jsons ∧ Json.ProperItems jsons ∧
      ofJsonItems jsons = items := by
  induction items with
  | nil => exact ⟨[], rfl, trivial, rfl⟩
  | cons x rest ih =>
      rw [List.forall_mem_cons] at h
      obtain ⟨json, hjson, hproper, hback⟩ := h.1
      obtain ⟨jsons, hjsons, hpropers, hbacks⟩ := ih h.2
      refine ⟨json :: jsons, ?_, ⟨hproper, hpropers⟩, ?_⟩
      · rw [toJsonItems?, hjson, hjsons]
        rfl
      · rw [ofJsonItems, hback, hbacks]

theorem survives_list {items : List PyValue} (h : ∀ x ∈ items, Survives x) :
    Survives (list items) := by
  obtain ⟨jsons, hjsons, hproper, hback⟩ := survives_items h
  exact ⟨.arr jsons, by rw [toJson?, hjsons]; rfl, hproper, by rw [ofJson, hback]⟩

def record (fields : List (Str × PyValue)) : PyValue := dict (fields.map fun p => (str p.1, p.2))

theorem survives_fields {fields : List (Str × PyValue)} (h : ∀ p ∈ fields, Survives p.2) :
    ∃ jsons, toJsonFields? (fields.map fun p => (str p.1, p.2)) = some jsons ∧
      jsons.map Prod.fst = fields.map Prod.fst ∧ Json.ProperFields jsons ∧
      ofJsonFields jsons = fields.map fun p => (str p.1, p.2) := by
  induction fields with
  | nil => exact ⟨[], rfl, rfl, trivial, rfl⟩
  | cons p rest ih =>
      rw [List.forall_mem_cons] at h
      obtain ⟨json, hjson, hproper, hback⟩ := h.1
      obtain ⟨jsons, hjsons, hkeys, hpropers, hbacks⟩ := ih h.2
      refine ⟨(p.1, json) :: jsons, ?_, ?_, ⟨hproper, hpropers⟩, ?_⟩
      · rw [List.map_cons, toJsonFields?, keyText, Option.bind_some, hjson, Option.bind_some, hjsons]
        rfl
      · rw [List.map_cons, List.map_cons, hkeys]
      · rw [ofJsonFields, hback, hbacks, List.map_cons]

theorem survives_record {fields : List (Str × PyValue)} (hnodup : (fields.map Prod.fst).Nodup)
    (h : ∀ p ∈ fields, Survives p.2) : Survives (record fields) := by
  obtain ⟨jsons, hjsons, hkeys, hproper, hback⟩ := survives_fields h
  refine ⟨.obj jsons, ?_, ⟨hkeys ▸ hnodup, hproper⟩, ?_⟩
  · rw [record, toJson?, hjsons]
    rfl
  · rw [ofJson, hback, record]

mutual

theorem survives_ofJson : (json : Json) → json.Proper → Survives (ofJson json)
  | .null, _ => survives_none
  | .bool b, _ => survives_bool b
  | .num n, _ => by
      rw [ofJson]
      cases hint : n.toInt? with
      | none => exact ⟨.num n, rfl, trivial, by rw [ofJson, hint]⟩
      | some value => exact survives_int value
  | .str s, _ => survives_str s
  | .arr items, h => survives_list (survives_ofJsonItems items h)
  | .obj fields, h => by
      obtain ⟨entries, hentries, hkeys, hall⟩ := survives_ofJsonFields fields h.2
      rw [ofJson, hentries]
      exact survives_record (hkeys ▸ h.1) hall

theorem survives_ofJsonItems : (items : List Json) → Json.ProperItems items →
    ∀ x ∈ ofJsonItems items, Survives x
  | [], _ => fun _ hx => absurd hx List.not_mem_nil
  | json :: rest, h => List.forall_mem_cons.mpr
      ⟨survives_ofJson json h.1, survives_ofJsonItems rest h.2⟩

theorem survives_ofJsonFields : (fields : List (Str × Json)) → Json.ProperFields fields →
    ∃ entries : List (Str × PyValue), ofJsonFields fields = entries.map (fun p => (str p.1, p.2)) ∧
      fields.map Prod.fst = entries.map Prod.fst ∧ ∀ p ∈ entries, Survives p.2
  | [], _ => ⟨[], rfl, rfl, fun p hp => absurd hp List.not_mem_nil⟩
  | (key, json) :: rest, h => by
      obtain ⟨entries, hentries, hkeys, hall⟩ := survives_ofJsonFields rest h.2
      refine ⟨(key, ofJson json) :: entries, ?_, ?_, List.forall_mem_cons.mpr
        ⟨survives_ofJson json h.1, hall⟩⟩
      · rw [ofJsonFields, hentries, List.map_cons]
      · rw [List.map_cons, List.map_cons, hkeys]

end

theorem survives_of_isJson {value : PyValue} (h : IsJson value) : Survives value := by
  obtain ⟨json, hproper, -, rfl⟩ := h
  exact survives_ofJson json hproper

end PyValue

end OpenStarry.Lib
