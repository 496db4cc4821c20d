import Mathlib.Data.Rat.Defs
import OpenStarry.Lib.Text

/-!
# The validation of tool arguments

Arguments are checked against a part of JSON schema. The meaning of the keywords is stated once for the
standard and once as the validator takes them.
-/

namespace OpenStarry.ToolArguments

open Lib

/-! ### Values and schemas -/

/-- A JSON value as it is read: a number with a fraction or an exponent is a float. -/
inductive Value where
  | null
  | bool (b : Bool)
  | int (i : Int)
  | float (q : Rat)
  | str (s : Str)
  | arr (items : List Value)
  | obj (fields : List (Str × Value))

inductive TypeName where
  | string
  | integer
  | number
  | boolean
  | array
  | object
  | null
  deriving DecidableEq

mutual

/-- A schema; without a type and without required names the lists are empty. -/
inductive Schema where
  | mk (enum : Option (List Value)) (types : List TypeName)
      (properties : Option (List (Str × Schema))) (required : List Str) (additional : Additional)
      (items : Option Schema)

/-- `additionalProperties`. -/
inductive Additional where
  | unrestricted
  | forbidden
  | checked (schema : Schema)

end

namespace Schema

def enum : Schema → Option (List Value) | mk enum _ _ _ _ _ => enum

def types : Schema → List TypeName | mk _ types _ _ _ _ => types

def properties : Schema → Option (List (Str × Schema)) | mk _ _ properties _ _ _ => properties

def required : Schema → List Str | mk _ _ _ required _ _ => required

def additional : Schema → Additional | mk _ _ _ _ additional _ => additional

def items : Schema → Option Schema | mk _ _ _ _ _ items => items

end Schema

/-! ### Equality of values -/

def Value.asNumber (strict : Bool) : Value → Option Rat
  | .int i => some i
  | .float q => some q
  | .bool b => if strict then none else some (if b then 1 else 0)
  | _ => none

mutual

/-- Equality of JSON values when `strict`, and else that of Python. -/
def equals (strict : Bool) : Value → Value → Bool
  | .null, .null => true
  | .bool a, .bool b => a == b
  | .str a, .str b => a == b
  | .arr a, .arr b => equalItems strict a b
  | .obj a, .obj b => a.length == b.length && equalFields strict a b
  | a, b =>
      match a.asNumber strict, b.asNumber strict with
      | some p, some q => p == q
      | _, _ => false

def equalItems (strict : Bool) : List Value → List Value → Bool
  | [], [] => true
  | x :: xs, y :: ys => equals strict x y && equalItems strict xs ys
  | _, _ => false

def equalFields (strict : Bool) : List (Str × Value) → List (Str × Value) → Bool
  | [], _ => true
  | (name, value) :: rest, other =>
      (match other.lookup name with
        | some value' => equals strict value value'
        | none => false) && equalFields strict rest other

end

/-! ### The validator -/

def typeName : Value → Str
  | .null => "null".toList
  | .bool _ => "boolean".toList
  | .str _ => "string".toList
  | .int _ => "integer".toList
  | .float _ => "number".toList
  | .arr _ => "array".toList
  | .obj _ => "object".toList

/-- `_matches_type`; by the standard a number without a fractional part is an integer. -/
def matchesType (strict : Bool) : Value → TypeName → Bool
  | .str _, .string => true
  | .int _, .integer => true
  | .float q, .integer => strict && q.den == 1
  | .int _, .number => true
  | .float _, .number => true
  | .bool _, .boolean => true
  | .arr _, .array => true
  | .obj _, .object => true
  | .null, .null => true
  | _, _ => false

inductive Complaint where
  | notOneOf (enum : List Value)
  | expected (types : List TypeName) (got : Str)
  | isRequired
  | notAllowed

structure SchemaError where
  path : Str
  complaint : Complaint

def TypeName.text : TypeName → Str
  | .string => "string".toList
  | .integer => "integer".toList
  | .number => "number".toList
  | .boolean => "boolean".toList
  | .array => "array".toList
  | .object => "object".toList
  | .null => "null".toList

/-- The message; `repr` writes the list of an enum. -/
def SchemaError.text (repr : List Value → Str) (e : SchemaError) : Str :=
  e.path ++ match e.complaint with
    | .notOneOf enum => " must be one of ".toList ++ repr enum
    | .expected types got =>
        " expected ".toList ++ ['|'].intercalate (types.map TypeName.text) ++ ", got ".toList ++ got
    | .isRequired => " is required".toList
    | .notAllowed => " is not allowed".toList

def stripDots (s : Str) : Str := (s.dropWhile (· = '.')).rdropWhile (· = '.')

def childPath (path name : Str) : Str := stripDots (path ++ '.' :: name)

def itemPath (path : Str) (index : Nat) : Str := path ++ '[' :: ((Nat.repr index).toList ++ [']'])

def pathLabel (path : Str) : Str := if path = [] then "arguments".toList else path

def allowed (strict : Bool) (value : Value) (schema : Schema) : Bool :=
  (schema.enum.all fun enum => enum.any (equals strict value)) &&
    (schema.types.isEmpty || schema.types.any (matchesType strict value))

def firstErrors (value : Value) (schema : Schema) (path : Str) : List SchemaError :=
  if schema.enum.all fun enum => enum.any (equals false value) then
    if schema.types.isEmpty || schema.types.any (matchesType false value) then []
    else [⟨pathLabel path, .expected schema.types (typeName value)⟩]
  else [⟨pathLabel path, .notOneOf (schema.enum.getD [])⟩]

def requiredErrors (fields : List (Str × Value)) (required : List Str) (path : Str) :
    List SchemaError :=
  (required.filter fun name => name ∉ fields.map Prod.fst).map fun name =>
    ⟨pathLabel (childPath path name), .isRequired⟩

def memberSchema (properties : List (Str × Schema)) (additional : Additional) (name : Str) :
    Option Schema :=
  match properties.lookup name, additional with
  | some schema, _ => some schema
  | none, .checked schema => some schema
  | none, _ => none

def isForbidden (properties : List (Str × Schema)) (additional : Additional) (name : Str) : Bool :=
  match properties.lookup name, additional with
  | none, .forbidden => true
  | _, _ => false

mutual

/-- `_validate_value`. -/
def validateValue : Value → Schema → Str → List SchemaError
  | .obj fields, schema, path =>
      match firstErrors (.obj fields) schema path with
      | [] =>
          match schema.properties with
          | some properties => requiredErrors fields schema.required path ++
              validateFields fields properties schema.additional path
          | none => []
      | errors => errors
  | .arr items, schema, path =>
      match firstErrors (.arr items) schema path with
      | [] =>
          match schema.items with
          | some itemSchema => validateItems items itemSchema path 0
          | none => []
      | errors => errors
  | value, schema, path => firstErrors value schema path

def validateItems : List Value → Schema → Str → Nat → List SchemaError
  | [], _, _, _ => []
  | item :: rest, schema, path, index =>
      validateValue item schema (itemPath path index) ++ validateItems rest schema path (index + 1)

def validateFields : List (Str × Value) → List (Str × Schema) → Additional → Str → List SchemaError
  | [], _, _, _ => []
  | (name, value) :: rest, properties, additional, path =>
      (match memberSchema properties additional name with
        | some schema => validateValue value schema (childPath path name)
        | none =>
            if isForbidden properties additional name then
              [⟨pathLabel (childPath path name), .notAllowed⟩]
            else []) ++ validateFields rest properties additional path

end

/-- `validate_tool_arguments` at the top. -/
def validateToolArguments (arguments : List (Str × Value)) (properties : Option (List (Str × Schema)))
    (required : List Str) (additional : Additional) : List SchemaError :=
  requiredErrors arguments required [] ++
    validateFields arguments (properties.getD []) additional []

/-! ### What the keywords mean -/

mutual

/-- The value satisfies the schema: by the standard when `strict`, and else as the validator reads it,
for which the keywords of objects say nothing in a schema without properties. -/
def Satisfies (strict : Bool) : Value → Schema → Prop
  | .obj fields, schema =>
      allowed strict (.obj fields) schema = true ∧
        (strict = true ∨ schema.properties.isSome = true →
          (∀ name ∈ schema.required, name ∈ fields.map Prod.fst) ∧
            FieldsSatisfy strict fields (schema.properties.getD []) schema.additional)
  | .arr items, schema =>
      allowed strict (.arr items) schema = true ∧
        ∀ itemSchema ∈ schema.items, ItemsSatisfy strict items itemSchema
  | value, schema => allowed strict value schema = true

def ItemsSatisfy (strict : Bool) : List Value → Schema → Prop
  | [], _ => True
  | item :: rest, schema => Satisfies strict item schema ∧ ItemsSatisfy strict rest schema

def FieldsSatisfy (strict : Bool) : List (Str × Value) → List (Str × Schema) → Additional → Prop
  | [], _, _ => True
  | (name, value) :: rest, properties, additional =>
      ((∀ schema ∈ memberSchema properties additional name, Satisfies strict value schema) ∧
        isForbidden properties additional name = false) ∧
        FieldsSatisfy strict rest properties additional

end

/-! ### The validator reports what it takes for a violation -/

section

variable {path name : Str} {value : Value} {schema : Schema} {fields : List (Str × Value)}
  {properties : List (Str × Schema)} {additional : Additional}

theorem firstErrors_eq_nil (value : Value) (schema : Schema) (path : Str) :
    firstErrors value schema path = [] ↔ allowed false value schema = true := by
  unfold firstErrors allowed
  rw [Bool.and_eq_true]
  split_ifs with henum htypes
  · simp [henum, htypes]
  · simp [henum, htypes]
  · simp [henum]

theorem requiredErrors_eq_nil (fields : List (Str × Value)) (required : List Str) (path : Str) :
    requiredErrors fields required path = [] ↔
      ∀ name ∈ required, name ∈ fields.map Prod.fst := by
  rw [requiredErrors, List.map_eq_nil_iff, List.filter_eq_nil_iff]
  simp

theorem isForbidden_of_memberSchema (h : memberSchema properties additional name = some schema) :
    isForbidden properties additional name = false := by
  unfold memberSchema at h
  unfold isForbidden
  cases hlookup : properties.lookup name with
  | some found => rfl
  | none =>
      rw [hlookup] at h
      cases additional with
      | checked found => rfl
      | unrestricted => rfl
      | forbidden => cases h

mutual

theorem validateValue_eq_nil (value : Value) (schema : Schema) (path : Str) :
    validateValue value schema path = [] ↔ Satisfies false value schema := by
  match value with
  | .obj fields =>
      rw [validateValue, Satisfies, ← firstErrors_eq_nil _ schema path]
      cases hfirst : firstErrors (.obj fields) schema path with
      | cons error errors => simp
      | nil =>
          cases hproperties : schema.properties with
          | none => simp
          | some properties =>
              simp only [List.append_eq_nil_iff, requiredErrors_eq_nil, Option.isSome_some,
                or_true, true_implies, Option.getD_some, true_and]
              rw [validateFields_eq_nil fields]
  | .arr items =>
      rw [validateValue, Satisfies, ← firstErrors_eq_nil _ schema path]
      cases hfirst : firstErrors (.arr items) schema path with
      | cons error errors => simp
      | nil =>
          cases hitems : schema.items with
          | none => simp
          | some itemSchema =>
              simp only [Option.mem_def, Option.some.injEq, forall_eq', true_and]
              exact validateItems_eq_nil items itemSchema path 0
  | .null => exact firstErrors_eq_nil _ _ _
  | .bool _ => exact firstErrors_eq_nil _ _ _
  | .int _ => exact firstErrors_eq_nil _ _ _
  | .float _ => exact firstErrors_eq_nil _ _ _
  | .str _ => exact firstErrors_eq_nil _ _ _

theorem validateItems_eq_nil (items : List Value) (schema : Schema) (path : Str) (index : Nat) :
    validateItems items schema path index = [] ↔ ItemsSatisfy false items schema := by
  match items with
  | [] => exact iff_of_true rfl trivial
  | item :: rest =>
      rw [validateItems, ItemsSatisfy, List.append_eq_nil_iff,
        validateValue_eq_nil item schema, validateItems_eq_nil rest schema]

theorem validateFields_eq_nil (fields : List (Str × Value)) (properties : List (Str × Schema))
    (additional : Additional) (path : Str) :
    validateFields fields properties additional path = [] ↔
      FieldsSatisfy false fields properties additional := by
  match fields with
  | [] => exact iff_of_true rfl trivial
  | (name, value) :: rest =>
      rw [validateFields, FieldsSatisfy, List.append_eq_nil_iff,
        validateFields_eq_nil rest properties additional]
      refine and_congr_left fun _ => ?_
      cases hschema : memberSchema properties additional name with
      | some schema =>
          have hallowed := isForbidden_of_memberSchema hschema
          simp only [Option.mem_def, Option.some.injEq, forall_eq', hallowed, and_true]
          exact validateValue_eq_nil value schema _
      | none => cases isForbidden properties additional name <;> simp

end

end

/-! ### The places that errors name -/

inductive Step where
  | name (n : Str)
  | index (i : Nat)

def Step.text : Step → Str
  | name n => '.' :: n
  | index i => '[' :: ((Nat.repr i).toList ++ [']'])

def label (place : List Step) : Str := (place.flatMap Step.text).tail

inductive At (root : Value) : List Step → Value → Prop where
  | here : At root [] root
  | member {place fields name value} (h : At root place (.obj fields))
      (hmem : (name, value) ∈ fields) : At root (place ++ [.name name]) value
  | item {place items i value} (h : At root place (.arr items)) (hitem : items[i]? = some value) :
      At root (place ++ [.index i]) value

def Names (root : Value) (e : SchemaError) : Prop :=
  ∃ place, e.path = label place ∧
    match e.complaint with
    | .isRequired => ∃ parent name fields, place = parent ++ [.name name] ∧
        At root parent (.obj fields) ∧ name ∉ fields.map Prod.fst
    | _ => ∃ value, At root place value

def Plain (name : Str) : Prop :=
  name ≠ [] ∧ name.head? ≠ some '.' ∧ name.getLast? ≠ some '.'

/-- A value and the schema it is checked against, on the way through another. -/
inductive Met : Value → Schema → Value → Schema → Prop where
  | here {value schema} : Met value schema value schema
  | member {fields schema properties name value inner value' schema'}
      (hmem : (name, value) ∈ fields) (hproperties : schema.properties = some properties)
      (hschema : memberSchema properties schema.additional name = some inner)
      (h : Met value inner value' schema') : Met (.obj fields) schema value' schema'
  | item {items schema value inner value' schema'} (hmem : value ∈ items)
      (hschema : schema.items = some inner) (h : Met value inner value' schema') :
      Met (.arr items) schema value' schema'

def PlainNames (value : Value) (schema : Schema) : Prop :=
  ∀ fields inner, Met value schema (.obj fields) inner →
    (∀ name ∈ fields.map Prod.fst, Plain name) ∧ ∀ name ∈ inner.required, Plain name

def Follows (path : Str) (place : List Step) : Prop :=
  (place = [] ∧ path = []) ∨
    (∃ c, place.flatMap Step.text = c :: path) ∧ path ≠ [] ∧ path.head? ≠ some '.'

section

variable {path name : Str} {place : List Step}

theorem Follows.label_eq (h : Follows path place) : label place = path := by
  obtain ⟨rfl, rfl⟩ | ⟨⟨c, hc⟩, -⟩ := h
  · rfl
  · rw [label, hc, List.tail_cons]

theorem stripDots_eq_self {s : Str} (hhead : s.head? ≠ some '.') (hlast : s.getLast? ≠ some '.') :
    stripDots s = s := by
  have hleft : s.dropWhile (· = '.') = s := by
    rw [List.dropWhile_eq_self_iff]
    intro hpos hdot
    rw [List.head?_eq_getElem?, List.getElem?_eq_getElem hpos] at hhead
    exact hhead (congrArg some (of_decide_eq_true hdot))
  rw [stripDots, hleft, List.rdropWhile_eq_self_iff]
  intro hne hdot
  rw [List.getLast?_eq_some_getLast hne] at hlast
  exact hlast (congrArg some (of_decide_eq_true hdot))

theorem Follows.child (h : Follows path place) (hname : Plain name) :
    Follows (childPath path name) (place ++ [.name name]) ∧ childPath path name ≠ [] := by
  obtain ⟨hne, hhead, hlast⟩ := hname
  obtain ⟨rfl, rfl⟩ | ⟨⟨c, hc⟩, hpath, hstart⟩ := h
  · have hchild : childPath [] name = name := by
      have hdot : stripDots ('.' :: name) = stripDots name := rfl
      rw [childPath, List.nil_append, hdot, stripDots_eq_self hhead hlast]
    rw [hchild]
    exact ⟨Or.inr ⟨⟨'.', by simp [Step.text]⟩, hne, hhead⟩, hne⟩
  · have hchild : childPath path name = path ++ '.' :: name := by
      refine stripDots_eq_self ?_ ?_
      · rwa [List.head?_append_of_ne_nil _ hpath]
      · obtain ⟨d, rest, rfl⟩ := List.exists_cons_of_ne_nil hne
        rwa [List.getLast?_append_of_ne_nil _ (List.cons_ne_nil _ _), List.getLast?_cons_cons]
    rw [hchild]
    refine ⟨Or.inr ⟨⟨c, ?_⟩, by simp, ?_⟩, by simp⟩
    · rw [List.flatMap_append, hc]
      simp [Step.text]
    · rwa [List.head?_append_of_ne_nil _ hpath]

theorem Follows.item (h : Follows path place) (hpath : path ≠ []) (index : Nat) :
    Follows (itemPath path index) (place ++ [.index index]) ∧ itemPath path index ≠ [] := by
  obtain ⟨-, rfl⟩ | ⟨⟨c, hc⟩, -, hstart⟩ := h
  · exact absurd rfl hpath
  · refine ⟨Or.inr ⟨⟨c, ?_⟩, by simp [itemPath], ?_⟩, by simp [itemPath]⟩
    · rw [List.flatMap_append, hc]
      simp [Step.text, itemPath]
    · rwa [itemPath, List.head?_append_of_ne_nil _ hpath]

end

section

variable {root : Value} {path : Str} {place : List Step}

theorem names_of_value {value : Value} {e : SchemaError} (hplace : Follows path place)
    (hpath : path ≠ []) (hat : At root place value) (hkind : e.complaint ≠ .isRequired)
    (he : e.path = pathLabel path) : Names root e := by
  refine ⟨place, ?_, ?_⟩
  · rw [he, pathLabel, if_neg hpath, hplace.label_eq]
  · cases hcomplaint : e.complaint with
    | isRequired => exact absurd hcomplaint hkind
    | notOneOf => exact ⟨value, hat⟩
    | expected => exact ⟨value, hat⟩
    | notAllowed => exact ⟨value, hat⟩

theorem names_of_firstErrors {value : Value} {schema : Schema} (hplace : Follows path place)
    (hpath : path ≠ []) (hat : At root place value) :
    ∀ e ∈ firstErrors value schema path, Names root e := by
  intro e he
  unfold firstErrors at he
  split_ifs at he
  · cases he
  · rw [List.mem_singleton.1 he]
    exact names_of_value hplace hpath hat Complaint.noConfusion rfl
  · rw [List.mem_singleton.1 he]
    exact names_of_value hplace hpath hat Complaint.noConfusion rfl

theorem names_of_requiredErrors {fields : List (Str × Value)} {required : List Str}
    (hplace : Follows path place) (hat : At root place (.obj fields))
    (hplain : ∀ name ∈ required, Plain name) :
    ∀ e ∈ requiredErrors fields required path, Names root e := by
  intro e he
  obtain ⟨name, hname, rfl⟩ := List.mem_map.1 he
  obtain ⟨hmem, hmissing⟩ := List.mem_filter.1 hname
  obtain ⟨hchild, hne⟩ := hplace.child (hplain name hmem)
  refine ⟨place ++ [.name name], ?_, place, name, fields, rfl, hat, of_decide_eq_true hmissing⟩
  rw [pathLabel, if_neg hne, hchild.label_eq]

mutual

theorem names_of_validateValue (value : Value) (schema : Schema) (path : Str) (place : List Step)
    (hplace : Follows path place) (hpath : path ≠ []) (hat : At root place value)
    (hplain : PlainNames value schema) : ∀ e ∈ validateValue value schema path, Names root e := by
  have hfirst : ∀ e ∈ firstErrors value schema path, Names root e :=
    names_of_firstErrors hplace hpath hat
  match value with
  | .obj fields =>
      intro e he
      rw [validateValue] at he
      split at he
      · cases hproperties : schema.properties with
        | none =>
            rw [hproperties] at he
            cases he
        | some properties =>
            rw [hproperties] at he
            obtain ⟨hnames, hrequired⟩ := hplain fields schema .here
            obtain he | he := List.mem_append.1 he
            · exact names_of_requiredErrors hplace hat hrequired e he
            · refine names_of_validateFields fields fields properties schema.additional path place
                hplace hat (fun _ h => h) hnames ?_ e he
              intro name value hmem inner hinner fields' schema' hmet
              exact hplain fields' schema' (.member hmem hproperties hinner hmet)
      · exact hfirst e he
  | .arr items =>
      intro e he
      rw [validateValue] at he
      split at he
      · cases hitems : schema.items with
        | none =>
            rw [hitems] at he
            cases he
        | some itemSchema =>
            rw [hitems] at he
            refine names_of_validateItems items items itemSchema path place 0 hplace hpath hat
              (fun i item h => by rwa [Nat.zero_add]) ?_ e he
            intro item hitem fields' schema' hmet
            exact hplain fields' schema' (.item hitem hitems hmet)
      · exact hfirst e he
  | .null => exact hfirst
  | .bool _ => exact hfirst
  | .int _ => exact hfirst
  | .float _ => exact hfirst
  | .str _ => exact hfirst

theorem names_of_validateItems (items all : List Value) (schema : Schema) (path : Str)
    (place : List Step) (index : Nat) (hplace : Follows path place) (hpath : path ≠ [])
    (hat : At root place (.arr all)) (hall : ∀ i item, items[i]? = some item →
      all[index + i]? = some item) (hplain : ∀ item ∈ items, PlainNames item schema) :
    ∀ e ∈ validateItems items schema path index, Names root e := by
  match items with
  | [] => exact fun e he => nomatch he
  | item :: rest =>
      intro e he
      rw [validateItems] at he
      obtain he | he := List.mem_append.1 he
      · obtain ⟨hitem, hne⟩ := hplace.item hpath index
        exact names_of_validateValue item schema _ _ hitem hne (.item hat (hall 0 item rfl))
          (hplain item List.mem_cons_self) e he
      · refine names_of_validateItems rest all schema path place (index + 1) hplace hpath hat ?_
          (fun other hother => hplain other (List.mem_cons_of_mem _ hother)) e he
        intro i other hother
        rw [Nat.add_assoc, Nat.add_comm 1 i]
        exact hall (i + 1) other hother

theorem names_of_validateFields (fields all : List (Str × Value)) (properties : List (Str × Schema))
    (additional : Additional) (path : Str) (place : List Step) (hplace : Follows path place)
    (hat : At root place (.obj all)) (hall : ∀ field ∈ fields, field ∈ all)
    (hnames : ∀ name ∈ fields.map Prod.fst, Plain name)
    (hplain : ∀ name value, (name, value) ∈ fields → ∀ schema,
      memberSchema properties additional name = some schema → PlainNames value schema) :
    ∀ e ∈ validateFields fields properties additional path, Names root e := by
  match fields with
  | [] => exact fun e he => nomatch he
  | (name, value) :: rest =>
      intro e he
      rw [validateFields] at he
      obtain he | he := List.mem_append.1 he
      · obtain ⟨hchild, hne⟩ := hplace.child (hnames name List.mem_cons_self)
        have hmember := At.member hat (hall (name, value) List.mem_cons_self)
        cases hschema : memberSchema properties additional name with
        | some schema =>
            rw [hschema] at he
            exact names_of_validateValue value schema _ _ hchild hne hmember
              (hplain name value List.mem_cons_self schema hschema) e he
        | none =>
            rw [hschema] at he
            dsimp only at he
            split_ifs at he
            · rw [List.mem_singleton.1 he]
              exact names_of_value hchild hne hmember Complaint.noConfusion rfl
            · cases he
      · refine names_of_validateFields rest all properties additional path place hplace hat
          (fun field hfield => hall field (List.mem_cons_of_mem _ hfield))
          (fun other hother => hnames other (List.mem_cons_of_mem _ hother)) ?_ e he
        exact fun other value' hmem => hplain other value' (List.mem_cons_of_mem _ hmem)

end

end

/-! ### What the validator promises -/

def rootSchema (properties : Option (List (Str × Schema))) (required : List Str)
    (additional : Additional) : Schema :=
  .mk none [.object] (some (properties.getD [])) required additional none

/-- The validator reports nothing exactly when the arguments satisfy the schema by the standard, and
errors where they are. -/
structure Judges (arguments : List (Str × Value)) (properties : Option (List (Str × Schema)))
    (required : List Str) (additional : Additional) : Prop where
  exact_of : validateToolArguments arguments properties required additional = [] ↔
    Satisfies true (.obj arguments) (rootSchema properties required additional)
  named : ∀ e ∈ validateToolArguments arguments properties required additional,
    Names (.obj arguments) e

theorem validateToolArguments_eq_nil (arguments : List (Str × Value))
    (properties : Option (List (Str × Schema))) (required : List Str) (additional : Additional) :
    validateToolArguments arguments properties required additional = [] ↔
      Satisfies false (.obj arguments) (rootSchema properties required additional) := by
  rw [← validateValue_eq_nil _ _ [], validateValue]
  rfl

/-- `{"type": "object", "required": ["b"]}` and `{"enum": [1]}`. -/
def looseSchemas : List (Str × Schema) :=
  [("a".toList, .mk none [.object] none ["b".toList] .unrestricted none),
    ("n".toList, .mk (some [.int 1]) [] none [] .unrestricted none)]

end OpenStarry.ToolArguments
