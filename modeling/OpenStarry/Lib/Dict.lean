import OpenStarry.Lib.Json

/-!
# Changing a dict in place

One value of a dict is changed and the others stay, and the values of one shape are changed and the
others stay.
-/

namespace OpenStarry.Lib

open Text

namespace Dict

/-- `d[key] = f(d[key])`, when the key is there. -/
def update (key : String) (f : Json → Json) : Dict → Dict
  | [] => []
  | p :: rest => if p.1 = key.toList then (p.1, f p.2) :: rest else p :: update key f rest

/-- `d[key] = value`: in the place of the old value, or behind the other fields. -/
def set (d : Dict) (key : String) (value : Json) : Dict :=
  if d.has key then update key (fun _ => value) d else d ++ [(key.toList, value)]

/-- `d.setdefault(key, value)`. -/
def setDefault (d : Dict) (key : String) (value : Json) : Dict :=
  if d.has key then d else d.set key value

/-- `d.update(fields)`. -/
def merge (d fields : Dict) : Dict :=
  fields.foldl (fun d field => d.set (String.ofList field.1) field.2) d

section Lemmas

variable {d : Dict} {key other : String} {f : Json → Json} {value : Json}

theorem lookup_update_self (d : Dict) (key : String) (f : Json → Json) :
    (update key f d).lookup key.toList = (d.lookup key.toList).map f := by
  induction d with
  | nil => rfl
  | cons p rest ih =>
      obtain ⟨k, v⟩ := p
      rw [update]
      split_ifs with hkey
      · simp only at hkey
        simp [hkey]
      · have hne : (key.toList == k) = false := by simpa using fun h => hkey h.symm
        rw [List.lookup_cons, List.lookup_cons, hne]
        exact ih

theorem lookup_update_ne (hne : key ≠ other) (d : Dict) (f : Json → Json) :
    (update key f d).lookup other.toList = d.lookup other.toList := by
  induction d with
  | nil => rfl
  | cons p rest ih =>
      obtain ⟨k, v⟩ := p
      rw [update]
      split_ifs with hkey
      · have hother : (other.toList == k) = false := by
          have hkey : k = key.toList := hkey
          rw [hkey, beq_eq_false_iff_ne]
          intro heq
          exact hne (String.toList_inj.mp heq.symm)
        rw [List.lookup_cons, List.lookup_cons, hother]
      · rw [List.lookup_cons, List.lookup_cons, ih]

@[simp] theorem has_update_self : (update key f d).has key = d.has key := by
  rw [has, has, lookup_update_self, Option.isSome_map]

theorem has_update_ne (hne : key ≠ other) : (update key f d).has other = d.has other := by
  rw [has, has, lookup_update_ne hne]

theorem get_update_ne (hne : key ≠ other) : (update key f d).get other = d.get other := by
  rw [get, get, lookup_update_ne hne]

theorem get_update_of_has (hhas : d.has key = true) : (update key f d).get key = f (d.get key) := by
  rw [has, Option.isSome_iff_exists] at hhas
  obtain ⟨v, hv⟩ := hhas
  rw [get, get, lookup_update_self, hv]
  rfl

theorem get_of_not_has (hhas : d.has key = false) : d.get key = .null := by
  rw [has, Option.isSome_eq_false_iff, Option.isNone_iff_eq_none] at hhas
  rw [get, hhas]
  rfl

theorem get_update_self (hnull : f .null = .null) : (update key f d).get key = f (d.get key) := by
  cases hhas : d.has key with
  | true => exact get_update_of_has hhas
  | false =>
      rw [get_of_not_has hhas, hnull]
      exact get_of_not_has (by rw [has_update_self, hhas])

theorem get_set_self : (d.set key value).get key = value := by
  rw [set]
  split_ifs with hhas
  · exact get_update_of_has hhas
  · rw [has, Bool.not_eq_true, Option.isSome_eq_false_iff, Option.isNone_iff_eq_none] at hhas
    rw [get, List.lookup_append, hhas]
    simp

theorem get_set_ne (hne : key ≠ other) : (d.set key value).get other = d.get other := by
  rw [set]
  split_ifs with hhas
  · exact get_update_ne hne
  · have hother : (other.toList == key.toList) = false := by
      rw [beq_eq_false_iff_ne]
      intro heq
      exact hne (String.toList_inj.mp heq.symm)
    rw [get, get, List.lookup_append]
    simp [List.lookup_cons, hother]

theorem get_setDefault_ne (hne : key ≠ other) : (d.setDefault key value).get other = d.get other := by
  unfold setDefault
  split_ifs with hhas
  · rfl
  · exact get_set_ne hne

theorem get_merge {fields : Dict} (hkey : key.toList ∉ fields.map Prod.fst) :
    (d.merge fields).get key = d.get key := by
  induction fields generalizing d with
  | nil => rfl
  | cons field rest ih =>
      rw [List.map_cons, List.mem_cons, not_or] at hkey
      have hne : String.ofList field.1 ≠ key := by
        intro heq
        apply hkey.1
        rw [← heq, String.toList_ofList]
      exact (ih hkey.2).trans (get_set_ne hne)

theorem get_merge_append {before after : Dict} (hkey : key.toList ∉ after.map Prod.fst) :
    (d.merge (before ++ (key.toList, value) :: after)).get key = value := by
  have hsplit : d.merge (before ++ (key.toList, value) :: after) =
      ((d.merge before).set key value).merge after := by
    unfold merge
    rw [List.foldl_append, List.foldl_cons, String.ofList_toList]
  rw [hsplit, get_merge hkey]
  exact get_set_self

theorem update_eq_self_iff : update key f d = d ↔ (d.has key = true → f (d.get key) = d.get key) := by
  induction d with
  | nil => simp [update, has]
  | cons p rest ih =>
      obtain ⟨k, v⟩ := p
      rw [update]
      split_ifs with hkey
      · have hkey : k = key.toList := hkey
        simp [hkey, has, get]
      · have hne : (key.toList == k) = false := by simpa using fun h => hkey h.symm
        rw [has, get, List.lookup_cons, hne] at *
        simpa [has, get] using ih

theorem update_eq_self (h : f (d.get key) = d.get key) : update key f d = d :=
  update_eq_self_iff.mpr fun _ => h

end Lemmas

end Dict

namespace Json

def mapObj (f : Dict → Dict) : Json → Json
  | obj d => obj (f d)
  | value => value

def mapArr (f : List Json → List Json) : Json → Json
  | arr xs => arr (f xs)
  | value => value

def mapItems (f : Json → Json) : Json → Json := mapArr (List.map f)

def mapStr (f : Str → Str) : Json → Json
  | str s => str (f s)
  | value => value

@[simp] theorem items_mapItems (f : Json → Json) (value : Json) :
    (mapItems f value).items = value.items.map f := by
  cases value <;> rfl

@[simp] theorem fields?_mapObj (f : Dict → Dict) (value : Json) :
    (mapObj f value).fields? = value.fields?.map f := by
  cases value <;> rfl

@[simp] theorem str?_mapStr (f : Str → Str) (value : Json) :
    (mapStr f value).str? = value.str?.map f := by
  cases value <;> rfl

theorem mapStr_eq_self_iff {f : Str → Str} {value : Json} :
    mapStr f value = value ↔ ∀ s, value = str s → f s = s := by
  cases value <;> simp [mapStr]

theorem mapObj_eq_self_iff {f : Dict → Dict} {value : Json} :
    mapObj f value = value ↔ ∀ d, value = obj d → f d = d := by
  cases value <;> simp [mapObj]

theorem mapArr_eq_self_iff {f : List Json → List Json} {value : Json} :
    mapArr f value = value ↔ ∀ xs, value = arr xs → f xs = xs := by
  cases value <;> simp [mapArr]

theorem mapItems_eq_self_iff {f : Json → Json} {value : Json} :
    mapItems f value = value ↔ ∀ x ∈ value.items, f x = x := by
  rw [mapItems, mapArr_eq_self_iff]
  constructor
  · intro h x hx
    cases value with
    | arr xs => exact List.map_eq_map_iff.mp ((h xs rfl).trans (List.map_id xs).symm) x hx
    | null => exact absurd hx (by simp [items])
    | bool b => exact absurd hx (by simp [items])
    | num n => exact absurd hx (by simp [items])
    | str s => exact absurd hx (by simp [items])
    | obj fields => exact absurd hx (by simp [items])
  · rintro h xs rfl
    exact (List.map_congr_left h).trans (List.map_id xs)

end Json

end OpenStarry.Lib
