import Mathlib.Algebra.GroupWithZero.Nat
import OpenStarry.Lib.SortKeys

/-!
# The length of a dump with sorted keys

The order of the fields does not count, so the length of an object is the sum over its fields. A
field that is set either takes the place of another one or is added to the sum.
-/

namespace OpenStarry.Lib

open Text

namespace Json

def escapedChars (s : Str) : Nat := (s.flatMap escape).length

/-- The length of `json.dumps(value, sort_keys=True)`. -/
def sortedChars (value : Json) : Nat := (dumpsWith defaultSeparators (sortKeys value)).length

/-! ### Texts -/

@[simp] theorem escapedChars_nil : escapedChars [] = 0 := rfl

theorem escapedChars_append (s t : Str) :
    escapedChars (s ++ t) = escapedChars s + escapedChars t := by
  rw [escapedChars, List.flatMap_append, List.length_append, escapedChars, escapedChars]

theorem escapedChars_eq_length {s : Str} (h : ∀ c ∈ s, escape c = [c]) :
    escapedChars s = s.length := by
  induction s with
  | nil => rfl
  | cons c s ih =>
      obtain ⟨hc, hs⟩ := List.forall_mem_cons.mp h
      have hrest := ih hs
      rw [escapedChars] at hrest ⊢
      rw [List.flatMap_cons, hc, List.length_append, hrest, List.length_singleton, List.length_cons,
        Nat.add_comm]

theorem escapedChars_unlines {lines : List Str} (hne : lines ≠ []) :
    escapedChars (unlines lines) + 2 = (lines.map fun line => escapedChars line + 2).sum := by
  induction lines with
  | nil => exact absurd rfl hne
  | cons line rest ih =>
      have hfeed : escapedChars ['\n'] = 2 := rfl
      cases rest with
      | nil =>
          rw [unlines, List.intercalate_singleton]
          rfl
      | cons next rest =>
          have hrest := ih (List.cons_ne_nil _ _)
          rw [unlines] at hrest ⊢
          rw [List.intercalate_cons_of_ne_nil (List.cons_ne_nil _ _), escapedChars_append,
            escapedChars_append, hfeed, List.map_cons, List.sum_cons]
          omega

theorem length_unlines {lines : List Str} (hne : lines ≠ []) :
    (unlines lines).length + 1 = (lines.map fun line => line.length + 1).sum := by
  induction lines with
  | nil => exact absurd rfl hne
  | cons line rest ih =>
      cases rest with
      | nil =>
          rw [unlines, List.intercalate_singleton]
          rfl
      | cons next rest =>
          have hrest := ih (List.cons_ne_nil _ _)
          rw [unlines] at hrest ⊢
          rw [List.intercalate_cons_of_ne_nil (List.cons_ne_nil _ _), List.length_append,
            List.length_append, List.length_singleton, List.map_cons, List.sum_cons]
          omega

theorem escape_of_isDigit {c : Char} (h : c.isDigit = true) : escape c = [c] := by
  have hrange := isDigit_iff_toNat.mp h
  have hne (d : Char) (hd : d.toNat < 48 ∨ 57 < d.toNat) : c ≠ d := by
    rintro rfl
    omega
  rw [escape, if_neg (hne _ (by decide)), if_neg (hne _ (by decide)), if_neg (hne _ (by decide)),
    if_neg (hne _ (by decide)), if_neg (hne _ (by decide)), if_neg (hne _ (by decide)),
    if_neg (hne _ (by decide)), if_neg (by omega)]

theorem escapedChars_decimal (n : Nat) : escapedChars (decimal n) = (decimal n).length :=
  escapedChars_eq_length fun _ hc => escape_of_isDigit (isDigit_of_mem_decimal hc)

/-! ### Values -/

@[simp] theorem sortedChars_str (s : Str) : sortedChars (str s) = escapedChars s + 2 := by
  have hsort : sortKeys (str s) = str s := by simp [sortKeys]
  rw [sortedChars, hsort, dumpsWith, quote, List.length_cons, List.length_append, escapedChars,
    List.length_singleton]

@[simp] theorem sortedChars_ofNat (n : Nat) :
    sortedChars (num (Number.ofNat n)) = (decimal n).length := rfl

def fieldChars (p : Str × Json) : Nat := escapedChars p.1 + sortedChars p.2 + 6

theorem length_dumpsFields (d : Dict) :
    (dumpsFields defaultSeparators d).length = 1 + (d.map fun p =>
      escapedChars p.1 + (dumpsWith defaultSeparators p.2).length + 6).sum := by
  induction d with
  | nil => rfl
  | cons p rest ih =>
      simp only [dumpsFields, quote, defaultSeparators, List.length_append, List.length_cons,
        List.length_nil, List.map_cons, List.sum_cons] at ih ⊢
      rw [ih, escapedChars]
      omega

theorem sum_sortFields (d : Dict) :
    ((sortFields d).map fun p =>
      escapedChars p.1 + (dumpsWith defaultSeparators p.2).length + 6).sum =
      (d.map fieldChars).sum := by
  induction d with
  | nil => rfl
  | cons p rest ih =>
      rw [sortFields, List.map_cons, List.sum_cons, ih]
      rfl

theorem sortedChars_obj {d : Dict} (hne : d ≠ []) :
    sortedChars (obj d) = (d.map fieldChars).sum := by
  have hperm := sortByKey_perm (sortFields d)
  have hsum := (hperm.map fun p =>
    escapedChars p.1 + (dumpsWith defaultSeparators p.2).length + 6).sum_nat
  rw [sum_sortFields] at hsum
  rw [← hsum, sortedChars, sortKeys]
  cases hsorted : sortByKey (sortFields d) with
  | nil =>
      have hlength := hperm.length_eq
      rw [hsorted] at hlength
      have hcount := congrArg List.length (map_fst_sortFields d)
      rw [List.length_map, List.length_map] at hcount
      rw [List.length_nil] at hlength
      exact absurd (List.length_eq_zero_iff.mp (by omega)) hne
  | cons p rest =>
      simp only [dumpsWith, quote, List.length_append, List.length_cons, List.length_nil,
        length_dumpsFields, List.map_cons, List.sum_cons, escapedChars]
      simp only [defaultSeparators, List.length_cons, List.length_nil]
      omega

theorem length_dumpsItems (xs : List Json) :
    (dumpsItems defaultSeparators (sortItems xs)).length =
      1 + (xs.map fun x => sortedChars x + 2).sum := by
  induction xs with
  | nil => rfl
  | cons x rest ih =>
      rw [sortItems, dumpsItems, List.length_append, List.length_append, ih, List.map_cons,
        List.sum_cons, sortedChars]
      simp only [defaultSeparators, List.length_cons, List.length_nil]
      omega

theorem sortedChars_arr {xs : List Json} (hne : xs ≠ []) :
    sortedChars (arr xs) = (xs.map fun x => sortedChars x + 2).sum := by
  cases xs with
  | nil => exact absurd rfl hne
  | cons x rest =>
      rw [sortedChars, sortKeys, sortItems, dumpsWith, List.length_cons, List.length_append,
        length_dumpsItems, List.map_cons, List.sum_cons, sortedChars]
      omega

/-! ### Setting fields -/

section

variable {d : Dict} {key : String} {value : Json}

theorem sum_update (hhas : d.has key = true) :
    ((Dict.update key (fun _ => value) d).map fieldChars).sum + sortedChars (d.get key) =
      (d.map fieldChars).sum + sortedChars value := by
  induction d with
  | nil => exact absurd hhas (by simp [Dict.has])
  | cons p rest ih =>
      obtain ⟨k, v⟩ := p
      rw [Dict.update]
      split_ifs with hkey
      · have hkey : k = key.toList := hkey
        have hget : Dict.get ((k, v) :: rest) key = v := by simp [hkey, Dict.get]
        simp only [hget, List.map_cons, List.sum_cons, fieldChars]
        omega
      · have hne : (key.toList == k) = false := by simpa using fun h => hkey h.symm
        have hget : Dict.get ((k, v) :: rest) key = Dict.get rest key := by
          rw [Dict.get, Dict.get, List.lookup_cons, hne]
        rw [Dict.has, List.lookup_cons, hne] at hhas
        have hrest := ih hhas
        rw [hget, List.map_cons, List.map_cons, List.sum_cons, List.sum_cons]
        omega

def freedChars (d : Dict) (key : String) : Nat :=
  if d.has key then sortedChars (d.get key) else 0

def addedChars (d : Dict) (key : String) (size : Nat) : Nat :=
  if d.has key then size else escapedChars key.toList + size + 6

theorem sum_set (d : Dict) (key : String) (value : Json) :
    ((d.set key value).map fieldChars).sum + freedChars d key =
      (d.map fieldChars).sum + addedChars d key (sortedChars value) := by
  rw [Dict.set, freedChars, addedChars]
  split_ifs with hhas
  · exact sum_update hhas
  · rw [List.map_append, List.sum_append, List.map_singleton, List.sum_singleton, fieldChars]
    rfl

theorem has_set_ne {other : String} (hne : key ≠ other) :
    (d.set key value).has other = d.has other := by
  rw [Dict.set]
  split_ifs with hhas
  · exact Dict.has_update_ne hne
  · have hother : (other.toList == key.toList) = false := by
      rw [beq_eq_false_iff_ne]
      intro heq
      exact hne (String.toList_inj.mp heq.symm)
    rw [Dict.has, Dict.has, List.lookup_append]
    simp [List.lookup_cons, hother]

theorem freedChars_set {other : String} (hne : key ≠ other) :
    freedChars (d.set key value) other = freedChars d other := by
  rw [freedChars, freedChars, has_set_ne hne, Dict.get_set_ne hne]

theorem addedChars_set {other : String} (hne : key ≠ other) (size : Nat) :
    addedChars (d.set key value) other size = addedChars d other size := by
  rw [addedChars, addedChars, has_set_ne hne]

theorem sum_foldl_set {fields : List (String × Json)} (hkeys : (fields.map Prod.fst).Nodup)
    (d : Dict) :
    ((fields.foldl (fun d field => d.set field.1 field.2) d).map fieldChars).sum +
        (fields.map fun field => freedChars d field.1).sum =
      (d.map fieldChars).sum +
        (fields.map fun field => addedChars d field.1 (sortedChars field.2)).sum := by
  induction fields generalizing d with
  | nil => rfl
  | cons field rest ih =>
      obtain ⟨hfield, hrest⟩ := List.nodup_cons.mp hkeys
      have hne : ∀ other ∈ rest, field.1 ≠ other.1 := by
        intro other hother heq
        exact hfield (heq ▸ List.mem_map_of_mem hother)
      have hfreed : rest.map (fun other => freedChars (d.set field.1 field.2) other.1) =
          rest.map fun other => freedChars d other.1 :=
        List.map_congr_left fun other hother => freedChars_set (hne other hother)
      have hadded : rest.map (fun other =>
            addedChars (d.set field.1 field.2) other.1 (sortedChars other.2)) =
          rest.map fun other => addedChars d other.1 (sortedChars other.2) :=
        List.map_congr_left fun other hother => addedChars_set (hne other hother) _
      have hset := sum_set d field.1 field.2
      have hmore := ih hrest (d.set field.1 field.2)
      rw [hfreed, hadded] at hmore
      rw [List.foldl_cons, List.map_cons, List.map_cons, List.sum_cons, List.sum_cons]
      omega

theorem set_ne_nil (d : Dict) (key : String) (value : Json) : d.set key value ≠ [] := by
  rw [Dict.set]
  split_ifs with hhas
  · cases d with
    | nil => exact absurd hhas (by simp [Dict.has])
    | cons p rest =>
        rw [Dict.update]
        split_ifs
        · exact List.cons_ne_nil _ _
        · exact List.cons_ne_nil _ _
  · exact List.append_ne_nil_of_right_ne_nil _ (List.cons_ne_nil _ _)

end

end Json

end OpenStarry.Lib
