import Mathlib.Data.Char
import Mathlib.Data.List.Lex
import Mathlib.Data.List.Sort
import OpenStarry.Lib.JsonRoundTrip
import OpenStarry.Lib.Dict
import OpenStarry.Lib.Keyed

/-!
# Dumping with sorted keys

`json.dumps(value, sort_keys=True)` writes the dicts of a value in the order of their keys. On values
whose dicts have distinct keys the text determines the sorted value, and the sorted value has the
same fields as the value itself.
-/

namespace OpenStarry.Lib

open Text

namespace Json

def sortByKey (d : Dict) : Dict := d.insertionSort fun a b => a.1 ≤ b.1

mutual

def sortKeys : Json → Json
  | arr xs => arr (sortItems xs)
  | obj d => obj (sortByKey (sortFields d))
  | value => value

def sortItems : List Json → List Json
  | [] => []
  | x :: rest => sortKeys x :: sortItems rest

def sortFields : List (Str × Json) → List (Str × Json)
  | [] => []
  | (key, value) :: rest => (key, sortKeys value) :: sortFields rest

end

mutual

def Proper : Json → Prop
  | arr xs => ProperItems xs
  | obj d => (d.map Prod.fst).Nodup ∧ ProperFields d
  | _ => True

def ProperItems : List Json → Prop
  | [] => True
  | x :: rest => Proper x ∧ ProperItems rest

def ProperFields : List (Str × Json) → Prop
  | [] => True
  | (_, value) :: rest => Proper value ∧ ProperFields rest

end

mutual

def Flat : Json → Prop
  | arr xs => FlatItems xs
  | obj _ => False
  | _ => True

def FlatItems : List Json → Prop
  | [] => True
  | x :: rest => Flat x ∧ FlatItems rest

end

theorem flatItems_iff {xs : List Json} : FlatItems xs ↔ ∀ x ∈ xs, Flat x := by
  induction xs with
  | nil => exact iff_of_true trivial fun x hx => absurd hx List.not_mem_nil
  | cons x rest ih => rw [FlatItems, List.forall_mem_cons, ih]

theorem properFields_iff {d : Dict} : ProperFields d ↔ ∀ p ∈ d, Proper p.2 := by
  induction d with
  | nil => exact iff_of_true trivial fun p hp => absurd hp List.not_mem_nil
  | cons p rest ih => rw [ProperFields, List.forall_mem_cons, ih]

mutual

theorem proper_of_flat : (value : Json) → Flat value → Proper value
  | null, _ => trivial
  | bool _, _ => trivial
  | num _, _ => trivial
  | str _, _ => trivial
  | arr xs, h => properItems_of_flat xs h
  | obj _, h => absurd h not_false

theorem properItems_of_flat : (xs : List Json) → FlatItems xs → ProperItems xs
  | [], _ => trivial
  | x :: rest, h => ⟨proper_of_flat x h.1, properItems_of_flat rest h.2⟩

end

mutual

theorem sortKeys_of_flat : (value : Json) → Flat value → sortKeys value = value
  | null, _ => rfl
  | bool _, _ => rfl
  | num _, _ => rfl
  | str _, _ => rfl
  | arr xs, h => congrArg arr (sortItems_of_flat xs h)
  | obj _, h => absurd h not_false

theorem sortItems_of_flat : (xs : List Json) → FlatItems xs → sortItems xs = xs
  | [], _ => rfl
  | x :: rest, h => by rw [sortItems, sortKeys_of_flat x h.1, sortItems_of_flat rest h.2]

end

/-! ### Reading back -/

theorem sortFields_of_flat (d : Dict) (hflat : ∀ p ∈ d, p.2.Flat) : sortFields d = d := by
  induction d with
  | nil => rfl
  | cons p rest ih =>
      rw [List.forall_mem_cons] at hflat
      rw [sortFields, sortKeys_of_flat _ hflat.1, ih hflat.2]

theorem lookup_append_self {d : Dict} {p : Str × Json} (hkey : p.1 ∉ d.map Prod.fst) :
    (d.lookup p.1).isSome = false := by
  induction d with
  | nil => rfl
  | cons q rest ih =>
      rw [List.map_cons, List.mem_cons, not_or] at hkey
      have hne : (p.1 == q.1) = false := by simpa using hkey.1
      rw [List.lookup_cons, hne]
      exact ih hkey.2

theorem ofPairs_of_nodup {d : Dict} (hnodup : (d.map Prod.fst).Nodup) : ofPairs d = d := by
  have hfold : ∀ front : Dict, ((front ++ d).map Prod.fst).Nodup →
      d.foldl (fun d p => if (d.lookup p.1).isSome then d.map fun q =>
        if q.1 = p.1 then (q.1, p.2) else q else d ++ [p]) front = front ++ d := by
    clear hnodup
    induction d with
    | nil => simp
    | cons p rest ih =>
        intro front hnodup
        have hkey : p.1 ∉ front.map Prod.fst := by
          rw [List.map_append, List.map_cons, List.nodup_middle, List.nodup_cons] at hnodup
          intro hmem
          exact hnodup.1 (List.mem_append_left _ hmem)
        rw [List.foldl_cons, lookup_append_self hkey, if_neg (by simp),
          ih (front ++ [p]) (by simpa using hnodup)]
        simp
  exact (hfold [] (by simpa using hnodup)).trans (List.nil_append d)

mutual

theorem reread_of_proper : (value : Json) → Proper value → reread id value = value
  | null, _ => rfl
  | bool _, _ => rfl
  | num _, _ => rfl
  | str _, _ => rfl
  | arr xs, h => congrArg arr (rereadItems_of_proper xs h)
  | obj d, h => by
      rw [reread, rereadFields_of_proper d h.2, ofPairs_of_nodup h.1]

theorem rereadItems_of_proper : (xs : List Json) → ProperItems xs → rereadItems id xs = xs
  | [], _ => rfl
  | x :: rest, h => by
      rw [rereadItems, reread_of_proper x h.1, rereadItems_of_proper rest h.2]

theorem rereadFields_of_proper : (d : List (Str × Json)) → ProperFields d → rereadFields id d = d
  | [], _ => rfl
  | (key, value) :: rest, h => by
      rw [rereadFields, reread_of_proper value h.1, rereadFields_of_proper rest h.2]

end

theorem dumps_injective {v w : Json} (hv : Proper v) (hw : Proper w) (h : dumps v = dumps w) :
    v = w := by
  have hread := loads_dumps id v
  rw [h, loads_dumps id w, Option.some.injEq, reread_of_proper v hv, reread_of_proper w hw] at hread
  exact hread.symm

/-! ### Sorting -/

theorem sortByKey_perm (d : Dict) : (sortByKey d).Perm d := List.perm_insertionSort _ d

theorem map_fst_sortFields (d : Dict) : (sortFields d).map Prod.fst = d.map Prod.fst := by
  induction d with
  | nil => rfl
  | cons p rest ih => simp [sortFields, ih]

mutual

theorem proper_sortKeys : (value : Json) → Proper value → Proper (sortKeys value)
  | null, _ => trivial
  | bool _, _ => trivial
  | num _, _ => trivial
  | str _, _ => trivial
  | arr xs, h => properItems_sortItems xs h
  | obj d, h => by
      have hperm := sortByKey_perm (sortFields d)
      constructor
      · rw [(hperm.map Prod.fst).nodup_iff, map_fst_sortFields]
        exact h.1
      · rw [properFields_iff]
        intro p hp
        exact properFields_iff.mp (properFields_sortFields d h.2) p (hperm.mem_iff.mp hp)

theorem properItems_sortItems : (xs : List Json) → ProperItems xs → ProperItems (sortItems xs)
  | [], _ => trivial
  | x :: rest, h => ⟨proper_sortKeys x h.1, properItems_sortItems rest h.2⟩

theorem properFields_sortFields :
    (d : List (Str × Json)) → ProperFields d → ProperFields (sortFields d)
  | [], _ => trivial
  | (_, value) :: rest, h => ⟨proper_sortKeys value h.1, properFields_sortFields rest h.2⟩

end

theorem lookup_perm {d d' : Dict} (hperm : d.Perm d') (hnodup : (d.map Prod.fst).Nodup)
    (key : Str) : d.lookup key = d'.lookup key := by
  apply Option.ext
  intro value
  rw [Keyed.lookup_eq_some_iff hnodup,
    Keyed.lookup_eq_some_iff ((hperm.map Prod.fst).nodup_iff.mp hnodup), hperm.mem_iff]

theorem lookup_sortFields (d : Dict) (key : Str) :
    (sortFields d).lookup key = (d.lookup key).map sortKeys := by
  induction d with
  | nil => rfl
  | cons p rest ih =>
      obtain ⟨k, value⟩ := p
      rw [sortFields, List.lookup_cons, List.lookup_cons]
      cases hkey : key == k with
      | true => rfl
      | false => exact ih

theorem loads_sortKeys {seps : Separators} (hseps : seps.Spaced) {d : Dict}
    (hnodup : (d.map Prod.fst).Nodup) (hflat : ∀ p ∈ d, p.2.Flat) :
    ∃ back, loads id (dumpsWith seps (sortKeys (obj d))) = some (obj back) ∧
      ∀ key, back.lookup key = d.lookup key := by
  have hproper : Proper (obj d) :=
    ⟨hnodup, properFields_iff.mpr fun p hp => proper_of_flat p.2 (hflat p hp)⟩
  refine ⟨sortByKey (sortFields d), ?_, fun key => ?_⟩
  · rw [loads_dumpsWith id hseps, reread_of_proper _ (proper_sortKeys _ hproper), sortKeys]
  · have hsorted : ((sortFields d).map Prod.fst).Nodup := by
      rw [map_fst_sortFields]
      exact hnodup
    rw [← lookup_perm (sortByKey_perm (sortFields d)).symm hsorted, lookup_sortFields]
    cases hvalue : d.lookup key with
    | none => rfl
    | some value =>
        have hmem := (Keyed.lookup_eq_some_iff hnodup).mp hvalue
        rw [Option.map_some, sortKeys_of_flat value (hflat _ hmem)]

theorem lookup_of_sortKeys {d d' : Dict} (hd : (d.map Prod.fst).Nodup)
    (hd' : (d'.map Prod.fst).Nodup) (h : sortKeys (obj d) = sortKeys (obj d')) (key : Str) :
    (d.lookup key).map sortKeys = (d'.lookup key).map sortKeys := by
  rw [sortKeys, sortKeys, obj.injEq] at h
  have hnodup : ∀ d : Dict, (d.map Prod.fst).Nodup →
      ((sortByKey (sortFields d)).map Prod.fst).Nodup := by
    intro d hd
    rw [((sortByKey_perm _).map Prod.fst).nodup_iff, map_fst_sortFields]
    exact hd
  rw [← lookup_sortFields, ← lookup_sortFields,
    ← lookup_perm (sortByKey_perm _) (hnodup d hd), h,
    lookup_perm (sortByKey_perm _) (hnodup d' hd')]

theorem eq_of_lookup {d d' : Dict} (hkeys : d.map Prod.fst = d'.map Prod.fst)
    (hnodup : (d.map Prod.fst).Nodup) (h : ∀ key ∈ d.map Prod.fst, d.lookup key = d'.lookup key) :
    d = d' := by
  induction d generalizing d' with
  | nil => exact (List.map_eq_nil_iff.mp hkeys.symm).symm
  | cons p rest ih =>
      cases d' with
      | nil => exact absurd hkeys (by simp)
      | cons p' rest' =>
          obtain ⟨key, value⟩ := p
          obtain ⟨key', value'⟩ := p'
          rw [List.map_cons, List.map_cons, List.cons.injEq] at hkeys
          obtain ⟨hkey, hrest⟩ := hkeys
          have hkey : key = key' := hkey
          subst hkey
          rw [List.map_cons, List.nodup_cons] at hnodup
          have hvalue := h key (by simp)
          rw [List.lookup_cons_self, List.lookup_cons_self, Option.some.injEq] at hvalue
          rw [hvalue, ih hrest hnodup.2]
          intro k hk
          have hne : (k == key) = false := by
            rw [beq_eq_false_iff_ne]
            intro heq
            exact hnodup.1 (heq ▸ hk)
          have hlookup := h k (List.mem_cons_of_mem _ hk)
          rw [List.lookup_cons, List.lookup_cons, hne] at hlookup
          exact hlookup

theorem eq_of_sortKeys {d d' : Dict} (more more' : Dict) (hkeys : d.map Prod.fst = d'.map Prod.fst)
    (hflat : ∀ p ∈ d, p.2.Flat) (hflat' : ∀ p ∈ d', p.2.Flat)
    (hd : ((d ++ more).map Prod.fst).Nodup) (hd' : ((d' ++ more').map Prod.fst).Nodup)
    (h : sortKeys (obj (d ++ more)) = sortKeys (obj (d' ++ more'))) : d = d' := by
  have hfound : ∀ {d more : Dict}, ((d ++ more).map Prod.fst).Nodup → (∀ p ∈ d, p.2.Flat) →
      ∀ key ∈ d.map Prod.fst, ((d ++ more).lookup key).map sortKeys = d.lookup key := by
    intro d more hnodup hflat key hkey
    obtain ⟨p, hp, rfl⟩ := List.mem_map.mp hkey
    have hfirst : (d.map Prod.fst).Nodup := by
      rw [List.map_append] at hnodup
      exact hnodup.of_append_left
    have hall : (d ++ more).lookup p.1 = some p.2 :=
      (Keyed.lookup_eq_some_iff hnodup).mpr (List.mem_append_left _ hp)
    rw [hall, (Keyed.lookup_eq_some_iff hfirst).mpr hp, Option.map_some,
      sortKeys_of_flat p.2 (hflat p hp)]
  apply eq_of_lookup hkeys
  · rw [List.map_append] at hd
    exact hd.of_append_left
  · intro key hkey
    rw [← hfound hd hflat key hkey, ← hfound hd' hflat' key (hkeys ▸ hkey),
      lookup_of_sortKeys hd hd' h]

end Json

end OpenStarry.Lib
