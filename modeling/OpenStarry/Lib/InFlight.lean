import Mathlib.Data.List.Basic

/-!
# Writes in flight

Writes to a table that were made and have not ended. Read as if all of them end in the order they
were made, each key has the value of the last write to it. That reading does not change when a write
ends that no earlier one to its key is before.
-/

namespace OpenStarry.Lib.InFlight

variable {α κ β : Type} [DecidableEq κ] (key : α → κ) (value : α → β)

def effect (table : κ → β) (writes : List α) : κ → β :=
  writes.foldl (fun table w => Function.update table (key w) (value w)) table

variable {key value} {table : κ → β} {writes front rest : List α} {w : α} {k : κ}

theorem effect_cons : effect key value table (w :: rest) =
    effect key value (Function.update table (key w) (value w)) rest := rfl

theorem effect_append_singleton :
    effect key value table (writes ++ [w]) =
      Function.update (effect key value table writes) (key w) (value w) := by
  rw [effect, List.foldl_append]
  rfl

theorem effect_append_ne (hne : k ≠ key w) :
    effect key value table (writes ++ [w]) k = effect key value table writes k := by
  rw [effect_append_singleton, Function.update_of_ne hne]

theorem effect_append_self : effect key value table (writes ++ [w]) (key w) = value w := by
  rw [effect_append_singleton, Function.update_self]

theorem effect_congr {table' : κ → β} (h : table k = table' k) :
    effect key value table writes k = effect key value table' writes k := by
  induction writes generalizing table table' with
  | nil => exact h
  | cons w rest ih =>
      rw [effect_cons, effect_cons]
      apply ih
      by_cases hk : k = key w
      · rw [hk, Function.update_self, Function.update_self]
      · rw [Function.update_of_ne hk, Function.update_of_ne hk, h]

theorem effect_of_forall_ne (h : ∀ w ∈ writes, key w ≠ k) :
    effect key value table writes k = table k := by
  induction writes generalizing table with
  | nil => rfl
  | cons w rest ih =>
      rw [List.forall_mem_cons] at h
      rw [effect_cons, ih h.2, Function.update_of_ne (Ne.symm h.1)]

theorem effect_append : effect key value table (front ++ rest) =
    effect key value (effect key value table front) rest := List.foldl_append

theorem effect_erase_ne (hne : k ≠ key w) :
    effect key value table (front ++ rest) k = effect key value table (front ++ w :: rest) k := by
  rw [effect_append, effect_append, effect_cons]
  apply effect_congr
  rw [Function.update_of_ne hne]

theorem effect_end (hfirst : ∀ other ∈ front, key other ≠ key w) :
    effect key value (Function.update table (key w) (value w)) (front ++ rest) k =
      effect key value table (front ++ w :: rest) k := by
  rw [effect_append, effect_append, effect_cons]
  apply effect_congr
  by_cases hk : k = key w
  · rw [hk, effect_of_forall_ne hfirst, Function.update_self, Function.update_self]
  · rw [Function.update_of_ne hk]
    apply effect_congr
    rw [Function.update_of_ne hk]

end OpenStarry.Lib.InFlight
