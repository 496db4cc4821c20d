import Mathlib.Data.List.Basic
import Mathlib.Data.List.Induction

/-!
# Lists with one item a key

A dict by its values: an assignment puts an item in the place of the one with its key, or behind the
others; taking the old item out first moves the key to the end. Read after a run of assignments, each
key has its last item.
-/

namespace OpenStarry.Lib

namespace Keyed

variable {α κ : Type} [DecidableEq κ] (key : α → κ)

/-- `d[key] = x`. -/
def assign (x : α) : List α → List α
  | [] => [x]
  | y :: rest => if key y = key x then x :: rest else y :: assign x rest

/-- `d.pop(key, None)` and `d[key] = x`. -/
def moveToEnd (items : List α) (x : α) : List α := (items.filter fun y => key y ≠ key x) ++ [x]

def collect (items : List α) : List α := items.foldl (moveToEnd key) []

/-- The values of a dict made from `base` and then updated. -/
def overlay (base items : List α) : List α :=
  items.foldl (fun d x => assign key x d) (base.foldl (fun d x => assign key x d) [])

variable {key} {x y : α} {items base d : List α}

theorem mem_assign_self : x ∈ assign key x d := by
  induction d with
  | nil => exact List.mem_singleton_self x
  | cons z rest ih =>
      rw [assign]
      split
      · exact List.mem_cons_self
      · exact List.mem_cons_of_mem _ ih

theorem mem_assign_of_ne (hy : y ∈ d) (hne : key y ≠ key x) : y ∈ assign key x d := by
  induction d with
  | nil => simp at hy
  | cons z rest ih =>
      rw [assign]
      rcases List.mem_cons.mp hy with rfl | hy
      · rw [if_neg hne]
        exact List.mem_cons_self
      · split
        · exact List.mem_cons_of_mem _ hy
        · exact List.mem_cons_of_mem _ (ih hy)

theorem mem_of_mem_assign (h : y ∈ assign key x d) : y = x ∨ y ∈ d := by
  induction d with
  | nil => exact Or.inl (List.mem_singleton.mp h)
  | cons z rest ih =>
      rw [assign] at h
      split at h
      · exact (List.mem_cons.mp h).imp_right (List.mem_cons_of_mem _)
      · rcases List.mem_cons.mp h with rfl | h
        · exact Or.inr List.mem_cons_self
        · exact (ih h).imp_right (List.mem_cons_of_mem _)

theorem assign_of_fresh (hfresh : ∀ z ∈ d, key z ≠ key x) : assign key x d = d ++ [x] := by
  induction d with
  | nil => rfl
  | cons z rest ih =>
      obtain ⟨hz, hrest⟩ := List.forall_mem_cons.mp hfresh
      rw [assign, if_neg hz, ih hrest, List.cons_append]

theorem map_key_assign_of_mem (h : key x ∈ d.map key) : (assign key x d).map key = d.map key := by
  induction d with
  | nil => simp at h
  | cons z rest ih =>
      rw [assign]
      split_ifs with hkey
      · rw [List.map_cons, List.map_cons, hkey]
      · rw [List.map_cons, List.mem_cons] at h
        rw [List.map_cons, List.map_cons, ih (h.resolve_left (Ne.symm hkey))]

theorem mem_assign_iff (hnodup : (d.map key).Nodup) :
    y ∈ assign key x d ↔ y = x ∨ y ∈ d ∧ key y ≠ key x := by
  constructor
  · intro hy
    by_cases hkey : key y = key x
    · induction d with
      | nil => exact .inl (List.mem_singleton.mp hy)
      | cons z rest ih =>
          rw [List.map_cons, List.nodup_cons] at hnodup
          rw [assign] at hy
          split_ifs at hy with hz
          · obtain heq | hrest := List.mem_cons.mp hy
            · exact .inl heq
            · exact absurd (List.mem_map_of_mem hrest) (hkey ▸ hz ▸ hnodup.1)
          · obtain heq | hrest := List.mem_cons.mp hy
            · exact absurd (heq ▸ hkey) hz
            · exact (ih hnodup.2 hrest).imp_right fun h => ⟨List.mem_cons_of_mem z h.1, h.2⟩
    · exact (mem_of_mem_assign hy).imp_right fun hmem => ⟨hmem, hkey⟩
  · rintro (rfl | ⟨hy, hne⟩)
    · exact mem_assign_self
    · exact mem_assign_of_ne hy hne

theorem assign_eq_self (hnodup : (d.map key).Nodup) (hx : x ∈ d) : assign key x d = d := by
  induction d with
  | nil => simp at hx
  | cons z rest ih =>
      rw [List.map_cons, List.nodup_cons] at hnodup
      rw [assign]
      obtain heq | hrest := List.mem_cons.mp hx
      · rw [if_pos (congrArg key heq.symm), heq]
      · rw [if_neg, ih hnodup.2 hrest]
        intro hkey
        exact hnodup.1 (hkey ▸ List.mem_map_of_mem hrest)

theorem mem_of_lookup {β : Type} [BEq κ] [LawfulBEq κ] {l : List (κ × β)} {k : κ} {value : β}
    (h : l.lookup k = some value) : (k, value) ∈ l := by
  obtain ⟨before, after, heq, -⟩ := List.lookup_eq_some_iff.mp h
  rw [heq]
  exact List.mem_append_right _ List.mem_cons_self

theorem lookup_eq_none_iff {β : Type} [BEq κ] [LawfulBEq κ] {l : List (κ × β)} {k : κ} :
    l.lookup k = none ↔ k ∉ l.map Prod.fst := by
  induction l with
  | nil => simp
  | cons entry rest ih =>
      by_cases hkey : k = entry.1
      · simp [hkey]
      · have hne : (k == entry.1) = false := by simpa using hkey
        rw [List.lookup_cons, hne, ih]
        simp [hkey]

theorem lookup_eq_some_iff {β : Type} [BEq κ] [LawfulBEq κ] {l : List (κ × β)}
    (hnodup : (l.map Prod.fst).Nodup) {k : κ} {value : β} :
    l.lookup k = some value ↔ (k, value) ∈ l := by
  induction l with
  | nil => simp
  | cons entry rest ih =>
      rw [List.map_cons, List.nodup_cons] at hnodup
      rw [List.lookup_cons, List.mem_cons]
      by_cases hkey : k = entry.1
      · have hrest : (k, value) ∉ rest := by
          intro hmem
          exact hnodup.1 (hkey ▸ List.mem_map_of_mem hmem)
        simp [hkey, hkey ▸ hrest, Prod.ext_iff, eq_comm]
      · have hne : (k == entry.1) = false := by simpa using hkey
        rw [hne, ih hnodup.2]
        simp [Prod.ext_iff, hkey]

theorem lookup_assign {β : Type} [BEq κ] [LawfulBEq κ] (k k' : κ) (value : β) (d : List (κ × β)) :
    (assign Prod.fst (k, value) d).lookup k' = if k' = k then some value else d.lookup k' := by
  induction d with
  | nil =>
      rw [assign, List.lookup_cons]
      split
      · rename_i h
        rw [if_pos (beq_iff_eq.mp h)]
      · rename_i h
        rw [if_neg (beq_eq_false_iff_ne.mp h)]
  | cons z rest ih =>
      obtain ⟨l, other⟩ := z
      rw [assign]
      by_cases hl : l = k
      · rw [if_pos hl, List.lookup_cons, List.lookup_cons, hl]
        by_cases hk : k' = k
        · simp [hk]
        · have hne : (k' == k) = false := beq_eq_false_iff_ne.mpr hk
          rw [hne, if_neg hk]
      · rw [if_neg hl, List.lookup_cons, List.lookup_cons, ih]
        by_cases hk : k' = k
        · have hne : (k' == l) = false := by
            rw [beq_eq_false_iff_ne]
            exact fun heq => hl (heq.symm.trans hk)
          rw [hne, if_pos hk]
        · rw [if_neg hk, if_neg hk]

theorem mem_of_mem_foldl_assign (h : y ∈ items.foldl (fun d x => assign key x d) d) :
    y ∈ items ∨ y ∈ d := by
  induction items generalizing d with
  | nil => exact Or.inr h
  | cons x rest ih =>
      rcases ih h with h | h
      · exact Or.inl (List.mem_cons_of_mem _ h)
      · rcases mem_of_mem_assign h with rfl | h
        · exact Or.inl List.mem_cons_self
        · exact Or.inr h

theorem mem_of_mem_overlay (h : y ∈ overlay key base items) : y ∈ items ∨ y ∈ base := by
  rcases mem_of_mem_foldl_assign h with h | h
  · exact Or.inl h
  · rcases mem_of_mem_foldl_assign h with h | h
    · exact Or.inr h
    · simp at h

theorem mem_foldl_assign_of_ne (hy : y ∈ d) (hne : ∀ x ∈ items, key x ≠ key y) :
    y ∈ items.foldl (fun d x => assign key x d) d := by
  induction items generalizing d with
  | nil => exact hy
  | cons x rest ih =>
      obtain ⟨hx, hrest⟩ := List.forall_mem_cons.mp hne
      exact ih (mem_assign_of_ne hy hx.symm) hrest

theorem mem_overlay (hne : ∀ x ∈ items, key x ≠ key y) (before : List α) :
    y ∈ overlay key base (before ++ y :: items) := by
  rw [overlay, List.foldl_append, List.foldl_cons]
  exact mem_foldl_assign_of_ne mem_assign_self hne

theorem mem_of_mem_foldl_moveToEnd (h : y ∈ items.foldl (moveToEnd key) d) : y ∈ items ∨ y ∈ d := by
  induction items generalizing d with
  | nil => exact Or.inr h
  | cons x rest ih =>
      rcases ih h with h | h
      · exact Or.inl (List.mem_cons_of_mem _ h)
      · rw [moveToEnd, List.mem_append, List.mem_singleton] at h
        rcases h with h | rfl
        · exact Or.inr (List.mem_of_mem_filter h)
        · exact Or.inl List.mem_cons_self

theorem mem_of_mem_collect (h : y ∈ collect key items) : y ∈ items := by
  rcases mem_of_mem_foldl_moveToEnd h with h | h
  · exact h
  · simp at h

theorem mem_foldl_moveToEnd_of_ne (hy : y ∈ d) (hne : ∀ x ∈ items, key x ≠ key y) :
    y ∈ items.foldl (moveToEnd key) d := by
  induction items generalizing d with
  | nil => exact hy
  | cons x rest ih =>
      obtain ⟨hx, hrest⟩ := List.forall_mem_cons.mp hne
      refine ih ?_ hrest
      rw [moveToEnd, List.mem_append, List.mem_filter]
      exact Or.inl ⟨hy, by simpa using hx.symm⟩

theorem mem_collect (hne : ∀ x ∈ items, key x ≠ key y) (before : List α) :
    y ∈ collect key (before ++ y :: items) := by
  rw [collect, List.foldl_append, List.foldl_cons]
  refine mem_foldl_moveToEnd_of_ne ?_ hne
  rw [moveToEnd]
  exact List.mem_append_right _ (List.mem_singleton_self y)

theorem collect_concat (items : List α) (x : α) :
    collect key (items ++ [x]) = moveToEnd key (collect key items) x := by
  rw [collect, collect, List.foldl_append, List.foldl_cons, List.foldl_nil]

theorem mem_collect_iff : y ∈ collect key items ↔
    ∃ before after, items = before ++ y :: after ∧ ∀ x ∈ after, key x ≠ key y := by
  constructor
  · intro h
    induction items using List.reverseRecOn with
    | nil => simp [collect] at h
    | append_singleton items x ih =>
        rw [collect_concat, moveToEnd, List.mem_append, List.mem_filter, List.mem_singleton] at h
        rcases h with ⟨hmem, hne⟩ | rfl
        · obtain ⟨before, after, rfl, hafter⟩ := ih hmem
          refine ⟨before, after ++ [x], by simp, fun z hz => ?_⟩
          rcases List.mem_append.mp hz with hz | hz
          · exact hafter z hz
          · rw [List.mem_singleton.mp hz]
            exact fun heq => of_decide_eq_true hne heq.symm
        · exact ⟨items, [], rfl, by simp⟩
  · rintro ⟨before, after, rfl, hafter⟩
    exact mem_collect hafter before

theorem exists_mem_collect (h : y ∈ items) : ∃ x ∈ collect key items, key x = key y := by
  induction items using List.reverseRecOn with
  | nil => simp at h
  | append_singleton items x ih =>
      rw [collect_concat, moveToEnd]
      by_cases hkey : key x = key y
      · exact ⟨x, List.mem_append_right _ (List.mem_singleton_self x), hkey⟩
      · have hmem : y ∈ items := by
          rcases List.mem_append.mp h with h | h
          · exact h
          · exact absurd (congrArg key (List.mem_singleton.mp h).symm) hkey
        obtain ⟨z, hz, hzkey⟩ := ih hmem
        refine ⟨z, List.mem_append_left _ (List.mem_filter.mpr ⟨hz, ?_⟩), hzkey⟩
        exact decide_eq_true fun heq => hkey (heq.symm.trans hzkey)

theorem collect_map {f : α → α} (hf : ∀ x, key (f x) = key x) (items : List α) :
    collect key (items.map f) = (collect key items).map f := by
  induction items using List.reverseRecOn with
  | nil => rfl
  | append_singleton items x ih =>
      rw [List.map_append, List.map_singleton, collect_concat, collect_concat, ih, moveToEnd,
        moveToEnd, List.map_append, List.map_singleton, List.filter_map]
      simp only [Function.comp_def, hf]

theorem collect_pairwise (items : List α) : (collect key items).Pairwise fun a b => key a ≠ key b := by
  have hstep : ∀ d : List α, (d.Pairwise fun a b => key a ≠ key b) →
      (items.foldl (moveToEnd key) d).Pairwise fun a b => key a ≠ key b := by
    induction items with
    | nil => exact fun d hd => hd
    | cons x rest ih =>
        intro d hd
        apply ih
        rw [moveToEnd, List.pairwise_append]
        refine ⟨hd.filter _, List.pairwise_singleton _ _, fun a ha b hb => ?_⟩
        rw [List.mem_singleton.mp hb]
        simpa using (List.mem_filter.mp ha).2
  exact hstep [] List.Pairwise.nil

theorem mem_overlay_collect (h : y ∈ collect key items) : y ∈ overlay key base (collect key items) := by
  obtain ⟨before, after, hsplit⟩ := List.append_of_mem h
  have hpair : (collect key items).Pairwise fun a b => key a ≠ key b := collect_pairwise items
  rw [hsplit, List.pairwise_append, List.pairwise_cons] at hpair
  rw [hsplit]
  exact mem_overlay (fun x hx => (hpair.2.1.1 x hx).symm) before

end Keyed

/-!
## Updating one item of a list

The first or the last item that meets a condition is updated in place; there is no result when no
item meets it.
-/

variable {α : Type*} (p : α → Bool) (f : α → α)

def updateFirst? : List α → Option (List α)
  | [] => none
  | x :: rest => if p x then some (f x :: rest) else (updateFirst? rest).map (x :: ·)

def updateLast? : List α → Option (List α)
  | [] => none
  | x :: rest =>
      match updateLast? rest with
      | some rest' => some (x :: rest')
      | none => if p x then some (f x :: rest) else none

variable {p f} {l l' : List α}

theorem updateFirst?_eq_none : updateFirst? p f l = none ↔ ∀ x ∈ l, p x = false := by
  induction l with
  | nil => simp [updateFirst?]
  | cons x rest ih =>
      rw [updateFirst?, List.forall_mem_cons]
      by_cases hx : p x = true
      · simp [hx]
      · rw [if_neg hx, Option.map_eq_none_iff, ih]
        simp [hx]

theorem updateLast?_eq_none : updateLast? p f l = none ↔ ∀ x ∈ l, p x = false := by
  induction l with
  | nil => simp [updateLast?]
  | cons x rest ih =>
      rw [updateLast?, List.forall_mem_cons, ← ih]
      cases updateLast? p f rest <;> simp

theorem exists_of_updateFirst? (h : updateFirst? p f l = some l') :
    ∃ before x after, l = before ++ x :: after ∧ l' = before ++ f x :: after ∧ p x = true ∧
      ∀ y ∈ before, p y = false := by
  induction l generalizing l' with
  | nil => simp [updateFirst?] at h
  | cons x rest ih =>
      rw [updateFirst?] at h
      split at h
      · rename_i hx
        exact ⟨[], x, rest, rfl, (Option.some.inj h).symm, hx, by simp⟩
      · rename_i hx
        obtain ⟨rest', hrest, rfl⟩ := Option.map_eq_some_iff.mp h
        obtain ⟨before, y, after, rfl, rfl, hy, hbefore⟩ := ih hrest
        refine ⟨x :: before, y, after, rfl, rfl, hy, ?_⟩
        exact List.forall_mem_cons.mpr ⟨by simpa using hx, hbefore⟩

theorem exists_of_updateLast? (h : updateLast? p f l = some l') :
    ∃ before x after, l = before ++ x :: after ∧ l' = before ++ f x :: after ∧ p x = true ∧
      ∀ y ∈ after, p y = false := by
  induction l generalizing l' with
  | nil => simp [updateLast?] at h
  | cons x rest ih =>
      rw [updateLast?] at h
      split at h
      · rename_i rest' hrest
        obtain ⟨before, y, after, rfl, rfl, hy, hafter⟩ := ih hrest
        exact ⟨x :: before, y, after, rfl, (Option.some.inj h).symm, hy, hafter⟩
      · rename_i hnone
        split at h
        · rename_i hx
          exact ⟨[], x, rest, rfl, (Option.some.inj h).symm, hx, updateLast?_eq_none.mp hnone⟩
        · simp at h

end OpenStarry.Lib
