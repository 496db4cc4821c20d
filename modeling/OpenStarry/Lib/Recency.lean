import Mathlib.Data.List.Nodup
import Mathlib.Data.List.Perm.Subperm

/-!
# Most recently used first

A list with one item a key, ordered by last use. A table that keeps only so many items and forgets
the one that was used longest ago holds the front part of that list, whatever is used next. And items
that are picked one after the other until there are so many: one that is tried late is never picked.
-/

namespace OpenStarry.Lib.Recency

variable {α κ : Type} [DecidableEq κ] (key : α → κ)

/-- `x` is used: it stands in front, and the former item with its key is gone. -/
def touch (x : α) (l : List α) : List α := x :: l.filter fun y => key y ≠ key x

variable {key} {x y : α} {l : List α} {n : Nat}

theorem mem_touch_iff : y ∈ touch key x l ↔ y = x ∨ y ∈ l ∧ key y ≠ key x := by
  rw [touch, List.mem_cons, List.mem_filter, decide_eq_true_eq]

theorem nodup_touch (h : (l.map key).Nodup) : ((touch key x l).map key).Nodup := by
  rw [touch, List.map_cons, List.nodup_cons]
  constructor
  · intro hmem
    obtain ⟨y, hy, hkey⟩ := List.mem_map.mp hmem
    exact of_decide_eq_true (List.mem_filter.mp hy).2 hkey
  · exact h.sublist (List.filter_sublist.map key)

theorem filter_touch {p : α → Bool} (hp : ∀ y ∈ l, key y = key x → p y = p x) :
    (touch key x l).filter p = if p x then touch key x (l.filter p) else l.filter p := by
  have hcomm : (l.filter fun y => key y ≠ key x).filter p =
      (l.filter p).filter fun y => key y ≠ key x := by
    rw [List.filter_filter, List.filter_filter]
    apply List.filter_congr
    intro y _
    exact Bool.and_comm _ _
  rw [touch, List.filter_cons, hcomm]
  split_ifs with hx
  · rfl
  · apply List.filter_eq_self.mpr
    intro y hy
    obtain ⟨hmem, hpy⟩ := List.mem_filter.mp hy
    apply decide_eq_true
    intro hkey
    exact hx ((hp y hmem hkey).symm.trans hpy)

theorem filter_ne_eq_self (h : key x ∉ l.map key) : (l.filter fun y => key y ≠ key x) = l := by
  apply List.filter_eq_self.mpr
  intro y hy
  apply decide_eq_true
  intro hkey
  exact h (hkey ▸ List.mem_map_of_mem hy)

theorem length_filter_ne (hnodup : (l.map key).Nodup) (hmem : key x ∈ l.map key) :
    (l.filter fun y => key y ≠ key x).length + 1 = l.length := by
  induction l with
  | nil => simp at hmem
  | cons y rest ih =>
      rw [List.map_cons, List.nodup_cons] at hnodup
      rw [List.map_cons, List.mem_cons] at hmem
      by_cases hkey : key x = key y
      · rw [List.filter_cons_of_neg (by simp [hkey]), filter_ne_eq_self (hkey ▸ hnodup.1),
          List.length_cons]
      · rw [List.filter_cons_of_pos (by simp [Ne.symm hkey]), List.length_cons, List.length_cons,
          ih hnodup.2 (hmem.resolve_left hkey)]

/-- Using one of the first `n` items keeps the others among the first `n`. -/
theorem take_touch_of_mem (hnodup : (l.map key).Nodup) (hmem : key x ∈ (l.take n).map key) :
    (touch key x l).take n = touch key x (l.take n) := by
  have hsplit : l.take n ++ l.drop n = l := List.take_append_drop n l
  have hparts : ((l.take n).map key).Nodup ∧ key x ∉ (l.drop n).map key := by
    rw [← hsplit, List.map_append, List.nodup_append] at hnodup
    refine ⟨hnodup.1, fun hdrop => ?_⟩
    exact hnodup.2.2 (key x) hmem (key x) hdrop rfl
  have hlength := length_filter_ne hparts.1 hmem
  have hfilter : (l.filter fun y => key y ≠ key x) =
      ((l.take n).filter fun y => key y ≠ key x) ++ l.drop n := by
    conv_lhs => rw [← hsplit]
    rw [List.filter_append, filter_ne_eq_self hparts.2]
  rw [touch, touch, hfilter]
  cases n with
  | zero => simp at hmem
  | succ n =>
      rw [List.take_succ_cons, List.take_append]
      rw [List.length_take] at hlength
      congr 1
      by_cases hshort : l.length ≤ n + 1
      · rw [List.drop_eq_nil_of_le hshort, List.take_nil, List.append_nil]
        apply List.take_of_length_le
        omega
      · have hexact : ((l.take (n + 1)).filter fun y => key y ≠ key x).length = n := by omega
        rw [hexact, Nat.sub_self, List.take_zero, List.append_nil]
        exact List.take_of_length_le (Nat.le_of_eq hexact)

/-- Using an item that is not among the first `n` puts it in front of them. -/
theorem take_touch_of_notMem (h : key x ∉ (l.take n).map key) :
    (touch key x l).take (n + 1) = x :: l.take n := by
  have hsplit : l.take n ++ l.drop n = l := List.take_append_drop n l
  have hfilter : (l.filter fun y => key y ≠ key x) =
      l.take n ++ (l.drop n).filter fun y => key y ≠ key x := by
    conv_lhs => rw [← hsplit]
    rw [List.filter_append, filter_ne_eq_self h]
  rw [touch, List.take_succ_cons, hfilter, List.take_append, List.take_of_length_le
    (List.length_take_le n l)]
  congr 1
  by_cases hshort : l.length ≤ n
  · rw [List.drop_eq_nil_of_le hshort, List.filter_nil, List.take_nil, List.append_nil]
  · rw [List.length_take, Nat.min_eq_left (by omega), Nat.sub_self, List.take_zero, List.append_nil]

/-! ### Picking the first so many -/

section

variable {α : Type} [DecidableEq α]

def pick (limit : Nat) (picked : List α) (x : α) : List α :=
  if limit ≤ picked.length ∨ x ∈ picked then picked else picked ++ [x]

variable {limit : Nat} {picked tried : List α} {x : α}

theorem pick_of_full (h : limit ≤ picked.length) : pick limit picked x = picked := if_pos (.inl h)

theorem mem_pick_self (h : ¬ limit ≤ picked.length) : x ∈ pick limit picked x := by
  rw [pick]
  split_ifs with hskip
  · exact hskip.resolve_left h
  · exact List.mem_append_right _ (List.mem_singleton_self x)

theorem length_pick_le : (pick limit picked x).length ≤ picked.length + 1 := by
  rw [pick]
  split_ifs
  · exact Nat.le_succ _
  · exact Nat.le_of_eq List.length_append

theorem foldl_pick_of_full (h : limit ≤ picked.length) : tried.foldl (pick limit) picked = picked := by
  induction tried with
  | nil => rfl
  | cons x rest ih => rw [List.foldl_cons, pick_of_full h, ih]

theorem prefix_pick : picked <+: pick limit picked x := by
  rw [pick]
  split
  · exact List.prefix_refl picked
  · exact List.prefix_append picked [x]

theorem prefix_foldl_pick : picked <+: tried.foldl (pick limit) picked := by
  induction tried generalizing picked with
  | nil => exact List.prefix_refl picked
  | cons x rest ih => exact prefix_pick.trans ih

theorem nodup_foldl_pick (h : picked.Nodup) : (tried.foldl (pick limit) picked).Nodup := by
  induction tried generalizing picked with
  | nil => exact h
  | cons x rest ih =>
      apply ih
      rw [pick]
      split_ifs with hskip
      · exact h
      · rw [not_or] at hskip
        exact List.nodup_append.mpr ⟨h, List.nodup_singleton x, fun a ha b hb heq =>
          hskip.2 (List.mem_singleton.mp hb ▸ heq ▸ ha)⟩

theorem length_foldl_pick_le (h : picked.length ≤ limit) :
    (tried.foldl (pick limit) picked).length ≤ limit := by
  induction tried generalizing picked with
  | nil => exact h
  | cons x rest ih =>
      apply ih
      rw [pick]
      split_ifs with hskip
      · exact h
      · rw [List.length_append, List.length_singleton]
        omega

theorem mem_of_mem_foldl_pick (h : x ∈ tried.foldl (pick limit) picked) : x ∈ picked ∨ x ∈ tried := by
  induction tried generalizing picked with
  | nil => exact .inl h
  | cons y rest ih =>
      obtain hmem | hmem := ih h
      · rw [pick] at hmem
        split_ifs at hmem
        · exact .inl hmem
        · obtain hmem | heq := List.mem_append.mp hmem
          · exact .inl hmem
          · exact .inr (List.mem_cons.mpr (.inl (List.mem_singleton.mp heq)))
      · exact .inr (List.mem_cons_of_mem y hmem)

theorem full_or_forall_mem :
    limit ≤ (tried.foldl (pick limit) picked).length ∨
      ∀ x ∈ tried, x ∈ tried.foldl (pick limit) picked := by
  induction tried generalizing picked with
  | nil => exact .inr fun x hx => absurd hx List.not_mem_nil
  | cons y rest ih =>
      obtain hfull | hall := @ih (pick limit picked y)
      · exact .inl hfull
      · by_cases hlimit : limit ≤ picked.length
        · left
          rw [foldl_pick_of_full hlimit]
          exact hlimit
        · right
          intro x hx
          obtain heq | hrest := List.mem_cons.mp hx
          · rw [heq, List.foldl_cons]
            exact prefix_foldl_pick.subset (mem_pick_self hlimit)
          · exact hall x hrest

theorem full_of_nodup {l : List α} (hnodup : l.Nodup) (hsubset : l ⊆ tried)
    (hlength : limit ≤ l.length) : limit ≤ (tried.foldl (pick limit) picked).length := by
  obtain hfull | hall := @full_or_forall_mem _ _ limit picked tried
  · exact hfull
  · have hinside : l ⊆ tried.foldl (pick limit) picked := fun x hx => hall x (hsubset hx)
    exact Nat.le_trans hlength (List.subperm_of_subset hnodup hinside).length_le

theorem mem_foldl_pick_of_room (hroom : picked.length + tried.length ≤ limit) :
    ∀ x ∈ tried, x ∈ tried.foldl (pick limit) picked := by
  induction tried generalizing picked with
  | nil => exact fun x hx => absurd hx List.not_mem_nil
  | cons y rest ih =>
      rw [List.length_cons] at hroom
      have hnotFull : ¬ limit ≤ picked.length := by omega
      have hlength := @length_pick_le _ _ limit picked y
      intro x hx
      obtain heq | hrest := List.mem_cons.mp hx
      · rw [heq, List.foldl_cons]
        exact prefix_foldl_pick.subset (mem_pick_self hnotFull)
      · exact ih (by omega) x hrest

theorem foldl_pick_filter {p : α → Bool}
    (hlate : ∀ before x after, tried = before ++ x :: after → p x = false →
      limit ≤ (before.foldl (pick limit) picked).length) :
    (tried.filter p).foldl (pick limit) picked = tried.foldl (pick limit) picked := by
  induction tried generalizing picked with
  | nil => rfl
  | cons x rest ih =>
      cases hp : p x with
      | true =>
          rw [List.filter_cons_of_pos hp, List.foldl_cons, List.foldl_cons]
          apply ih
          intro before y after hsplit hpy
          exact hlate (x :: before) y after (by rw [hsplit, List.cons_append]) hpy
      | false =>
          have hfull : limit ≤ picked.length := hlate [] x rest rfl hp
          rw [foldl_pick_of_full hfull, foldl_pick_of_full hfull]

end

end OpenStarry.Lib.Recency
