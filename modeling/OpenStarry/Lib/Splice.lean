import Mathlib.Data.List.Sort

/-!
# Indices counted from the end

The slices `l[:i]` and `l[i:]` and the item `l[i]` of a list, for an index that counts from the end
of the list when it is negative. A slice is clipped at the ends of the list, an item is not.
-/

namespace OpenStarry.Lib

variable {α β : Type*}

def cutAt (length : Nat) (i : Int) : Nat := if i < 0 then (i + length).toNat else i.toNat

/-- `l[:i]`. -/
def sliceTo (l : List α) (i : Int) : List α := l.take (cutAt l.length i)

/-- `l[i:]`. -/
def sliceFrom (l : List α) (i : Int) : List α := l.drop (cutAt l.length i)

/-- `l[i]`, `none` when the index is out of range. -/
def item? (l : List α) (i : Int) : Option α :=
  if i < 0 ∧ i + l.length < 0 then none else l[cutAt l.length i]?

theorem length_sliceTo (l : List α) (i : Int) :
    (sliceTo l i).length = min (cutAt l.length i) l.length := List.length_take

theorem length_sliceFrom (l : List α) (i : Int) :
    (sliceFrom l i).length = l.length - cutAt l.length i := List.length_drop

theorem cutAt_of_nonneg (length : Nat) {i : Int} (h : 0 ≤ i) : cutAt length i = i.toNat :=
  if_neg (by omega)

theorem item?_of_nonneg (l : List α) {i : Int} (h : 0 ≤ i) : item? l i = l[i.toNat]? := by
  rw [item?, if_neg (by omega), cutAt_of_nonneg _ h]

theorem mem_of_item? {l : List α} {i : Int} {x : α} (h : item? l i = some x) : x ∈ l := by
  unfold item? at h
  split_ifs at h
  exact List.mem_of_getElem? h

theorem item?_neg_one {l : List α} (h : l ≠ []) : item? l (-1) = l[l.length - 1]? := by
  have hlength := List.length_pos_iff.mpr h
  have hcut : cutAt l.length (-1) = l.length - 1 := by
    rw [cutAt, if_pos (by omega)]
    omega
  rw [item?, if_neg (by omega), hcut]

end OpenStarry.Lib

/-!
# Replacing pieces of a list

Spans of a list are laid out from left to right and the list is copied with each of them replaced.
`Laid` is what the copying needs; for spans that are sorted and not empty it says no more than that
they are pairwise disjoint.
-/

namespace OpenStarry.Lib

variable {α β : Type}

/-- A piece of a list, what is to stand in its place, and what asked for it. -/
structure Span (α β : Type) where
  start : Nat
  stop : Nat
  new : List α
  source : β
  deriving DecidableEq, Repr

namespace Span

def Disjoint (a b : Span α β) : Prop := a.stop ≤ b.start ∨ b.stop ≤ a.start

def piece (l : List α) (s : Span α β) : List α := (l.take s.stop).drop s.start

theorem Disjoint.symm {a b : Span α β} (h : Disjoint a b) : Disjoint b a := Or.symm h

def Laid (length : Nat) : Nat → List (Span α β) → Prop
  | cursor, [] => cursor ≤ length
  | cursor, s :: rest => cursor ≤ s.start ∧ s.start ≤ s.stop ∧ Laid length s.stop rest

def splice (l : List α) : Nat → List (Span α β) → List α
  | cursor, [] => l.drop cursor
  | cursor, s :: rest => (l.take s.start).drop cursor ++ s.new ++ splice l s.stop rest

variable {l : List α} {length cursor : Nat} {spans spans' : List (Span α β)}

theorem Laid.cursor_le (h : Laid length cursor spans) : cursor ≤ length := by
  induction spans generalizing cursor with
  | nil => exact h
  | cons s rest ih =>
      obtain ⟨hcursor, hspan, hrest⟩ := h
      exact (hcursor.trans hspan).trans (ih hrest)

theorem drop_eq_take_drop_append {a b : Nat} (hab : a ≤ b) :
    l.drop a = (l.take b).drop a ++ l.drop b := by
  conv_lhs => rw [← List.take_append_drop b l, List.drop_append]
  by_cases hb : b ≤ l.length
  · rw [List.length_take, min_eq_left hb, Nat.sub_eq_zero_of_le hab, List.drop_zero]
  · rw [List.drop_eq_nil_of_le (by omega : l.length ≤ b), List.drop_nil]

theorem splice_pieces (h : Laid l.length cursor spans) :
    ∃ (gaps : List (List α × Span α β)) (tail : List α), gaps.map Prod.snd = spans ∧
      l.drop cursor = gaps.flatMap (fun gap => gap.1 ++ gap.2.piece l) ++ tail ∧
      splice l cursor spans = gaps.flatMap (fun gap => gap.1 ++ gap.2.new) ++ tail := by
  induction spans generalizing cursor with
  | nil => exact ⟨[], l.drop cursor, rfl, rfl, rfl⟩
  | cons s rest ih =>
      obtain ⟨hcursor, hspan, hrest⟩ := h
      obtain ⟨gaps, tail, hgaps, hold, hnew⟩ := ih hrest
      refine ⟨((l.take s.start).drop cursor, s) :: gaps, tail, ?_, ?_, ?_⟩
      · rw [List.map_cons, hgaps]
      · rw [List.flatMap_cons, drop_eq_take_drop_append hcursor, drop_eq_take_drop_append hspan,
          hold, piece]
        simp only [List.append_assoc]
      · rw [List.flatMap_cons, splice, hnew]
        simp only [List.append_assoc]

/-! ### Disjoint spans -/

theorem Laid.start_le (h : Laid length cursor spans) {s : Span α β} (hs : s ∈ spans) :
    cursor ≤ s.start := by
  induction spans generalizing cursor with
  | nil => exact absurd hs List.not_mem_nil
  | cons t rest ih =>
      obtain ⟨hcursor, hspan, hrest⟩ := h
      rcases List.mem_cons.mp hs with rfl | hs
      · exact hcursor
      · exact (hcursor.trans hspan).trans (ih hrest hs)

theorem Laid.pairwise (h : Laid length cursor spans) :
    spans.Pairwise fun a b => a.stop ≤ b.start := by
  induction spans generalizing cursor with
  | nil => exact List.Pairwise.nil
  | cons s rest ih =>
      obtain ⟨-, -, hrest⟩ := h
      exact List.pairwise_cons.mpr ⟨fun t ht => hrest.start_le ht, ih hrest⟩

theorem laid_of_disjoint (hsorted : spans.Pairwise fun a b => a.start ≤ b.start)
    (hcursor : ∀ s ∈ spans, cursor ≤ s.start) (hlength : cursor ≤ length)
    (hspan : ∀ s ∈ spans, s.start < s.stop ∧ s.stop ≤ length)
    (hdisjoint : spans.Pairwise Disjoint) : Laid length cursor spans := by
  induction spans generalizing cursor with
  | nil => exact hlength
  | cons s rest ih =>
      obtain ⟨hstart, hsorted⟩ := List.pairwise_cons.mp hsorted
      obtain ⟨hapart, hdisjoint⟩ := List.pairwise_cons.mp hdisjoint
      obtain ⟨hne, hstop⟩ := hspan s List.mem_cons_self
      refine ⟨hcursor s List.mem_cons_self, hne.le, ih hsorted (fun t ht => ?_) hstop
        (fun t ht => hspan t (List.mem_cons_of_mem s ht)) hdisjoint⟩
      rcases hapart t ht with h | h
      · exact h
      · have := hstart t ht
        have := (hspan t (List.mem_cons_of_mem s ht)).1
        omega

theorem eq_of_perm (hperm : spans.Perm spans') (hspan : ∀ s ∈ spans, s.start < s.stop)
    (h : spans.Pairwise fun a b => a.stop ≤ b.start)
    (h' : spans'.Pairwise fun a b => a.stop ≤ b.start) : spans = spans' := by
  refine List.Perm.eq_of_pairwise (fun a b ha hb hab hba => ?_) h h' hperm
  have := hspan a ha
  have := hspan b (hperm.mem_iff.mpr hb)
  omega

/-! ### Replacing the spans one by one -/

/-- `l[start:stop] = new`. -/
def replace (l : List α) (s : Span α β) : List α := l.take s.start ++ s.new ++ l.drop s.stop

theorem foldl_replace_reverse (h : Laid l.length cursor spans) :
    spans.reverse.foldl replace l = l.take cursor ++ splice l cursor spans := by
  induction spans generalizing cursor with
  | nil => exact (List.take_append_drop cursor l).symm
  | cons s rest ih =>
      obtain ⟨hcursor, hspan, hrest⟩ := h
      have hstop : (l.take s.stop).length = s.stop := List.length_take_of_le hrest.cursor_le
      have hfront : (l.take s.stop ++ splice l s.stop rest).take s.start = l.take s.start := by
        rw [List.take_append_of_le_length (by omega), List.take_take, min_eq_left hspan]
      have hback : (l.take s.stop ++ splice l s.stop rest).drop s.stop = splice l s.stop rest := by
        rw [List.drop_append_of_le_length (by omega), List.drop_eq_nil_of_le (by omega),
          List.nil_append]
      have hsplit : l.take s.start = l.take cursor ++ (l.take s.start).drop cursor := by
        conv_lhs => rw [← List.take_append_drop cursor (l.take s.start), List.take_take,
          min_eq_left hcursor]
      rw [List.reverse_cons, List.foldl_append, ih hrest, List.foldl_cons, List.foldl_nil, replace,
        hfront, hback, splice, ← List.append_assoc, ← List.append_assoc, ← hsplit]

/-! ### Other elements, and how many there are -/

def map {γ : Type} (f : α → γ) (s : Span α β) : Span γ β := ⟨s.start, s.stop, s.new.map f, s.source⟩

theorem map_splice {γ : Type} (f : α → γ) (l : List α) (cursor : Nat) (spans : List (Span α β)) :
    (splice l cursor spans).map f = splice (l.map f) cursor (spans.map (map f)) := by
  induction spans generalizing cursor with
  | nil => rw [splice, List.map_drop, List.map_nil, splice]
  | cons s rest ih =>
      rw [splice, List.map_append, List.map_append, List.map_drop, List.map_take, ih, List.map_cons,
        splice]
      rfl

theorem forall_mem_splice {p : α → Prop} (hl : ∀ x ∈ l, p x)
    (hnew : ∀ s ∈ spans, ∀ x ∈ s.new, p x) : ∀ x ∈ splice l cursor spans, p x := by
  induction spans generalizing cursor with
  | nil => exact fun x hx => hl x (List.mem_of_mem_drop hx)
  | cons s rest ih =>
      obtain ⟨hs, hrest⟩ := List.forall_mem_cons.mp hnew
      rw [splice, List.forall_mem_append, List.forall_mem_append]
      exact ⟨⟨fun x hx => hl x (List.mem_of_mem_take (List.mem_of_mem_drop hx)), hs⟩, ih hrest⟩

theorem splice_self (h : Laid l.length cursor spans) (hnew : ∀ s ∈ spans, s.new = s.piece l) :
    splice l cursor spans = l.drop cursor := by
  induction spans generalizing cursor with
  | nil => rfl
  | cons s rest ih =>
      obtain ⟨hcursor, hspan, hrest⟩ := h
      obtain ⟨hs, hothers⟩ := List.forall_mem_cons.mp hnew
      have hfirst := @drop_eq_take_drop_append α l _ _ hcursor
      have hsecond := @drop_eq_take_drop_append α l _ _ hspan
      rw [splice, hs, ih hrest hothers, piece, hfirst, hsecond, List.append_assoc]

theorem length_splice_le (h : Laid l.length cursor spans)
    (hnew : ∀ s ∈ spans, s.new.length ≤ s.stop - s.start) :
    (splice l cursor spans).length ≤ l.length - cursor ∧
      ((splice l cursor spans).length = l.length - cursor →
        ∀ s ∈ spans, s.new.length = s.stop - s.start) := by
  induction spans generalizing cursor with
  | nil =>
      rw [splice, List.length_drop]
      exact ⟨le_rfl, fun _ s hs => absurd hs List.not_mem_nil⟩
  | cons s rest ih =>
      obtain ⟨hcursor, hspan, hrest⟩ := h
      obtain ⟨hs, hothers⟩ := List.forall_mem_cons.mp hnew
      obtain ⟨hle, heq⟩ := ih hrest hothers
      have hstop := hrest.cursor_le
      have hlength : (splice l cursor (s :: rest)).length =
          s.start - cursor + s.new.length + (splice l s.stop rest).length := by
        rw [splice, List.length_append, List.length_append, List.length_drop, List.length_take,
          min_eq_left (by omega)]
      rw [hlength]
      refine ⟨by omega, fun htotal => List.forall_mem_cons.mpr ⟨by omega, heq (by omega)⟩⟩

end Span

end OpenStarry.Lib
