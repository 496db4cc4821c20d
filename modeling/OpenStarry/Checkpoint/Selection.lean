import Mathlib.Data.List.Sort
import OpenStarry.Lib.Keyed
import OpenStarry.Lib.Padded
import OpenStarry.Lib.Recency

/-!
# Obligations

The facts that are to survive a compaction. They are collected in a buffer that holds so many of each
kind, and the facts used last are kept. What is selected in the end is what would be selected from a
table that never forgets.
-/

namespace OpenStarry.Checkpoint

open Lib Text Recency

structure Obligation where
  kind : Str
  value : Str
  sourceRole : Option Str := none
  sourceEntryId : Option Int := none
  critical : Bool := true
  deriving DecidableEq

abbrev Key := Str × Str

structure Ranked where
  obligation : Obligation
  lastSeenOrder : Nat
  deriving DecidableEq

def Ranked.kind (c : Ranked) : Str := c.obligation.kind

/-! ### Kinds -/

def userGoal : Str := "user_goal".toList
def userConstraint : Str := "user_constraint_or_preference".toList
def pendingId : Str := "pending_tool_or_approval_id".toList
def nextAction : Str := "current_plan_or_next_action".toList
def failure : Str := "failed_command_or_error".toList
def doNotRepeat : Str := "do_not_repeat_action".toList
def unresolvedQuestion : Str := "unresolved_question".toList
def decision : Str := "decision_or_rationale".toList
def command : Str := "command".toList
def toolResultFact : Str := "tool_result_fact".toList
def toolResultId : Str := "tool_result_id".toList
def identifier : Str := "important_identifier".toList
def artifact : Str := "artifact_path_or_name".toList
def filePath : Str := "file_path".toList

def continuityPriority : List Str :=
  [userGoal, userConstraint, pendingId, nextAction, failure, doNotRepeat, unresolvedQuestion,
    decision, command, toolResultFact, toolResultId, identifier, artifact, filePath]

def priority (kind : Str) : Nat := continuityPriority.idxOf kind

section

variable (casefold : Str → Str)

def keyOf (obligation : Obligation) : Key := (obligation.kind, casefold obligation.value)

def rankedKey (c : Ranked) : Key := keyOf casefold c.obligation

/-! ### Ranking -/

/-- The rank of `a` is less than that of `b`. -/
def ranksBefore (a b : Ranked) : Bool :=
  if priority a.kind ≠ priority b.kind then decide (priority a.kind < priority b.kind)
  else if a.lastSeenOrder ≠ b.lastSeenOrder then decide (b.lastSeenOrder < a.lastSeenOrder)
  else if a.kind ≠ b.kind then before a.kind b.kind
  else before (casefold a.obligation.value) (casefold b.obligation.value)

/-- `sorted(candidates, key=rank)`. -/
def sortedByRank (candidates : List Ranked) : List Ranked :=
  candidates.insertionSort fun a b => ranksBefore casefold b a = false

/-- `max(candidates, key=rank)`: the first one that no other one ranks behind. -/
def lastRanked : List (Key × Ranked) → Option (Key × Ranked)
  | [] => none
  | first :: rest =>
      some (rest.foldl (fun worst c => if ranksBefore casefold worst.2 c.2 then c else worst) first)

/-! ### The buffer -/

structure Buffer where
  maxObligations : Nat
  candidates : List (Key × Ranked) := []
  nextSeenOrder : Nat := 0

def Buffer.empty (maxObligations : Int) : Buffer where
  maxObligations := maxObligations.toNat

def Buffer.add (b : Buffer) (key : Key) (obligation : Obligation) : Buffer :=
  let order := b.nextSeenOrder + 1
  if b.maxObligations = 0 then { b with nextSeenOrder := order }
  else
    let candidates := Keyed.assign Prod.fst (key, ⟨obligation, order⟩) b.candidates
    let grown := { b with candidates, nextSeenOrder := order }
    if key ∈ b.candidates.map Prod.fst then grown
    else
      let sameKind := candidates.filter fun c => c.2.kind = obligation.kind
      if sameKind.length ≤ b.maxObligations then grown
      else
        match lastRanked casefold sameKind with
        | none => grown
        | some evicted =>
            { grown with candidates := candidates.filter fun c => c.1 ≠ evicted.1 }

/-! ### The selection -/

def select (limit : Nat) (selected : List (Key × Ranked)) (candidate : Ranked) :
    List (Key × Ranked) :=
  if limit ≤ selected.length then selected
  else Keyed.assign Prod.fst (keyOf casefold candidate.obligation, candidate) selected

def firstOfKind (ranked : List Ranked) (kind : Str) : Option Ranked :=
  ranked.find? fun c => c.kind = kind

def representedKinds (ranked : List Ranked) : List Str :=
  (ranked.map Ranked.kind).eraseDups.insertionSort fun kind kind' =>
    priority kind < priority kind' ∨ priority kind = priority kind' ∧ notAfter kind kind'

def selectionOrder (ranked : List Ranked) : List Ranked :=
  [userGoal, userConstraint].filterMap (firstOfKind ranked) ++
    ranked.filter (fun c => c.kind = pendingId) ++
    (representedKinds ranked).filterMap (firstOfKind ranked) ++ ranked

def selection (limit : Nat) (table : List Ranked) : List Obligation :=
  let selected := (selectionOrder (sortedByRank casefold table)).foldl (select casefold limit) []
  (sortedByRank casefold (selected.map Prod.snd)).map Ranked.obligation

def Buffer.values (b : Buffer) : List Obligation :=
  selection casefold b.maxObligations (b.candidates.map Prod.snd)

def collect (maxObligations : Int) (adds : List Obligation) : Buffer :=
  adds.foldl (fun b obligation => b.add casefold (keyOf casefold obligation) obligation)
    (.empty maxObligations)

def table (adds : List Obligation) : List Ranked :=
  (adds.mapIdx fun i obligation => (⟨obligation, i + 1⟩ : Ranked)).foldl
    (fun t c => touch (rankedKey casefold) c t) []

end

/-!
## The buffer forgets nothing that matters

Of each kind the buffer holds the obligations used last, as many as may be selected in all. The
selection tries those of a kind in that order, so it is full before it comes to one that was dropped.
-/

def OrdersDistinct (l : List Ranked) : Prop :=
  ∀ a ∈ l, ∀ b ∈ l, a.lastSeenOrder = b.lastSeenOrder → a = b

def ranksAtMost (a b : Ranked) : Prop :=
  priority a.kind < priority b.kind ∨
    priority a.kind = priority b.kind ∧ b.lastSeenOrder ≤ a.lastSeenOrder

instance : DecidableRel ranksAtMost := fun a b => by unfold ranksAtMost; infer_instance

instance : Std.Total ranksAtMost := ⟨fun a b => by unfold ranksAtMost; omega⟩

instance : IsTrans Ranked ranksAtMost := ⟨fun a b c => by unfold ranksAtMost; omega⟩

section

variable {casefold : Str → Str} {a b c : Ranked} {l l' : List Ranked} {limit : Nat}

/-! ### Ranking -/

theorem ranksBefore_false_iff (hdistinct : a.lastSeenOrder = b.lastSeenOrder → a = b) :
    ranksBefore casefold b a = false ↔ ranksAtMost a b := by
  rw [ranksBefore, ranksAtMost]
  by_cases hpriority : priority b.kind = priority a.kind
  · by_cases horder : b.lastSeenOrder = a.lastSeenOrder
    · have hsame := hdistinct horder.symm
      subst hsame
      simp [before_self]
    · simp only [hpriority, ne_eq, not_true_eq_false, if_false, horder, not_false_eq_true, if_true,
        decide_eq_false_iff_not, lt_self_iff_false, false_or, true_and]
      omega
  · simp only [ne_eq, hpriority, not_false_eq_true, if_true, decide_eq_false_iff_not]
    omega

theorem sortedByRank_eq (hdistinct : OrdersDistinct l) :
    sortedByRank casefold l = l.insertionSort ranksAtMost := by
  have hsame := @List.map_insertionSort _ _ (fun a b => ranksBefore casefold b a = false) ranksAtMost
    _ _ id l fun a ha b hb => ranksBefore_false_iff (hdistinct a ha b hb)
  rw [List.map_id, List.map_id] at hsame
  exact hsame

theorem perm_sortedByRank : (sortedByRank casefold l).Perm l := List.perm_insertionSort _ l

theorem mem_sortedByRank : a ∈ sortedByRank casefold l ↔ a ∈ l := perm_sortedByRank.mem_iff

theorem pairwise_sortedByRank (hdistinct : OrdersDistinct l) :
    (sortedByRank casefold l).Pairwise ranksAtMost := by
  rw [sortedByRank_eq hdistinct]
  exact List.pairwise_insertionSort _ l

theorem eq_of_sorted (hdistinct : OrdersDistinct l) (hl : l.Pairwise ranksAtMost)
    (hl' : l'.Pairwise ranksAtMost) (hperm : l.Perm l') : l = l' := by
  apply List.Perm.eq_of_pairwise _ hl hl' hperm
  intro a b ha hb hab hba
  apply hdistinct a ha b (hperm.mem_iff.mpr hb)
  unfold ranksAtMost at hab hba
  omega

theorem sortedByRank_perm (hdistinct : OrdersDistinct l) (hperm : l.Perm l') :
    sortedByRank casefold l = sortedByRank casefold l' := by
  have hdistinct' : OrdersDistinct l' := fun a ha b hb =>
    hdistinct a (hperm.mem_iff.mpr ha) b (hperm.mem_iff.mpr hb)
  apply eq_of_sorted
  · exact fun a ha b hb => hdistinct a (mem_sortedByRank.mp ha) b (mem_sortedByRank.mp hb)
  · exact pairwise_sortedByRank hdistinct
  · exact pairwise_sortedByRank hdistinct'
  · exact perm_sortedByRank.trans (hperm.trans perm_sortedByRank.symm)

theorem sortedByRank_filter (hdistinct : OrdersDistinct l) (p : Ranked → Bool) :
    sortedByRank casefold (l.filter p) = (sortedByRank casefold l).filter p := by
  have hdistinct' : OrdersDistinct (l.filter p) := fun a ha b hb =>
    hdistinct a (List.mem_of_mem_filter ha) b (List.mem_of_mem_filter hb)
  apply eq_of_sorted
  · exact fun a ha b hb => hdistinct' a (mem_sortedByRank.mp ha) b (mem_sortedByRank.mp hb)
  · exact pairwise_sortedByRank hdistinct'
  · exact (pairwise_sortedByRank hdistinct).filter p
  · exact perm_sortedByRank.trans (perm_sortedByRank.symm.filter p)

/-! ### The selected candidates -/

def entryOf (casefold : Str → Str) (c : Ranked) : Key × Ranked := (rankedKey casefold c, c)

def KeysDistinct (casefold : Str → Str) (l : List Ranked) : Prop :=
  (l.map (rankedKey casefold)).Nodup

theorem KeysDistinct.eq (h : KeysDistinct casefold l) (ha : a ∈ l) (hb : b ∈ l)
    (hkey : rankedKey casefold a = rankedKey casefold b) : a = b :=
  List.inj_on_of_nodup_map h ha hb hkey

theorem select_eq_pick (hkeys : KeysDistinct casefold l) {picked : List Ranked} (hpicked : picked ⊆ l)
    (hnodup : picked.Nodup) (hc : c ∈ l) :
    select casefold limit (picked.map (entryOf casefold)) c =
      (pick limit picked c).map (entryOf casefold) := by
  rw [select, pick, List.length_map]
  by_cases hfull : limit ≤ picked.length
  · rw [if_pos hfull, if_pos (.inl hfull)]
  · rw [if_neg hfull]
    have hfst : (picked.map (entryOf casefold)).map Prod.fst = picked.map (rankedKey casefold) := by
      rw [List.map_map]
      rfl
    by_cases hmem : c ∈ picked
    · rw [if_pos (.inr hmem)]
      apply Keyed.assign_eq_self
      · rw [hfst]
        exact List.Nodup.map_on (fun x hx y hy => hkeys.eq (hpicked hx) (hpicked hy)) hnodup
      · exact List.mem_map_of_mem hmem
    · rw [if_neg (not_or.mpr ⟨hfull, hmem⟩), List.map_append]
      apply Keyed.assign_of_fresh
      intro entry hentry
      obtain ⟨d, hd, hentry⟩ := List.mem_map.mp hentry
      subst hentry
      intro hkey
      exact hmem (hkeys.eq (hpicked hd) hc hkey ▸ hd)

theorem foldl_select_eq_pick (hkeys : KeysDistinct casefold l) {picked tried : List Ranked}
    (hpicked : picked ⊆ l) (hnodup : picked.Nodup) (htried : tried ⊆ l) :
    tried.foldl (select casefold limit) (picked.map (entryOf casefold)) =
      (tried.foldl (pick limit) picked).map (entryOf casefold) := by
  induction tried generalizing picked with
  | nil => rfl
  | cons c rest ih =>
      obtain ⟨hc, hrest⟩ := List.cons_subset.mp htried
      rw [List.foldl_cons, List.foldl_cons, select_eq_pick hkeys hpicked hnodup hc, ih _ _ hrest]
      · intro d hd
        rw [pick] at hd
        split_ifs at hd
        · exact hpicked hd
        · obtain hmem | hsingle := List.mem_append.mp hd
          · exact hpicked hmem
          · exact List.mem_singleton.mp hsingle ▸ hc
      · exact @nodup_foldl_pick _ _ limit picked [c] hnodup

theorem firstOfKind_eq (l : List Ranked) (kind : Str) :
    firstOfKind l kind = (l.filter fun c => c.kind = kind).head? := by
  rw [firstOfKind, List.head?_filter]

theorem firstOfKind_mem {kind : Str} (h : firstOfKind l kind = some c) : c ∈ l ∧ c.kind = kind :=
  ⟨List.mem_of_find?_eq_some h, by simpa using List.find?_some h⟩

theorem selectionOrder_subset (l : List Ranked) : selectionOrder l ⊆ l := by
  have hfirst : ∀ kinds : List Str, kinds.filterMap (firstOfKind l) ⊆ l := by
    intro kinds c hc
    obtain ⟨kind, -, hkind⟩ := List.mem_filterMap.mp hc
    exact (firstOfKind_mem hkind).1
  rw [selectionOrder]
  apply List.append_subset.mpr
  refine ⟨List.append_subset.mpr ⟨List.append_subset.mpr ⟨hfirst _, ?_⟩, hfirst _⟩,
    List.Subset.refl l⟩
  exact List.filter_subset_self l

def picks (limit : Nat) (ranked : List Ranked) : List Ranked :=
  (selectionOrder ranked).foldl (pick limit) []

theorem selection_eq (hkeys : KeysDistinct casefold l) :
    selection casefold limit l =
      (sortedByRank casefold (picks limit (sortedByRank casefold l))).map Ranked.obligation := by
  have hsorted : KeysDistinct casefold (sortedByRank casefold l) :=
    (perm_sortedByRank.map _).nodup_iff.mpr hkeys
  have hselect := @foldl_select_eq_pick casefold _ limit hsorted [] _ (List.nil_subset _)
    List.nodup_nil (selectionOrder_subset (sortedByRank casefold l))
  rw [List.map_nil] at hselect
  rw [selection, picks]
  simp only [hselect, List.map_map]
  rw [show Prod.snd ∘ entryOf casefold = id from rfl, List.map_id]

/-! ### Candidates that may be dropped -/

/-- Among the first `limit` candidates of its kind. -/
def Kept (limit : Nat) (l : List Ranked) (c : Ranked) : Prop :=
  c ∈ (l.filter fun d => d.kind = c.kind).take limit

instance (limit : Nat) (l : List Ranked) : DecidablePred (Kept limit l) := fun c => by
  unfold Kept; infer_instance

theorem filter_mem_take {m : List Ranked} (hnodup : m.Nodup) (n : Nat) :
    (m.filter fun c => c ∈ m.take n) = m.take n := by
  have hparts : (m.take n ++ m.drop n).Nodup := by rwa [List.take_append_drop]
  conv_lhs => rw [← List.take_append_drop n m]
  rw [List.filter_append, List.take_append_drop, List.filter_eq_self.mpr, List.filter_eq_nil_iff.mpr,
    List.append_nil]
  · intro c hc hmem
    exact (List.nodup_append.mp hparts).2.2 c (of_decide_eq_true hmem) c hc rfl
  · exact fun c hc => decide_eq_true hc

theorem filter_kept_kind (hnodup : l.Nodup) (kind : Str) :
    ((l.filter fun c => Kept limit l c).filter fun c => c.kind = kind) =
      (l.filter fun c => c.kind = kind).take limit := by
  rw [← filter_mem_take (hnodup.filter _), List.filter_comm]
  apply List.filter_congr
  intro c hc
  have hkind : c.kind = kind := of_decide_eq_true (List.mem_filter.mp hc).2
  rw [decide_eq_decide, Kept, hkind]

theorem length_le_of_notMem_take {m before after : List Ranked} (hsplit : m = before ++ c :: after)
    (hdropped : c ∉ m.take limit) : limit ≤ before.length := by
  by_contra hless
  apply hdropped
  rw [hsplit, List.take_append, show limit - before.length = limit - before.length - 1 + 1 by omega,
    List.take_succ_cons]
  exact List.mem_append_right _ List.mem_cons_self

theorem length_filter_of_dropped {before after : List Ranked} (hsplit : l = before ++ c :: after)
    (hdropped : ¬ Kept limit l c) : limit ≤ (before.filter fun d => d.kind = c.kind).length := by
  have hkind : (l.filter fun d => d.kind = c.kind) =
      (before.filter fun d => d.kind = c.kind) ++ c :: after.filter fun d => d.kind = c.kind := by
    rw [hsplit, List.filter_append, List.filter_cons_of_pos (by simp)]
  exact length_le_of_notMem_take hkind hdropped

theorem firstOfKind_filter_kept (hnodup : l.Nodup) (hlimit : 0 < limit) (kind : Str) :
    firstOfKind (l.filter fun c => Kept limit l c) kind = firstOfKind l kind := by
  rw [firstOfKind_eq, firstOfKind_eq, filter_kept_kind hnodup, List.head?_take,
    if_neg (Nat.ne_of_gt hlimit)]

theorem eraseDups_map_filter {α β : Type} [BEq β] [LawfulBEq β] {f : α → β} {p : α → Bool} {l : List α}
    (h : ∀ before x after, l = before ++ x :: after → p x = false → f x ∈ before.map f) :
    ((l.filter p).map f).eraseDups = (l.map f).eraseDups := by
  induction l using List.reverseRecOn with
  | nil => rfl
  | append_singleton l x ih =>
      have hl := ih fun before y after hsplit hy => h before y (after ++ [x]) (by simp [hsplit]) hy
      have hmem : ∀ b, b ∈ (l.filter p).map f ↔ b ∈ l.map f := by
        intro b
        rw [← List.mem_eraseDups, hl, List.mem_eraseDups]
      rw [List.filter_append, List.map_append, List.map_append, List.eraseDups_append,
        List.eraseDups_append, hl]
      cases hp : p x with
      | true =>
          rw [List.filter_cons_of_pos hp, List.filter_nil]
          congr 2
          apply List.filter_congr
          intro b _
          congr 1
          rw [Bool.eq_iff_iff, List.elem_iff, List.elem_iff]
          exact hmem b
      | false =>
          have hbefore := h l x [] rfl hp
          rw [List.filter_cons_of_neg (by simp [hp]), List.filter_nil, List.map_nil]
          simp only [List.removeAll, List.map_cons, List.map_nil]
          rw [List.filter_nil, List.filter_cons_of_neg, List.filter_nil]
          rw [List.elem_iff.mpr hbefore]
          exact Bool.false_ne_true

theorem representedKinds_filter_kept (hlimit : 0 < limit) :
    representedKinds (l.filter fun c => Kept limit l c) = representedKinds l := by
  rw [representedKinds, eraseDups_map_filter, representedKinds]
  intro before c after hsplit hdropped
  have hlength := length_filter_of_dropped hsplit (of_decide_eq_false hdropped)
  obtain ⟨d, hd⟩ := List.exists_mem_of_length_pos (Nat.lt_of_lt_of_le hlimit hlength)
  obtain ⟨hmem, hkind⟩ := List.mem_filter.mp hd
  exact List.mem_map.mpr ⟨d, hmem, of_decide_eq_true hkind⟩

theorem picks_filter_kept (hnodup : l.Nodup) (hlimit : 0 < limit) :
    picks limit (l.filter fun c => Kept limit l c) = picks limit l := by
  have hfirst : firstOfKind (l.filter fun c => Kept limit l c) = firstOfKind l :=
    funext fun kind => firstOfKind_filter_kept hnodup hlimit kind
  have hpending : ∀ picked : List Ranked,
      ((l.filter fun c => c.kind = pendingId).filter fun c => Kept limit l c).foldl (pick limit) picked =
        (l.filter fun c => c.kind = pendingId).foldl (pick limit) picked := by
    intro picked
    apply foldl_pick_filter
    intro before c after hsplit hdropped
    have hc : c ∈ l.filter fun c => c.kind = pendingId := by
      rw [hsplit]
      exact List.mem_append_right before List.mem_cons_self
    have hkind : c.kind = pendingId := of_decide_eq_true (List.mem_filter.mp hc).2
    have hlate : c ∉ (l.filter fun d => d.kind = pendingId).take limit := by
      have hkept := of_decide_eq_false hdropped
      rwa [Kept, hkind] at hkept
    have hbefore : before.Nodup :=
      (hnodup.filter _).sublist (hsplit ▸ List.sublist_append_left before (c :: after))
    exact full_of_nodup hbefore (List.Subset.refl before) (length_le_of_notMem_take hsplit hlate)
  have hrest : ∀ picked : List Ranked,
      (l.filter fun c => Kept limit l c).foldl (pick limit) picked = l.foldl (pick limit) picked := by
    intro picked
    apply foldl_pick_filter
    intro before c after hsplit hdropped
    have hbefore : before.Nodup := hnodup.sublist (hsplit ▸ List.sublist_append_left before _)
    exact full_of_nodup (hbefore.filter _) (List.filter_subset_self before)
      (length_filter_of_dropped hsplit (of_decide_eq_false hdropped))
  rw [picks, picks, selectionOrder, selectionOrder, hfirst, representedKinds_filter_kept hlimit,
    List.filter_comm]
  simp only [List.foldl_append]
  rw [hpending, hrest]

end

end OpenStarry.Checkpoint
