import Mathlib.Data.List.Pairwise
import OpenStarry.Checkpoint.Selection

/-!
# A bounded buffer and the unbounded table

The buffer holds the candidates that the table has among the first of their kind: so it was before an
addition, and so it is after it.
-/

namespace OpenStarry.Checkpoint

open Lib Text Recency

/-- A table in the order of last additions, with one candidate a key. -/
structure Recent (casefold : Str → Str) (t : List Ranked) (order : Nat) : Prop where
  keys : KeysDistinct casefold t
  orders : t.Pairwise fun a b => b.lastSeenOrder < a.lastSeenOrder
  bounded : ∀ c ∈ t, c.lastSeenOrder ≤ order

/-- The buffer holds what may not be dropped from the table. -/
structure Reflects (casefold : Str → Str) (b : Buffer) (t : List Ranked) : Prop where
  entries : ∀ entry ∈ b.candidates, entry = entryOf casefold entry.2
  nodup : (b.candidates.map Prod.fst).Nodup
  mem_iff : ∀ c, entryOf casefold c ∈ b.candidates ↔ Kept b.maxObligations t c

section

variable {casefold : Str → Str} {b : Buffer} {t : List Ranked} {c new : Ranked} {order limit : Nat}

/-! ### The table -/

theorem Recent.nodup (h : Recent casefold t order) : t.Nodup := h.keys.of_map _

theorem ordersDistinct_of_pairwise (h : t.Pairwise fun a b => b.lastSeenOrder < a.lastSeenOrder) :
    OrdersDistinct t := by
  intro a ha b hb horder
  by_contra hne
  have hpair : t.Pairwise fun a b => a.lastSeenOrder ≠ b.lastSeenOrder :=
    h.imp fun hless => Nat.ne_of_gt hless
  have : Std.Symm fun a b : Ranked => a.lastSeenOrder ≠ b.lastSeenOrder := ⟨fun _ _ => Ne.symm⟩
  exact hpair.forall ha hb hne horder

theorem Recent.ordersDistinct (h : Recent casefold t order) : OrdersDistinct t :=
  ordersDistinct_of_pairwise h.orders

theorem Recent.touch (h : Recent casefold t order) (o : Obligation) :
    Recent casefold (touch (rankedKey casefold) ⟨o, order + 1⟩ t) (order + 1) where
  keys := nodup_touch h.keys
  orders := by
    rw [Recency.touch, List.pairwise_cons]
    refine ⟨?_, h.orders.filter _⟩
    intro c hc
    exact Nat.lt_succ_of_le (h.bounded c (List.mem_of_mem_filter hc))
  bounded := by
    intro c hc
    obtain heq | ⟨hmem, -⟩ := mem_touch_iff.mp hc
    · rw [heq]
    · exact Nat.le_succ_of_le (h.bounded c hmem)

theorem kind_of_rankedKey {a : Ranked} (h : rankedKey casefold c = rankedKey casefold a) :
    c.kind = a.kind := congrArg Prod.fst h

theorem Kept.mem (h : Kept limit t c) : c ∈ t := List.mem_of_mem_filter (List.mem_of_mem_take h)

theorem filter_touch_kind (new : Ranked) (kind : Str) :
    ((touch (rankedKey casefold) new t).filter fun d => d.kind = kind) =
      if new.kind = kind then touch (rankedKey casefold) new (t.filter fun d => d.kind = kind)
      else t.filter fun d => d.kind = kind := by
  rw [filter_touch]
  · simp only [decide_eq_true_eq]
  · intro y _ hkey
    rw [kind_of_rankedKey hkey]

theorem kept_touch_of_ne (h : new.kind ≠ c.kind) :
    Kept limit (touch (rankedKey casefold) new t) c ↔ Kept limit t c := by
  rw [Kept, filter_touch_kind, if_neg h, Kept]

theorem kept_touch_of_eq (h : new.kind = c.kind) :
    Kept limit (touch (rankedKey casefold) new t) c ↔
      c ∈ (touch (rankedKey casefold) new (t.filter fun d => d.kind = new.kind)).take limit := by
  rw [Kept, filter_touch_kind, if_pos h, h]

theorem kept_iff_of_kind (h : new.kind = c.kind) :
    Kept limit t c ↔ c ∈ (t.filter fun d => d.kind = new.kind).take limit := by
  rw [Kept, h]

theorem entryOf_eq_iff : entryOf casefold c = entryOf casefold new ↔ c = new :=
  ⟨fun heq => congrArg Prod.snd heq, fun heq => congrArg _ heq⟩

/-! ### One addition -/

theorem Reflects.kept_of_key (h : Reflects casefold b t)
    (hkey : rankedKey casefold new ∈ b.candidates.map Prod.fst) :
    ∃ c, Kept b.maxObligations t c ∧ rankedKey casefold c = rankedKey casefold new := by
  obtain ⟨entry, hentry, hfst⟩ := List.mem_map.mp hkey
  have htagged := h.entries entry hentry
  refine ⟨entry.2, (h.mem_iff entry.2).mp (htagged ▸ hentry), ?_⟩
  rw [← hfst, htagged]
  rfl

theorem Reflects.key_of_kept (h : Reflects casefold b t) (hc : Kept b.maxObligations t c) :
    rankedKey casefold c ∈ b.candidates.map Prod.fst :=
  List.mem_map.mpr ⟨entryOf casefold c, (h.mem_iff c).mpr hc, rfl⟩

theorem Reflects.replaced (h : Reflects casefold b t) (hkeys : KeysDistinct casefold t)
    (hkey : rankedKey casefold new ∈ b.candidates.map Prod.fst) :
    entryOf casefold c ∈ Keyed.assign Prod.fst (entryOf casefold new) b.candidates ↔
      Kept b.maxObligations (touch (rankedKey casefold) new t) c := by
  rw [Keyed.mem_assign_iff h.nodup, h.mem_iff, entryOf_eq_iff]
  by_cases hkind : new.kind = c.kind
  · obtain ⟨old, hold, holdKey⟩ := h.kept_of_key hkey
    have hmem : rankedKey casefold new ∈
        ((t.filter fun d => d.kind = new.kind).take b.maxObligations).map (rankedKey casefold) := by
      rw [← holdKey]
      exact List.mem_map_of_mem ((kept_iff_of_kind (kind_of_rankedKey holdKey).symm).mp hold)
    have hdistinct : ((t.filter fun d => d.kind = new.kind).map (rankedKey casefold)).Nodup :=
      hkeys.sublist (List.filter_sublist.map _)
    rw [kept_touch_of_eq hkind, take_touch_of_mem hdistinct hmem, mem_touch_iff,
      kept_iff_of_kind hkind]
    rfl
  · rw [kept_touch_of_ne hkind]
    constructor
    · rintro (heq | ⟨hc, -⟩)
      · exact absurd (congrArg Ranked.kind heq.symm) hkind
      · exact hc
    · intro hc
      refine .inr ⟨hc, fun hsame => hkind ?_⟩
      exact (@kind_of_rankedKey casefold c new hsame).symm

theorem ranksBefore_of_kind {x y : Ranked} (hkind : x.kind = y.kind) :
    (ranksBefore casefold x y = true → y.lastSeenOrder ≤ x.lastSeenOrder) ∧
      (ranksBefore casefold x y = false → x.lastSeenOrder ≤ y.lastSeenOrder) := by
  rw [ranksBefore, hkind, if_neg (by simp)]
  by_cases hsame : x.lastSeenOrder = y.lastSeenOrder
  · exact ⟨fun _ => Nat.le_of_eq hsame.symm, fun _ => Nat.le_of_eq hsame⟩
  · rw [if_pos hsame, decide_eq_true_eq, decide_eq_false_iff_not]
    omega

theorem foldl_worst {kind : Str} {rest : List (Key × Ranked)} {first : Key × Ranked}
    (hkind : ∀ entry ∈ first :: rest, entry.2.kind = kind) :
    (rest.foldl (fun worst c => if ranksBefore casefold worst.2 c.2 then c else worst) first) ∈
        first :: rest ∧
      ∀ entry ∈ first :: rest,
        (rest.foldl (fun worst c => if ranksBefore casefold worst.2 c.2 then c else worst)
          first).2.lastSeenOrder ≤ entry.2.lastSeenOrder := by
  induction rest generalizing first with
  | nil => simp
  | cons next rest ih =>
      have hfirst := hkind first List.mem_cons_self
      have hnext := hkind next (List.mem_cons_of_mem _ List.mem_cons_self)
      obtain ⟨hless, hmore⟩ := @ranksBefore_of_kind casefold _ _ (hfirst.trans hnext.symm)
      rw [List.foldl_cons]
      split_ifs with hbefore
      · obtain ⟨hmem, hall⟩ := @ih next fun entry hentry =>
          hkind entry (List.mem_cons_of_mem _ hentry)
        refine ⟨List.mem_cons_of_mem _ hmem, List.forall_mem_cons.mpr ⟨?_, hall⟩⟩
        exact Nat.le_trans (hall next List.mem_cons_self) (hless hbefore)
      · obtain ⟨hmem, hall⟩ := @ih first fun entry hentry => by
          obtain heq | hrest := List.mem_cons.mp hentry
          · exact heq ▸ hfirst
          · exact hkind entry (List.mem_cons_of_mem _ (List.mem_cons_of_mem _ hrest))
        obtain ⟨hle, hrest⟩ := List.forall_mem_cons.mp hall
        refine ⟨?_, List.forall_mem_cons.mpr ⟨hle, List.forall_mem_cons.mpr ⟨?_, hrest⟩⟩⟩
        · obtain heq | hin := List.mem_cons.mp hmem
          · rw [heq]
            exact List.mem_cons_self
          · exact List.mem_cons_of_mem _ (List.mem_cons_of_mem _ hin)
        · exact Nat.le_trans hle (hmore (Bool.eq_false_iff.mpr hbefore))

theorem lastRanked_spec {l : List (Key × Ranked)} {kind : Str} (hne : l ≠ [])
    (hkind : ∀ entry ∈ l, entry.2.kind = kind) :
    ∃ worst, lastRanked casefold l = some worst ∧ worst ∈ l ∧
      ∀ entry ∈ l, worst.2.lastSeenOrder ≤ entry.2.lastSeenOrder := by
  cases l with
  | nil => exact absurd rfl hne
  | cons first rest => exact ⟨_, rfl, foldl_worst hkind⟩

theorem assign_new (hkey : rankedKey casefold new ∉ b.candidates.map Prod.fst) :
    Keyed.assign Prod.fst (entryOf casefold new) b.candidates =
      b.candidates ++ [entryOf casefold new] := by
  apply Keyed.assign_of_fresh
  intro entry hentry hsame
  exact hkey (List.mem_map.mpr ⟨entry, hentry, hsame⟩)

theorem Reflects.front_fresh (h : Reflects casefold b t)
    (hkey : rankedKey casefold new ∉ b.candidates.map Prod.fst) :
    rankedKey casefold new ∉
      ((t.filter fun d => d.kind = new.kind).take b.maxObligations).map (rankedKey casefold) := by
  intro hmem
  obtain ⟨d, hd, hdKey⟩ := List.mem_map.mp hmem
  apply hkey
  rw [← hdKey]
  exact h.key_of_kept ((kept_iff_of_kind (kind_of_rankedKey hdKey).symm).mpr hd)

theorem Reflects.mem_insert_iff (h : Reflects casefold b t) :
    entryOf casefold c ∈ b.candidates ++ [entryOf casefold new] ↔
      Kept b.maxObligations t c ∨ c = new := by
  rw [List.mem_append, List.mem_singleton, h.mem_iff, entryOf_eq_iff]

theorem Reflects.length_sameKind (h : Reflects casefold b t) (hnodup : t.Nodup) :
    ((b.candidates ++ [entryOf casefold new]).filter fun entry => entry.2.kind = new.kind).length =
      ((t.filter fun d => d.kind = new.kind).take b.maxObligations).length + 1 := by
  have hperm : (b.candidates.filter fun entry => entry.2.kind = new.kind).Perm
      (((t.filter fun d => d.kind = new.kind).take b.maxObligations).map (entryOf casefold)) := by
    apply (List.perm_ext_iff_of_nodup _ _).mpr
    · intro entry
      rw [List.mem_filter, List.mem_map, decide_eq_true_eq]
      constructor
      · rintro ⟨hentry, hkind⟩
        have htagged := h.entries entry hentry
        exact ⟨entry.2, (kept_iff_of_kind hkind.symm).mp ((h.mem_iff entry.2).mp (htagged ▸ hentry)),
          htagged.symm⟩
      · rintro ⟨d, hd, rfl⟩
        have hkind : d.kind = new.kind :=
          of_decide_eq_true (List.mem_filter.mp (List.mem_of_mem_take hd)).2
        exact ⟨(h.mem_iff d).mpr ((kept_iff_of_kind hkind.symm).mpr hd), hkind⟩
    · exact (h.nodup.of_map Prod.fst).filter _
    · apply List.Nodup.map fun _ _ heq => congrArg Prod.snd heq
      exact (hnodup.filter _).sublist (List.take_sublist _ _)
  rw [List.filter_append, List.length_append, hperm.length_eq, List.length_map]
  simp [entryOf]

theorem Reflects.room (h : Reflects casefold b t)
    (hkey : rankedKey casefold new ∉ b.candidates.map Prod.fst)
    (hroom : ((t.filter fun d => d.kind = new.kind).take b.maxObligations).length + 1 ≤
      b.maxObligations) :
    entryOf casefold c ∈ b.candidates ++ [entryOf casefold new] ↔
      Kept b.maxObligations (touch (rankedKey casefold) new t) c := by
  rw [h.mem_insert_iff]
  by_cases hkind : new.kind = c.kind
  · have hfresh := h.front_fresh hkey
    generalize hm : (t.filter fun d => d.kind = new.kind) = m at hroom hfresh
    have hshort : m.length ≤ b.maxObligations := by
      rw [List.length_take] at hroom
      omega
    rw [List.take_of_length_le hshort] at hroom hfresh
    rw [kept_touch_of_eq hkind, kept_iff_of_kind hkind, hm, touch, filter_ne_eq_self hfresh,
      List.take_of_length_le hshort, List.take_of_length_le (by rw [List.length_cons]; exact hroom),
      List.mem_cons, or_comm]
  · rw [kept_touch_of_ne hkind, or_iff_left]
    intro heq
    exact hkind (congrArg Ranked.kind heq.symm)

theorem Reflects.worst_eq (h : Reflects casefold b t) (hrecent : Recent casefold t order)
    (hnew : order < new.lastSeenOrder) {m : List Ranked}
    (hm : (t.filter fun d => d.kind = new.kind) = m) {n : Nat} (hn : b.maxObligations = n + 1)
    (hlong : n < m.length) {worst : Key × Ranked}
    (hworst : worst ∈ (b.candidates ++ [entryOf casefold new]).filter fun entry =>
      entry.2.kind = new.kind)
    (hleast : ∀ entry ∈ (b.candidates ++ [entryOf casefold new]).filter fun entry =>
      entry.2.kind = new.kind, worst.2.lastSeenOrder ≤ entry.2.lastSeenOrder) :
    worst = entryOf casefold m[n] := by
  have hsplit : m.take (n + 1) = m.take n ++ [m[n]] := (List.take_append_getElem hlong).symm
  have hkinds : ∀ d ∈ m, d ∈ t ∧ d.kind = new.kind := by
    intro d hd
    rw [← hm] at hd
    exact ⟨List.mem_of_mem_filter hd, of_decide_eq_true (List.mem_filter.mp hd).2⟩
  have hkept : ∀ d ∈ m, (Kept b.maxObligations t d ↔ d ∈ m.take n ∨ d = m[n]) := by
    intro d hd
    rw [kept_iff_of_kind (hkinds d hd).2.symm, hm, hn, hsplit, List.mem_append, List.mem_singleton]
  have hlastIn := List.getElem_mem hlong
  have hlastMem : entryOf casefold m[n] ∈
      (b.candidates ++ [entryOf casefold new]).filter fun entry => entry.2.kind = new.kind := by
    apply List.mem_filter.mpr
    refine ⟨h.mem_insert_iff.mpr (.inl ?_), decide_eq_true (hkinds _ hlastIn).2⟩
    exact (hkept _ hlastIn).mpr (.inr rfl)
  have hle : worst.2.lastSeenOrder ≤ m[n].lastSeenOrder := hleast _ hlastMem
  have hbound := hrecent.bounded _ (hkinds _ hlastIn).1
  obtain ⟨hgrown, hworstKind⟩ := List.mem_filter.mp hworst
  have htagged : worst = entryOf casefold worst.2 := by
    obtain hin | heq := List.mem_append.mp hgrown
    · exact h.entries worst hin
    · rw [List.mem_singleton.mp heq]
      rfl
  rw [htagged] at hgrown
  obtain hworstKept | heq := h.mem_insert_iff.mp hgrown
  · have hworstIn : worst.2 ∈ m := by
      rw [← hm]
      exact List.mem_filter.mpr ⟨hworstKept.mem, hworstKind⟩
    obtain hearlier | heq := (hkept _ hworstIn).mp hworstKept
    · have horders := hrecent.orders.filter fun d => d.kind = new.kind
      rw [hm, ← List.take_append_drop n m, List.pairwise_append] at horders
      have hless := horders.2.2 _ hearlier m[n] (by
        rw [List.drop_eq_getElem_cons hlong]
        exact List.mem_cons_self)
      omega
    · rw [htagged, heq]
  · rw [heq] at hle
    omega

theorem Reflects.evicted (h : Reflects casefold b t) (hrecent : Recent casefold t order)
    (hlimit : 0 < b.maxObligations) (hnew : order < new.lastSeenOrder)
    (hkey : rankedKey casefold new ∉ b.candidates.map Prod.fst)
    (hfull : ¬ ((t.filter fun d => d.kind = new.kind).take b.maxObligations).length + 1 ≤
      b.maxObligations) {worst : Key × Ranked}
    (hworst : worst ∈ (b.candidates ++ [entryOf casefold new]).filter fun entry =>
      entry.2.kind = new.kind)
    (hleast : ∀ entry ∈ (b.candidates ++ [entryOf casefold new]).filter fun entry =>
      entry.2.kind = new.kind, worst.2.lastSeenOrder ≤ entry.2.lastSeenOrder) :
    (entryOf casefold c ∈ b.candidates ++ [entryOf casefold new] ∧ rankedKey casefold c ≠ worst.1) ↔
      Kept b.maxObligations (touch (rankedKey casefold) new t) c := by
  obtain ⟨n, hn⟩ := Nat.exists_eq_add_one_of_ne_zero (Nat.ne_of_gt hlimit)
  have hfresh := h.front_fresh hkey
  have hkeys : ((t.filter fun d => d.kind = new.kind).map (rankedKey casefold)).Nodup :=
    hrecent.keys.sublist (List.filter_sublist.map _)
  generalize hm : (t.filter fun d => d.kind = new.kind) = m at hfresh hkeys hfull
  rw [hn, List.length_take] at hfull
  have hlong : n < m.length := by omega
  have hsplit : m.take (n + 1) = m.take n ++ [m[n]] := (List.take_append_getElem hlong).symm
  have hkinds : ∀ d ∈ m, d.kind = new.kind := by
    intro d hd
    rw [← hm] at hd
    exact of_decide_eq_true (List.mem_filter.mp hd).2
  have hlastKind := hkinds _ (List.getElem_mem hlong)
  rw [hn, hsplit, List.map_append, List.mem_append, not_or] at hfresh
  rw [h.worst_eq hrecent hnew hm hn hlong hworst hleast, h.mem_insert_iff]
  by_cases hkind : new.kind = c.kind
  · have hlastKey : rankedKey casefold m[n] ∉ (m.take n).map (rankedKey casefold) := by
      rw [← List.take_append_drop n m, List.map_append, List.nodup_append] at hkeys
      intro hmem
      refine hkeys.2.2 _ hmem (rankedKey casefold m[n]) ?_ rfl
      rw [List.drop_eq_getElem_cons hlong, List.map_cons]
      exact List.mem_cons_self
    rw [kept_touch_of_eq hkind, kept_iff_of_kind hkind, hm, hn, take_touch_of_notMem hfresh.1,
      List.mem_cons, hsplit, List.mem_append, List.mem_singleton]
    constructor
    · rintro ⟨(hfront | heq) | heq, hne⟩
      · exact .inr hfront
      · exact absurd (congrArg (rankedKey casefold) heq) hne
      · exact .inl heq
    · rintro (heq | hfront)
      · refine ⟨.inr heq, fun hsame => hfresh.2 ?_⟩
        rw [← heq]
        exact List.mem_singleton.mpr hsame
      · refine ⟨.inl (.inl hfront), fun hsame => hlastKey ?_⟩
        exact List.mem_map.mpr ⟨c, hfront, hsame⟩
  · rw [kept_touch_of_ne hkind]
    constructor
    · rintro ⟨hkept | heq, -⟩
      · exact hkept
      · exact absurd (congrArg Ranked.kind heq.symm) hkind
    · intro hkept
      refine ⟨.inl hkept, fun hsame => hkind ?_⟩
      exact hlastKind.symm.trans (kind_of_rankedKey hsame).symm

theorem Reflects.add (h : Reflects casefold b t) (hrecent : Recent casefold t b.nextSeenOrder)
    (hlimit : 0 < b.maxObligations) (o : Obligation) :
    Reflects casefold (b.add casefold (keyOf casefold o) o)
      (touch (rankedKey casefold) ⟨o, b.nextSeenOrder + 1⟩ t) := by
  let new : Ranked := ⟨o, b.nextSeenOrder + 1⟩
  have hentry : (keyOf casefold o, new) = entryOf casefold new := rfl
  have hentries : ∀ entry ∈ Keyed.assign Prod.fst (entryOf casefold new) b.candidates,
      entry = entryOf casefold entry.2 := by
    intro entry hin
    obtain heq | hold := Keyed.mem_of_mem_assign hin
    · rw [heq]
      rfl
    · exact h.entries entry hold
  rw [Buffer.add, if_neg (Nat.ne_of_gt hlimit)]
  simp only [show (⟨o, b.nextSeenOrder + 1⟩ : Ranked) = new from rfl, hentry]
  by_cases hkey : keyOf casefold o ∈ b.candidates.map Prod.fst
  · rw [if_pos hkey]
    refine ⟨hentries, ?_, fun c => h.replaced hrecent.keys hkey⟩
    rw [Keyed.map_key_assign_of_mem hkey]
    exact h.nodup
  · have hgrown := @assign_new casefold b new hkey
    have hnodup : ((b.candidates ++ [entryOf casefold new]).map Prod.fst).Nodup := by
      rw [List.map_append, List.nodup_append]
      refine ⟨h.nodup, List.nodup_singleton _, fun k hk k' hk' heq => hkey ?_⟩
      rw [heq, List.mem_singleton.mp hk'] at hk
      exact hk
    have hlength := @Reflects.length_sameKind casefold b t new h hrecent.nodup
    rw [hgrown] at hentries ⊢
    rw [if_neg hkey]
    split_ifs with hroom
    · refine ⟨hentries, hnodup, fun c => h.room hkey ?_⟩
      rw [← hlength]
      exact hroom
    · have hne : ((b.candidates ++ [entryOf casefold new]).filter fun entry =>
          entry.2.kind = o.kind) ≠ [] := by
        intro hnil
        rw [hnil] at hroom
        exact hroom (Nat.zero_le _)
      obtain ⟨worst, hlast, hworst, hleast⟩ := @lastRanked_spec casefold _ o.kind hne
        fun entry hin => of_decide_eq_true (List.mem_filter.mp hin).2
      rw [hlast]
      have hfull : ¬ ((t.filter fun d => d.kind = new.kind).take b.maxObligations).length + 1 ≤
          b.maxObligations := by
        rw [← hlength]
        exact hroom
      refine ⟨fun entry hin => hentries entry (List.mem_of_mem_filter hin),
        hnodup.sublist (List.filter_sublist.map _), fun c => ?_⟩
      have hevicted := @Reflects.evicted casefold b t c new _ h hrecent hlimit (Nat.lt_succ_self _) hkey
        hfull worst hworst hleast
      rw [← hevicted, List.mem_filter, decide_eq_true_eq]
      rfl

end

/-! ### A whole run -/

section

variable {casefold : Str → Str} {maxObligations : Int} {adds : List Obligation}

theorem table_concat (adds : List Obligation) (o : Obligation) :
    table casefold (adds ++ [o]) =
      touch (rankedKey casefold) ⟨o, adds.length + 1⟩ (table casefold adds) := by
  rw [table, List.mapIdx_concat, List.foldl_concat, table]

theorem collect_concat (adds : List Obligation) (o : Obligation) :
    collect casefold maxObligations (adds ++ [o]) =
      (collect casefold maxObligations adds).add casefold (keyOf casefold o) o := by
  rw [collect, List.foldl_concat, collect]

theorem add_fields (b : Buffer) (key : Key) (o : Obligation) :
    (b.add casefold key o).maxObligations = b.maxObligations ∧
      (b.add casefold key o).nextSeenOrder = b.nextSeenOrder + 1 := by
  unfold Buffer.add
  dsimp only
  split_ifs
  · exact ⟨rfl, rfl⟩
  · exact ⟨rfl, rfl⟩
  · exact ⟨rfl, rfl⟩
  · cases lastRanked casefold _ with
    | none => exact ⟨rfl, rfl⟩
    | some evicted => exact ⟨rfl, rfl⟩

theorem collect_fields (maxObligations : Int) (adds : List Obligation) :
    (collect casefold maxObligations adds).maxObligations = maxObligations.toNat ∧
      (collect casefold maxObligations adds).nextSeenOrder = adds.length := by
  induction adds using List.reverseRecOn with
  | nil => exact ⟨rfl, rfl⟩
  | append_singleton adds o ih =>
      rw [collect_concat, (add_fields _ _ _).1, (add_fields _ _ _).2, ih.1, ih.2,
        List.length_append]
      exact ⟨rfl, rfl⟩

theorem recent_table (adds : List Obligation) : Recent casefold (table casefold adds) adds.length := by
  induction adds using List.reverseRecOn with
  | nil => exact ⟨List.nodup_nil, List.Pairwise.nil, fun c hc => absurd hc List.not_mem_nil⟩
  | append_singleton adds o ih =>
      rw [table_concat, List.length_append]
      exact ih.touch o

theorem reflects_collect (hlimit : 0 < maxObligations.toNat) (adds : List Obligation) :
    Reflects casefold (collect casefold maxObligations adds) (table casefold adds) := by
  induction adds using List.reverseRecOn with
  | nil => exact ⟨fun c hc => absurd hc List.not_mem_nil, List.nodup_nil, fun c => by
      simp [collect, Buffer.empty, table, Kept]⟩
  | append_singleton adds o ih =>
      have hfields := @collect_fields casefold maxObligations adds
      have hrecent := @recent_table casefold adds
      rw [← hfields.2] at hrecent
      rw [collect_concat, table_concat, ← hfields.2]
      exact ih.add hrecent (by rw [hfields.1]; exact hlimit) o

theorem collect_perm (hlimit : 0 < maxObligations.toNat) (adds : List Obligation) :
    ((collect casefold maxObligations adds).candidates.map Prod.snd).Perm
      ((table casefold adds).filter fun c => Kept maxObligations.toNat (table casefold adds) c) := by
  have h := @reflects_collect casefold maxObligations hlimit adds
  have hsnd : ∀ entry ∈ (collect casefold maxObligations adds).candidates,
      entry = entryOf casefold entry.2 := h.entries
  apply (List.perm_ext_iff_of_nodup _ ((recent_table adds).nodup.filter _)).mpr
  · intro c
    rw [List.mem_filter, decide_eq_true_eq, ← (collect_fields maxObligations adds).1, ← h.mem_iff c,
      List.mem_map]
    constructor
    · rintro ⟨entry, hentry, rfl⟩
      rw [hsnd entry hentry] at hentry
      exact ⟨((h.mem_iff _).mp hentry).mem, hentry⟩
    · rintro ⟨-, hentry⟩
      exact ⟨_, hentry, rfl⟩
  · have hkeys := h.nodup
    apply List.Nodup.map_on _ (hkeys.of_map Prod.fst)
    intro entry hentry entry' hentry' hsame
    rw [hsnd entry hentry, hsnd entry' hentry', hsame]

/-! ### The selected obligations -/

theorem filter_kind_sortedByRank {t : List Ranked} {order : Nat} (h : Recent casefold t order)
    (kind : Str) :
    ((sortedByRank casefold t).filter fun c => c.kind = kind) = t.filter fun c => c.kind = kind := by
  have hdistinct := h.ordersDistinct
  symm
  apply eq_of_sorted
  · exact fun a ha b hb => hdistinct a (List.mem_of_mem_filter ha) b (List.mem_of_mem_filter hb)
  · refine (h.orders.filter _).imp_of_mem ?_
    intro a b ha hb hless
    have hkinds : a.kind = b.kind := (of_decide_eq_true (List.mem_filter.mp ha).2).trans
      (of_decide_eq_true (List.mem_filter.mp hb).2).symm
    exact .inr ⟨congrArg priority hkinds, Nat.le_of_lt hless⟩
  · exact (pairwise_sortedByRank hdistinct).filter _
  · exact perm_sortedByRank.symm.filter _

theorem kept_sortedByRank {t : List Ranked} {order : Nat} (h : Recent casefold t order) (limit : Nat)
    (c : Ranked) : Kept limit (sortedByRank casefold t) c ↔ Kept limit t c := by
  rw [Kept, filter_kind_sortedByRank h, Kept]

theorem selection_zero (l : List Ranked) : selection casefold 0 l = [] := by
  have hfold : ∀ tried : List Ranked, tried.foldl (select casefold 0) [] = [] := by
    intro tried
    induction tried with
    | nil => rfl
    | cons c rest ih => exact ih
  rw [selection, hfold]
  rfl

theorem values_eq_selection (maxObligations : Int) (adds : List Obligation) :
    (collect casefold maxObligations adds).values casefold =
      selection casefold maxObligations.toNat (table casefold adds) := by
  rw [Buffer.values, (collect_fields maxObligations adds).1]
  by_cases hlimit : 0 < maxObligations.toNat
  · have hrecent := @recent_table casefold adds
    have hperm := @collect_perm casefold maxObligations hlimit adds
    have hfiltered := hrecent.ordersDistinct
    have hkeysKept : KeysDistinct casefold ((table casefold adds).filter fun c =>
        Kept maxObligations.toNat (table casefold adds) c) :=
      hrecent.keys.sublist (List.filter_sublist.map _)
    have hdistinct : OrdersDistinct ((table casefold adds).filter fun c =>
        Kept maxObligations.toNat (table casefold adds) c) := fun a ha b hb =>
      hfiltered a (List.mem_of_mem_filter ha) b (List.mem_of_mem_filter hb)
    have hsorted : sortedByRank casefold ((collect casefold maxObligations adds).candidates.map
        Prod.snd) = (sortedByRank casefold (table casefold adds)).filter fun c =>
          Kept maxObligations.toNat (sortedByRank casefold (table casefold adds)) c := by
      rw [← sortedByRank_perm hdistinct hperm.symm, sortedByRank_filter hfiltered]
      apply List.filter_congr
      intro c _
      rw [decide_eq_decide, kept_sortedByRank hrecent]
    have hkeys : KeysDistinct casefold ((collect casefold maxObligations adds).candidates.map
        Prod.snd) := (hperm.map _).nodup_iff.mpr hkeysKept
    rw [selection_eq hkeys, selection_eq hrecent.keys, hsorted, picks_filter_kept _ hlimit]
    exact perm_sortedByRank.nodup_iff.mpr hrecent.nodup
  · rw [Nat.eq_zero_of_not_pos hlimit, selection_zero, selection_zero]

theorem picks_subset (limit : Nat) (l : List Ranked) : picks limit l ⊆ l := by
  intro c hc
  obtain hnil | htried := mem_of_mem_foldl_pick hc
  · cases hnil
  · exact selectionOrder_subset l htried

theorem length_selection_le {t : List Ranked} (hkeys : KeysDistinct casefold t) (limit : Nat) :
    (selection casefold limit t).length ≤ limit := by
  rw [selection_eq hkeys, List.length_map, perm_sortedByRank.length_eq]
  exact length_foldl_pick_le (Nat.zero_le limit)

theorem nodup_selection {t : List Ranked} (hkeys : KeysDistinct casefold t) (limit : Nat) :
    ((selection casefold limit t).map (keyOf casefold)).Nodup := by
  have hsorted : KeysDistinct casefold (sortedByRank casefold t) :=
    (perm_sortedByRank.map _).nodup_iff.mpr hkeys
  rw [selection_eq hkeys, List.map_map]
  apply (perm_sortedByRank.map _).nodup_iff.mpr
  apply List.Nodup.map_on _ (nodup_foldl_pick List.nodup_nil)
  intro a ha b hb hsame
  exact hsorted.eq (picks_subset limit _ ha) (picks_subset limit _ hb) hsame

theorem head_filter_table (before after : List Obligation) (o : Obligation)
    (hafter : ∀ o' ∈ after, o'.kind ≠ o.kind) :
    ((table casefold (before ++ o :: after)).filter fun c => c.kind = o.kind).head? =
      some ⟨o, before.length + 1⟩ := by
  induction after using List.reverseRecOn with
  | nil =>
      have hkind : Ranked.kind ⟨o, before.length + 1⟩ = o.kind := rfl
      rw [table_concat, filter_touch_kind, if_pos hkind]
      rfl
  | append_singleton after o' ih =>
      have hne : o'.kind ≠ o.kind := hafter o' (List.mem_append_right _ (List.mem_singleton_self o'))
      rw [← List.cons_append, ← List.append_assoc, table_concat, filter_touch_kind, if_neg]
      · exact ih fun d hd => hafter d (List.mem_append_left _ hd)
      · exact hne

theorem mem_picks_of_reserved {limit : Nat} (hlimit : 2 ≤ limit) {l : List Ranked} {c : Ranked}
    {kind : Str} (hkind : kind ∈ [userGoal, userConstraint]) (hfirst : firstOfKind l kind = some c) :
    c ∈ picks limit l := by
  have hreserved : c ∈ [userGoal, userConstraint].filterMap (firstOfKind l) :=
    List.mem_filterMap.mpr ⟨kind, hkind, hfirst⟩
  have hlength : ([userGoal, userConstraint].filterMap (firstOfKind l)).length ≤ 2 :=
    List.length_filterMap_le _ _
  rw [picks, selectionOrder, List.foldl_append, List.foldl_append, List.foldl_append]
  apply prefix_foldl_pick.subset
  apply prefix_foldl_pick.subset
  apply prefix_foldl_pick.subset
  apply mem_foldl_pick_of_room _ c hreserved
  rw [List.length_nil, Nat.zero_add]
  exact Nat.le_trans hlength hlimit

theorem mem_selection_of_reserved {limit : Nat} (hlimit : 2 ≤ limit) {before after : List Obligation}
    {o : Obligation} (hkind : o.kind ∈ [userGoal, userConstraint])
    (hafter : ∀ o' ∈ after, o'.kind ≠ o.kind) :
    o ∈ selection casefold limit (table casefold (before ++ o :: after)) := by
  have hrecent := @recent_table casefold (before ++ o :: after)
  have hfirst : firstOfKind (sortedByRank casefold (table casefold (before ++ o :: after))) o.kind =
      some ⟨o, before.length + 1⟩ := by
    rw [firstOfKind_eq, filter_kind_sortedByRank hrecent, head_filter_table before after o hafter]
  rw [selection_eq hrecent.keys]
  have hpicked := mem_picks_of_reserved hlimit hkind hfirst
  exact List.mem_map.mpr ⟨_, mem_sortedByRank.mpr hpicked, rfl⟩

/-- Forgetting the candidates of an over-full kind never changes what is selected; that is so many
obligations at most, one for each key, and the last goal and the last constraint are among them. -/
theorem bounded_buffer_refines_table (casefold : Str → Str) (maxObligations : Int)
    (adds : List Obligation) :
    (collect casefold maxObligations adds).values casefold =
        selection casefold maxObligations.toNat (table casefold adds) ∧
      ((collect casefold maxObligations adds).values casefold).length ≤ maxObligations.toNat ∧
      (((collect casefold maxObligations adds).values casefold).map (keyOf casefold)).Nodup ∧
      (2 ≤ maxObligations → ∀ before o after, adds = before ++ o :: after →
        o.kind ∈ [userGoal, userConstraint] → (∀ o' ∈ after, o'.kind ≠ o.kind) →
          o ∈ (collect casefold maxObligations adds).values casefold) := by
  have hkeys := (@recent_table casefold adds).keys
  have hvalues := @values_eq_selection casefold maxObligations adds
  refine ⟨hvalues, ?_, ?_, ?_⟩
  · rw [hvalues]
    exact length_selection_le hkeys _
  · rw [hvalues]
    exact nodup_selection hkeys _
  · intro hlimit before o after hadds hkind hafter
    rw [hvalues, hadds]
    exact mem_selection_of_reserved (by omega) hkind hafter

end

end OpenStarry.Checkpoint
