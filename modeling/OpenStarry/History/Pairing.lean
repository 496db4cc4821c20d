import Mathlib.Data.List.TakeWhile
import OpenStarry.History.Repair

/-!
# What the repaired list looks like

A call stands at the head of the messages that answer it. The repair decides on the positions of
the given list which calls are answered, and which messages answer one; read from left to right it
only has to know how many of the next messages are claimed by a call before them.
-/

namespace OpenStarry.History

variable {α : Type}

/-! ### Several results for one id in a message -/

def lastOf (l : List (Block α × Nat)) (id : String) : Option Nat :=
  ((l.filter fun p => p.1.resultId = some id).getLast?).map Prod.snd

def isLastOf (l : List (Block α × Nat)) (p : Block α × Nat) : Bool :=
  match p.1.resultId with
  | none => true
  | some id => lastOf l id = some p.2

theorem isLast_eq (blocks : List (Block α)) : isLast blocks = isLastOf blocks.zipIdx := rfl

def pairIds (l : List (Block α × Nat)) : List String := l.filterMap fun p => p.1.resultId

theorem map_fst_resultIds (l : List (Block α × Nat)) :
    (l.map Prod.fst).filterMap Block.resultId = pairIds l := by
  rw [List.filterMap_map]
  rfl

theorem pairIds_zipIdx (blocks : List (Block α)) :
    pairIds blocks.zipIdx = blocks.filterMap Block.resultId := by
  rw [← map_fst_resultIds, List.zipIdx_map_fst]

theorem mem_pairIds {l : List (Block α × Nat)} {id : String} :
    id ∈ pairIds l ↔ ∃ p ∈ l, p.1.resultId = some id := List.mem_filterMap

theorem lastOf_cons_of_mem {l : List (Block α × Nat)} {x : Block α × Nat} {id : String}
    (hid : id ∈ pairIds l) : lastOf (x :: l) id = lastOf l id := by
  obtain ⟨p, hp, hpid⟩ := mem_pairIds.mp hid
  have hne : (l.filter fun p => p.1.resultId = some id) ≠ [] :=
    List.ne_nil_of_mem (List.mem_filter.mpr ⟨hp, by simpa using hpid⟩)
  unfold lastOf
  rw [List.filter_cons]
  split
  · rw [List.getLast?_cons_of_ne_nil hne]
  · rfl

theorem lastOf_cons_of_notMem {l : List (Block α × Nat)} {x : Block α × Nat} {id : String}
    (hid : id ∉ pairIds l) (hx : x.1.resultId = some id) : lastOf (x :: l) id = some x.2 := by
  have hnil : (l.filter fun p => p.1.resultId = some id) = [] := by
    rw [List.filter_eq_nil_iff]
    intro p hp hpid
    exact hid (mem_pairIds.mpr ⟨p, hp, by simpa using hpid⟩)
  unfold lastOf
  rw [List.filter_cons_of_pos (by simpa using hx), hnil]
  rfl

theorem mem_of_lastOf {l : List (Block α × Nat)} {id : String} {i : Nat}
    (hlast : lastOf l id = some i) : i ∈ l.map Prod.snd := by
  obtain ⟨p, hp, hpi⟩ := Option.map_eq_some_iff.mp hlast
  exact List.mem_map.mpr ⟨p, (List.mem_filter.mp (List.mem_of_getLast? hp)).1, hpi⟩

theorem filter_isLastOf_cons (l : List (Block α × Nat)) (x : Block α × Nat) :
    l.filter (isLastOf (x :: l)) = l.filter (isLastOf l) := by
  apply List.filter_congr
  intro p hp
  unfold isLastOf
  cases hid : p.1.resultId with
  | none => rfl
  | some id => simp only [lastOf_cons_of_mem (mem_pairIds.mpr ⟨p, hp, hid⟩)]

theorem isLastOf_cons_self {l : List (Block α × Nat)} {x : Block α × Nat} {id : String}
    (hx : x.1.resultId = some id) (hfresh : x.2 ∉ l.map Prod.snd) :
    isLastOf (x :: l) x = true ↔ id ∉ pairIds l := by
  unfold isLastOf
  simp only [hx, decide_eq_true_eq]
  constructor
  · intro hlast hid
    rw [lastOf_cons_of_mem hid] at hlast
    exact hfresh (mem_of_lastOf hlast)
  · intro hid
    exact lastOf_cons_of_notMem hid hx

theorem pairIds_cons_none {l : List (Block α × Nat)} {x : Block α × Nat}
    (hx : x.1.resultId = none) : pairIds (x :: l) = pairIds l := List.filterMap_cons_none hx

theorem pairIds_cons_some {l : List (Block α × Nat)} {x : Block α × Nat} {id : String}
    (hx : x.1.resultId = some id) : pairIds (x :: l) = id :: pairIds l :=
  List.filterMap_cons_some hx

theorem pairIds_filter_isLastOf (l : List (Block α × Nat)) (hindices : (l.map Prod.snd).Nodup) :
    (pairIds (l.filter (isLastOf l))).Nodup ∧
      ∀ id, id ∈ pairIds (l.filter (isLastOf l)) ↔ id ∈ pairIds l := by
  induction l with
  | nil => exact ⟨List.nodup_nil, fun id => Iff.rfl⟩
  | cons x l ih =>
      rw [List.map_cons, List.nodup_cons] at hindices
      obtain ⟨ihNodup, ihMem⟩ := ih hindices.2
      cases hx : x.1.resultId with
      | none =>
          have hkept : isLastOf (x :: l) x = true := by simp [isLastOf, hx]
          rw [List.filter_cons_of_pos hkept, filter_isLastOf_cons, pairIds_cons_none hx,
            pairIds_cons_none hx]
          exact ⟨ihNodup, ihMem⟩
      | some id =>
          have hself := isLastOf_cons_self hx hindices.1
          rw [pairIds_cons_some hx]
          by_cases hid : id ∈ pairIds l
          · have hdropped : ¬ isLastOf (x :: l) x = true := fun hlast => hself.mp hlast hid
            rw [List.filter_cons_of_neg hdropped, filter_isLastOf_cons]
            refine ⟨ihNodup, fun id' => ?_⟩
            rw [ihMem, List.mem_cons]
            exact ⟨Or.inr, fun h => h.elim (fun heq => heq ▸ hid) (fun h => h)⟩
          · rw [List.filter_cons_of_pos (hself.mpr hid), filter_isLastOf_cons,
              pairIds_cons_some hx, List.nodup_cons, ihMem]
            refine ⟨⟨hid, ihNodup⟩, fun id' => ?_⟩
            rw [List.mem_cons, List.mem_cons, ihMem]

/-! ### A tidied message -/

theorem tidy_eq_self {m : Message α} (hm : m.content.resultIds.Nodup) : tidy m = (m, false) := by
  have hunchanged : (dedupeToolResultBlocks m.content).2 = false := by
    cases hcontent : m.content with
    | text s => rfl
    | blocks bs =>
        rw [hcontent] at hm
        have hcard : (bs.filterMap Block.resultId).length =
            (bs.filterMap Block.resultId).toFinset.card := (List.toFinset_card_of_nodup hm).symm
        rw [dedupeToolResultBlocks, if_pos hcard]
  unfold tidy
  simp only [hunchanged, Bool.false_eq_true, if_false, ite_self]

theorem tidy_cases (m : Message α) :
    (m.content.resultIds.Nodup ∧ tidy m = (m, false)) ∨
      ∃ bs, m.content = .blocks bs ∧ (tidy m).1.role = m.role ∧
        (tidy m).1.content = .blocks ((bs.zipIdx.filter (isLastOf bs.zipIdx)).map Prod.fst) := by
  by_cases hnodup : m.content.resultIds.Nodup
  · exact Or.inl ⟨hnodup, tidy_eq_self hnodup⟩
  · refine Or.inr ?_
    cases hcontent : m.content with
    | text s => simp [hcontent, Content.resultIds, Content.list] at hnodup
    | blocks bs =>
        refine ⟨bs, rfl, ?_⟩
        rw [hcontent] at hnodup
        have hcard : (bs.filterMap Block.resultId).length
            ≠ (bs.filterMap Block.resultId).toFinset.card := fun heq =>
          hnodup (Multiset.coe_nodup.mp (Multiset.toFinset_card_eq_card_iff_nodup.mp heq.symm))
        have hresults : m.results ≠ ∅ := by
          intro hempty
          apply hnodup
          rw [Message.results, extractToolResultIds, List.toFinset_eq_empty_iff, hcontent] at hempty
          rw [hempty]
          exact List.nodup_nil
        unfold tidy
        rw [if_neg hresults, hcontent]
        simp only [dedupeToolResultBlocks, if_neg hcard, isLast_eq]
        split_ifs with hdropped
        · exact ⟨rfl, rfl⟩
        · -- Nothing was left out: this does not happen, and would change nothing.
          have hall : ∀ p ∈ bs.zipIdx, isLastOf bs.zipIdx p = true := by
            simpa using hdropped
          rw [List.filter_eq_self.mpr hall, List.zipIdx_map_fst]
          exact ⟨rfl, hcontent⟩

theorem useId_of_not_isLastOf {l : List (Block α × Nat)} {p : Block α × Nat}
    (hp : ¬ isLastOf l p = true) : p.1.useId = none := by
  cases hblock : p.1 with
  | toolResult id content isError => rfl
  | _ => simp [isLastOf, hblock, Block.resultId] at hp

theorem useIds_filter_isLastOf (l : List (Block α × Nat)) :
    ((l.filter (isLastOf l)).map Prod.fst).filterMap Block.useId =
      (l.map Prod.fst).filterMap Block.useId := by
  rw [List.filterMap_map, List.filterMap_map, List.filterMap_filter]
  apply List.filterMap_congr
  intro p hp
  split_ifs with hlast
  · rfl
  · exact (useId_of_not_isLastOf hlast).symm

@[simp] theorem tidy_useIds (m : Message α) :
    (tidy m).1.content.useIds = m.content.useIds := by
  obtain ⟨-, htidy⟩ | ⟨bs, hcontent, -, htidy⟩ := tidy_cases m
  · rw [htidy]
  · rw [htidy, hcontent]
    exact (useIds_filter_isLastOf bs.zipIdx).trans (by rw [List.zipIdx_map_fst]; rfl)

@[simp] theorem tidy_uses (m : Message α) : (tidy m).1.uses = m.uses := by
  rw [Message.uses, Message.uses, extractToolUseIds, extractToolUseIds, tidy_useIds]

@[simp] theorem tidy_role (m : Message α) : (tidy m).1.role = m.role := by
  obtain ⟨-, htidy⟩ | ⟨bs, -, hrole, -⟩ := tidy_cases m
  · rw [htidy]
  · exact hrole

theorem zipIdx_map_snd_nodup (blocks : List (Block α)) : (blocks.zipIdx.map Prod.snd).Nodup := by
  rw [List.zipIdx_map_snd]
  exact List.nodup_range'

theorem tidy_resultIds_nodup (m : Message α) : (tidy m).1.content.resultIds.Nodup := by
  obtain ⟨hnodup, htidy⟩ | ⟨bs, -, -, htidy⟩ := tidy_cases m
  · rw [htidy]
    exact hnodup
  · rw [htidy, Content.resultIds, Content.list, map_fst_resultIds]
    exact (pairIds_filter_isLastOf _ (zipIdx_map_snd_nodup bs)).1

@[simp] theorem tidy_results (m : Message α) : (tidy m).1.results = m.results := by
  obtain ⟨-, htidy⟩ | ⟨bs, hcontent, -, htidy⟩ := tidy_cases m
  · rw [htidy]
  · ext id
    rw [Message.results, Message.results, extractToolResultIds, extractToolResultIds, htidy,
      hcontent, List.mem_toFinset, List.mem_toFinset, Content.resultIds, Content.resultIds,
      Content.list, Content.list, map_fst_resultIds,
      (pairIds_filter_isLastOf _ (zipIdx_map_snd_nodup bs)).2, pairIds_zipIdx]

theorem tidy_fst_of_unchanged {m : Message α} (hm : (tidy m).2 = false) : (tidy m).1 = m := by
  unfold tidy at hm ⊢
  dsimp only at hm ⊢
  split_ifs at hm ⊢
  · rfl
  · rfl

/-! ### The messages that answer a call -/

def idsOf (run : List (Message α)) : Finset String :=
  (run.flatMap fun m => m.content.resultIds).toFinset

@[simp] theorem idsOf_nil : idsOf ([] : List (Message α)) = ∅ := rfl

@[simp] theorem idsOf_cons (m : Message α) (run : List (Message α)) :
    idsOf (m :: run) = m.results ∪ idsOf run := by
  rw [idsOf, List.flatMap_cons, List.toFinset_append]
  rfl

theorem scanResults_spec {uses seen : Finset String} {rest : List (Message α)}
    (hseen : seen ≠ uses) (hscan : (scanResults uses seen rest).1 = uses) :
    (scanResults uses seen rest).2 ≤ rest.length ∧
      (∀ m ∈ rest.take (scanResults uses seen rest).2, m.results ≠ ∅) ∧
      seen ∪ idsOf (rest.take (scanResults uses seen rest).2) = uses := by
  induction rest generalizing seen with
  | nil => exact absurd hscan hseen
  | cons m rest ih =>
      unfold scanResults at hscan ⊢
      split_ifs at hscan ⊢ with hempty hsubset hall
      · exact absurd hscan hseen
      · simpa [hempty] using hall
      · obtain ⟨hlength, hresults, hids⟩ := ih hall hscan
        refine ⟨Nat.succ_le_succ hlength, ?_, ?_⟩
        · intro m' hm'
          rw [List.take_succ_cons, List.mem_cons] at hm'
          exact hm'.elim (fun heq => heq ▸ hempty) (hresults m')
        · rw [List.take_succ_cons, idsOf_cons, ← Finset.union_assoc]
          exact hids
      · exact absurd (Finset.subset_of_eq hscan) hsubset

theorem scanResults_append {uses seen : Finset String} {rest front : List (Message α)}
    (hseen : seen ≠ uses) (hscan : (scanResults uses seen rest).1 = uses)
    (hfront : front.map Message.results =
      (rest.take (scanResults uses seen rest).2).map Message.results) (after : List (Message α)) :
    scanResults uses seen (front ++ after) = (uses, front.length) := by
  induction rest generalizing seen front with
  | nil => exact absurd hscan hseen
  | cons m rest ih =>
      unfold scanResults at hscan hfront
      split_ifs at hscan hfront with hempty hsubset hall
      · exact absurd hscan hseen
      · rw [List.take_succ_cons, List.map_cons] at hfront
        obtain ⟨m', front', rfl, hm', hfront'⟩ := List.map_eq_cons_iff.mp hfront
        rw [List.cons_append, scanResults, hm', if_neg hempty, if_neg (not_not.mpr hsubset),
          if_pos hall, hall, List.map_eq_nil_iff.mp hfront']
        rfl
      · rw [List.take_succ_cons, List.map_cons] at hfront
        obtain ⟨m', front', rfl, hm', hfront'⟩ := List.map_eq_cons_iff.mp hfront
        rw [List.cons_append, scanResults, hm', if_neg hempty, if_neg (not_not.mpr hsubset),
          if_neg hall, ih hall hscan hfront']
        rfl
      · exact absurd (Finset.subset_of_eq hscan) hsubset

theorem scanResults_takeWhile {uses seen : Finset String} {rest : List (Message α)}
    (hids : seen ∪ idsOf (rest.takeWhile fun m => m.results ≠ ∅) = uses)
    (hfresh : ∀ m ∈ rest.takeWhile (fun m => m.results ≠ ∅), Disjoint seen m.results)
    (hapart : (rest.takeWhile fun m => m.results ≠ ∅).Pairwise
      fun m m' => Disjoint m.results m'.results) :
    scanResults uses seen rest = (uses, (rest.takeWhile fun m => m.results ≠ ∅).length) := by
  induction rest generalizing seen with
  | nil => simpa [scanResults] using hids
  | cons m rest ih =>
      by_cases hempty : m.results = ∅
      · rw [List.takeWhile_cons_of_neg (by simpa using hempty)] at hids ⊢
        rw [scanResults, if_pos hempty]
        simpa using hids
      · rw [List.takeWhile_cons_of_pos (by simpa using hempty)] at hids hfresh hapart ⊢
        rw [idsOf_cons, ← Finset.union_assoc] at hids
        rw [List.pairwise_cons] at hapart
        have hsubset : seen ∪ m.results ⊆ uses := hids ▸ Finset.subset_union_left
        have hrest : ∀ m' ∈ rest.takeWhile (fun m => m.results ≠ ∅),
            Disjoint (seen ∪ m.results) m'.results := fun m' hm' =>
          Finset.disjoint_union_left.mpr ⟨hfresh m' (List.mem_cons_of_mem m hm'), hapart.1 m' hm'⟩
        rw [scanResults, if_neg hempty, if_neg (not_not.mpr hsubset)]
        by_cases hall : seen ∪ m.results = uses
        · -- A further message would bring an id that is not asked for any more.
          have hnone : rest.takeWhile (fun m => m.results ≠ ∅) = [] := by
            cases htake : rest.takeWhile (fun m => m.results ≠ ∅) with
            | nil => rfl
            | cons m' more =>
                rw [htake] at hrest hids
                have hm' : m'.results ≠ ∅ := by
                  have hmem : m' ∈ rest.takeWhile (fun m => m.results ≠ ∅) :=
                    htake ▸ List.mem_cons_self
                  simpa using List.mem_takeWhile_imp hmem
                have hsub : m'.results ⊆ seen ∪ m.results := by
                  rw [hall, ← hids, idsOf_cons]
                  intro id hid
                  exact Finset.mem_union_right _ (Finset.mem_union_left _ hid)
                have hdisjoint := hrest m' List.mem_cons_self
                exact absurd (Finset.disjoint_self_iff_empty _ |>.mp
                  (hdisjoint.mono_left hsub)) hm'
          rw [if_pos hall, hall, hnone]
          rfl
        · rw [if_neg hall, ih hids hrest hapart.2]
          rfl

theorem answeredBy_eq_some {m : Message α} {rest : List (Message α)} {n : Nat} :
    answeredBy m rest = some n ↔
      m.uses ≠ ∅ ∧ m.role = .assistant ∧ scanResults m.uses ∅ rest = (m.uses, n) := by
  unfold answeredBy
  split_ifs with huses hrole
  · simp [huses]
  · simp [hrole]
  · dsimp only
    split_ifs with hall
    · rw [Option.some_inj]
      constructor
      · intro hn
        exact ⟨huses, not_not.mp hrole, Prod.ext hall hn⟩
      · intro h
        rw [h.2.2]
    · simp only [false_iff, not_and]
      intro _ _ hscan
      exact hall (by rw [hscan])

theorem answeredBy_eq_none_of_uses {m : Message α} {rest : List (Message α)} (hm : m.uses = ∅) :
    answeredBy m rest = none := by
  rw [answeredBy, if_pos hm]

theorem answeredBy_nil (m : Message α) : answeredBy m [] = none := by
  cases hanswered : answeredBy m [] with
  | none => rfl
  | some n =>
      obtain ⟨huses, -, hscan⟩ := answeredBy_eq_some.mp hanswered
      exact absurd (congrArg Prod.fst hscan).symm huses

theorem answeredBy_spec {m : Message α} {rest : List (Message α)} {n : Nat}
    (hanswered : answeredBy m rest = some n) :
    n ≤ rest.length ∧ (∀ m' ∈ rest.take n, m'.results ≠ ∅) ∧ idsOf (rest.take n) = m.uses := by
  obtain ⟨huses, -, hscan⟩ := answeredBy_eq_some.mp hanswered
  have hspec := scanResults_spec (Ne.symm huses) (congrArg Prod.fst hscan)
  rw [hscan, Finset.empty_union] at hspec
  exact hspec

theorem answeredBy_append {m m' : Message α} {rest front : List (Message α)} {n : Nat}
    (hanswered : answeredBy m rest = some n) (huses' : m'.uses = m.uses) (hrole' : m'.role = m.role)
    (hfront : front.map Message.results = (rest.take n).map Message.results)
    (after : List (Message α)) : answeredBy m' (front ++ after) = some front.length := by
  obtain ⟨huses, hrole, hscan⟩ := answeredBy_eq_some.mp hanswered
  rw [answeredBy_eq_some, huses', hrole']
  refine ⟨huses, hrole, scanResults_append (Ne.symm huses) (congrArg Prod.fst hscan) ?_ after⟩
  rw [hscan]
  exact hfront

/-! ### Positions -/

theorem answeredAt_bound {messages : List (Message α)} {i n : Nat}
    (hanswered : answeredAt messages i = some n) : i < messages.length - 1 := by
  obtain ⟨m, hm, hby⟩ := Option.bind_eq_some_iff.mp hanswered
  have hi := (List.getElem?_eq_some_iff.mp hm).1
  by_contra hlast
  rw [List.drop_eq_nil_of_le (by omega), answeredBy_nil] at hby
  exact absurd hby (by simp)

theorem mem_validToolCallIndices {messages : List (Message α)} {i : Nat} :
    i ∈ validToolCallIndices messages ↔ (answeredAt messages i).isSome := by
  rw [validToolCallIndices, Finset.mem_filter, Finset.mem_range, and_iff_right_iff_imp]
  intro hsome
  obtain ⟨n, hn⟩ := Option.isSome_iff_exists.mp hsome
  exact answeredAt_bound hn

theorem mem_validToolResultIndices {messages : List (Message α)} {k : Nat} :
    k ∈ validToolResultIndices messages ↔
      ∃ i n, answeredAt messages i = some n ∧ i < k ∧ k ≤ i + n := by
  simp only [validToolResultIndices, Finset.mem_biUnion, Finset.mem_range, Finset.mem_Ioc]
  constructor
  · rintro ⟨i, hi, hik, hki⟩
    cases hanswered : answeredAt messages i with
    | none =>
        rw [hanswered] at hki
        exact absurd hki (by simpa using hik)
    | some n =>
        rw [hanswered] at hki
        exact ⟨i, n, hanswered, hik, hki⟩
  · rintro ⟨i, n, hanswered, hik, hki⟩
    exact ⟨i, answeredAt_bound hanswered, hik, by rw [hanswered]; exact hki⟩

theorem answeredAt_append (before : List (Message α)) (m : Message α) (rest : List (Message α)) :
    answeredAt (before ++ m :: rest) before.length = answeredBy m rest := by
  have hdrop : (before ++ m :: rest).drop (before.length + 1) = rest := by
    rw [List.drop_length_add_append, List.drop_succ_cons, List.drop_zero]
  rw [answeredAt, List.getElem?_append_right le_rfl, Nat.sub_self, List.getElem?_cons_zero,
    Option.bind_some, hdrop]

/-! ### Reading from left to right -/

/-- The messages that stay, when the next `cover` messages are claimed by a call before them. -/
def survivors (cover : Nat) : List (Message α) → List (Message α)
  | [] => []
  | m :: rest =>
      if (m.uses = ∅ ∨ (answeredBy m rest).isSome) ∧ (m.results = ∅ ∨ 0 < cover) then
        m :: survivors (max (cover - 1) ((answeredBy m rest).getD 0)) rest
      else survivors (max (cover - 1) ((answeredBy m rest).getD 0)) rest

/-- `cover` of the messages from position `i` on are claimed by a call before them. -/
def Covers (messages : List (Message α)) (i cover : Nat) : Prop :=
  ∀ k, i ≤ k → ((∃ j n, answeredAt messages j = some n ∧ j < i ∧ k ≤ j + n) ↔ k < i + cover)

theorem covers_zero (messages : List (Message α)) : Covers messages 0 0 := by
  intro k _
  constructor
  · rintro ⟨j, n, -, hj, -⟩
    exact absurd hj (Nat.not_lt_zero j)
  · intro hk
    omega

theorem Covers.step {messages : List (Message α)} {i cover : Nat}
    (hcover : Covers messages i cover) :
    Covers messages (i + 1) (max (cover - 1) ((answeredAt messages i).getD 0)) := by
  intro k hk
  have hbefore := hcover k (by omega)
  constructor
  · rintro ⟨j, n, hanswered, hj, hkn⟩
    by_cases hji : j = i
    · subst hji
      rw [hanswered, Option.getD_some]
      omega
    · have := hbefore.mp ⟨j, n, hanswered, by omega, hkn⟩
      omega
  · intro hlt
    by_cases hold : k < i + cover
    · obtain ⟨j, n, hanswered, hj, hkn⟩ := hbefore.mpr hold
      exact ⟨j, n, hanswered, by omega, hkn⟩
    · cases hanswered : answeredAt messages i with
      | none =>
          rw [hanswered, Option.getD_none] at hlt
          omega
      | some n =>
          rw [hanswered, Option.getD_some] at hlt
          exact ⟨i, n, hanswered, by omega, by omega⟩

theorem covers_iff_valid {messages : List (Message α)} {i cover : Nat}
    (hcover : Covers messages i cover) : i ∈ validToolResultIndices messages ↔ 0 < cover := by
  rw [mem_validToolResultIndices, hcover i le_rfl]
  omega

theorem filter_keeps_eq_survivors {messages before rest : List (Message α)} {cover : Nat}
    (hmessages : messages = before ++ rest) (hcover : Covers messages before.length cover) :
    ((rest.zipIdx before.length).filter (keeps messages)).map Prod.fst = survivors cover rest := by
  induction rest generalizing before cover with
  | nil => rfl
  | cons m rest ih =>
      have hanswered : answeredAt messages before.length = answeredBy m rest :=
        hmessages ▸ answeredAt_append before m rest
      have hkeeps : keeps messages (m, before.length) = true ↔
          (m.uses = ∅ ∨ (answeredBy m rest).isSome) ∧ (m.results = ∅ ∨ 0 < cover) := by
        unfold keeps
        rw [decide_eq_true_eq, mem_validToolCallIndices, hanswered, covers_iff_valid hcover]
      have hrest : ((rest.zipIdx (before.length + 1)).filter (keeps messages)).map Prod.fst =
          survivors (max (cover - 1) ((answeredBy m rest).getD 0)) rest := by
        have hstep := hcover.step
        rw [hanswered] at hstep
        have hlength : (before ++ [m]).length = before.length + 1 := List.length_append
        rw [← hlength] at hstep ⊢
        exact ih (by rw [hmessages, List.append_assoc, List.singleton_append]) hstep
      rw [List.zipIdx_cons, survivors]
      split_ifs with hkept
      · rw [List.filter_cons_of_pos (hkeeps.mpr hkept), List.map_cons, hrest]
      · rw [List.filter_cons_of_neg (fun h => hkept (hkeeps.mp h)), hrest]

def kept (messages : List (Message α)) : List (Message α) :=
  (messages.zipIdx.filter (keeps messages)).map Prod.fst

theorem kept_eq_survivors (messages : List (Message α)) : kept messages = survivors 0 messages :=
  @filter_keeps_eq_survivors _ messages [] messages 0 rfl (covers_zero messages)

theorem repair_messages (messages : List (Message α)) :
    (repairToolPairing messages).messages = (kept messages).map fun m => (tidy m).1 := by
  unfold repairToolPairing
  dsimp only
  split_ifs with hchanged
  · rw [kept, List.map_map]
    rfl
  · rw [Bool.or_eq_true, not_or, List.any_eq_true, List.any_eq_true] at hchanged
    have hkeeps : ∀ p ∈ messages.zipIdx, keeps messages p = true := by
      intro p hp
      by_contra hdrop
      exact hchanged.1 ⟨p, hp, by simpa using hdrop⟩
    have hall : messages.zipIdx.filter (keeps messages) = messages.zipIdx :=
      List.filter_eq_self.mpr hkeeps
    have htidy : ∀ m ∈ messages, (tidy m).1 = m := by
      intro m hm
      rw [← List.zipIdx_map_fst 0 messages] at hm
      obtain ⟨p, hp, rfl⟩ := List.mem_map.mp hm
      apply tidy_fst_of_unchanged
      by_contra htidied
      exact hchanged.2 ⟨p, by rw [hall]; exact hp, by simpa using htidied⟩
    rw [kept, hall, List.zipIdx_map_fst]
    exact ((List.map_congr_left htidy).trans (List.map_id' messages)).symm

theorem repair_eq_given {messages : List (Message α)} (hkept : kept messages = messages)
    (hnodup : ∀ m ∈ messages, m.content.resultIds.Nodup) :
    repairToolPairing messages = ⟨messages, true⟩ := by
  have hall : messages.zipIdx.filter (keeps messages) = messages.zipIdx := by
    apply List.filter_sublist.eq_of_length
    rw [← List.length_map Prod.fst, ← kept, hkept, List.length_zipIdx]
  have hkeeps : ∀ p ∈ messages.zipIdx, keeps messages p = true := List.filter_eq_self.mp hall
  have hunchanged : (messages.zipIdx.any (fun p => !keeps messages p) ||
      (messages.zipIdx.filter (keeps messages)).any fun p => (tidy p.1).2) = false := by
    rw [Bool.or_eq_false_iff, List.any_eq_false, List.any_eq_false, hall]
    refine ⟨fun p hp => by simp [hkeeps p hp], fun p hp => ?_⟩
    have hmem : p.1 ∈ messages := by
      rw [← List.zipIdx_map_fst 0 messages]
      exact List.mem_map_of_mem hp
    rw [tidy_eq_self (hnodup p.1 hmem)]
    exact Bool.false_ne_true
  unfold repairToolPairing
  simp only [hunchanged, Bool.false_eq_true, if_false]

end OpenStarry.History
