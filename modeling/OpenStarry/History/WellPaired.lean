import OpenStarry.History.Pairing

/-!
# Every call followed by its results, every result after its call

A list without messages of both kinds comes out of the repair as a row of plain messages and of
calls with their answers. Such a row is what providers ask for, and the repair leaves it as it is.
-/

namespace OpenStarry.History

variable {α : Type}

/-! ### What providers ask for -/

def runAfter (messages : List (Message α)) (i : Nat) : List (Message α) :=
  (messages.drop (i + 1)).takeWhile fun m => m.results ≠ ∅

def IsCallAt (messages : List (Message α)) (i : Nat) : Prop :=
  ∃ m, messages[i]? = some m ∧ m.uses ≠ ∅

structure WellPaired (messages : List (Message α)) : Prop where
  call : ∀ i m, messages[i]? = some m → m.uses ≠ ∅ →
    m.role = .assistant ∧ idsOf (runAfter messages i) = m.uses
  result : ∀ k m, messages[k]? = some m → m.results ≠ ∅ →
    ∃! i, IsCallAt messages i ∧ i < k ∧ k ≤ i + (runAfter messages i).length

def NoRepeatedResult (messages : List (Message α)) : Prop :=
  ∀ i, IsCallAt messages i → ((runAfter messages i).flatMap fun m => m.content.resultIds).Nodup

def Unmixed (messages : List (Message α)) : Prop :=
  ∀ m ∈ messages, m.uses = ∅ ∨ m.results = ∅

/-! ### Rows of answered calls -/

/-- Plain messages, and calls with the messages that answer them. -/
inductive Settled : List (Message α) → Prop where
  | nil : Settled []
  | plain (m : Message α) (rest : List (Message α)) (huses : m.uses = ∅) (hresults : m.results = ∅)
      (hrest : Settled rest) : Settled (m :: rest)
  | call (m : Message α) (run rest : List (Message α)) (hresults : m.results = ∅)
      (hanswered : answeredBy m (run ++ rest) = some run.length)
      (hrun : ∀ m' ∈ run, m'.uses = ∅ ∧ m'.content.resultIds.Nodup)
      (hrest : Settled rest) : Settled (m :: (run ++ rest))

theorem survivors_run {run rest : List (Message α)} (hrun : ∀ m ∈ run, m.uses = ∅) :
    survivors run.length (run ++ rest) = run ++ survivors 0 rest := by
  induction run with
  | nil => rfl
  | cons m run ih =>
      have hm : m.uses = ∅ := hrun m List.mem_cons_self
      have hstays : (m.uses = ∅ ∨ (answeredBy m (run ++ rest)).isSome) ∧
          (m.results = ∅ ∨ 0 < (m :: run).length) := ⟨Or.inl hm, Or.inr (Nat.succ_pos _)⟩
      have hcover : max ((m :: run).length - 1) 0 = run.length := Nat.max_zero _
      rw [List.cons_append, survivors, if_pos hstays, answeredBy_eq_none_of_uses hm,
        Option.getD_none, hcover, ih fun m' hm' => hrun m' (List.mem_cons_of_mem m hm'),
        List.cons_append]

theorem survivors_cons_cases {m : Message α} {rest : List (Message α)}
    (hunmixed : Unmixed (m :: rest)) :
    (answeredBy m rest = none ∧ survivors 0 (m :: rest) = survivors 0 rest) ∨
      (m.uses = ∅ ∧ m.results = ∅ ∧ survivors 0 (m :: rest) = m :: survivors 0 rest) ∨
      ∃ run after, rest = run ++ after ∧ answeredBy m rest = some run.length ∧ m.results = ∅ ∧
        (∀ m' ∈ run, m'.uses = ∅) ∧ survivors 0 (m :: rest) = m :: (run ++ survivors 0 after) := by
  rw [survivors]
  cases hanswered : answeredBy m rest with
  | none =>
      rw [Option.getD_none, Nat.max_zero]
      split_ifs with hstays
      · have huses : m.uses = ∅ := hstays.1.resolve_right (by simp)
        exact Or.inr (Or.inl ⟨huses, hstays.2.resolve_right (lt_irrefl 0), rfl⟩)
      · exact Or.inl ⟨rfl, rfl⟩
  | some n =>
      obtain ⟨hn, hclaimed, -⟩ := answeredBy_spec hanswered
      have huses : m.uses ≠ ∅ := (answeredBy_eq_some.mp hanswered).1
      have hresults : m.results = ∅ := (hunmixed m List.mem_cons_self).resolve_left huses
      have hpure : ∀ m' ∈ rest.take n, m'.uses = ∅ := fun m' hm' =>
        (hunmixed m' (List.mem_cons_of_mem m (List.mem_of_mem_take hm'))).resolve_right
          (hclaimed m' hm')
      have hlength : (rest.take n).length = n := List.length_take_of_le hn
      have hrun := @survivors_run _ (rest.take n) (rest.drop n) hpure
      rw [hlength, List.take_append_drop] at hrun
      have hcover : max (0 - 1) n = n := Nat.zero_max n
      rw [if_pos ⟨Or.inr rfl, Or.inl hresults⟩, Option.getD_some, hcover, hrun]
      refine Or.inr (Or.inr ⟨rest.take n, rest.drop n, (List.take_append_drop n rest).symm, ?_,
        hresults, hpure, rfl⟩)
      rw [hlength]

theorem settled_survivors {messages : List (Message α)} (hunmixed : Unmixed messages) :
    Settled ((survivors 0 messages).map fun m => (tidy m).1) := by
  induction hlength : messages.length using Nat.strong_induction_on generalizing messages with
  | _ length ih =>
      cases messages with
      | nil => exact Settled.nil
      | cons m rest =>
          have hrest : ∀ rest', rest' <:+ rest →
              Settled ((survivors 0 rest').map fun m => (tidy m).1) := by
            intro rest' hsuffix
            have hle := hsuffix.length_le
            apply ih rest'.length (by rw [← hlength, List.length_cons]; omega) _ rfl
            intro m' hm'
            exact hunmixed m' (List.mem_cons_of_mem m (hsuffix.mem hm'))
          obtain ⟨-, hgone⟩ | ⟨huses, hresults, hstays⟩ |
            ⟨run, after, rfl, hanswered, hresults, hpure, hstays⟩ := survivors_cons_cases hunmixed
          · rw [hgone]
            exact hrest rest List.suffix_rfl
          · rw [hstays, List.map_cons]
            apply Settled.plain
            · rw [tidy_uses, huses]
            · rw [tidy_results, hresults]
            · exact hrest rest List.suffix_rfl
          · rw [hstays, List.map_cons, List.map_append]
            apply Settled.call
            · rw [tidy_results, hresults]
            · apply answeredBy_append hanswered (tidy_uses m) (tidy_role m)
              rw [List.take_left, List.map_map]
              exact List.map_congr_left fun m' _ => tidy_results m'
            · intro m' hm'
              obtain ⟨m₀, hm₀, rfl⟩ := List.mem_map.mp hm'
              exact ⟨by rw [tidy_uses, hpure m₀ hm₀], tidy_resultIds_nodup m₀⟩
            · exact hrest after (List.suffix_append run after)

namespace Settled

theorem head_results {messages : List (Message α)} (hsettled : Settled messages) :
    messages.takeWhile (fun m => m.results ≠ ∅) = [] := by
  cases hsettled with
  | nil => rfl
  | plain m rest _ hresults _ => rw [List.takeWhile_cons_of_neg (by simpa using hresults)]
  | call m run rest hresults _ _ _ => rw [List.takeWhile_cons_of_neg (by simpa using hresults)]

theorem survivors_eq {messages : List (Message α)} (hsettled : Settled messages) :
    survivors 0 messages = messages := by
  induction hsettled with
  | nil => rfl
  | plain m rest huses hresults _ ih =>
      rw [survivors, if_pos ⟨Or.inl huses, Or.inl hresults⟩, answeredBy_eq_none_of_uses huses,
        Option.getD_none, Nat.max_zero, ih]
  | call m run rest hresults hanswered hrun _ ih =>
      have hcover : max (0 - 1) run.length = run.length := Nat.zero_max _
      rw [survivors, hanswered, if_pos ⟨Or.inr rfl, Or.inl hresults⟩, Option.getD_some, hcover,
        survivors_run fun m' hm' => (hrun m' hm').1, ih]

theorem resultIds_nodup {messages : List (Message α)} (hsettled : Settled messages) :
    ∀ m ∈ messages, m.content.resultIds.Nodup := by
  have hnone : ∀ m : Message α, m.results = ∅ → m.content.resultIds.Nodup := by
    intro m hm
    rw [(List.toFinset_eq_empty_iff _).mp hm]
    exact List.nodup_nil
  induction hsettled with
  | nil => intro m hm; exact absurd hm List.not_mem_nil
  | plain m rest _ hresults _ ih => exact List.forall_mem_cons.mpr ⟨hnone m hresults, ih⟩
  | call m run rest hresults _ hrun _ ih =>
      rw [List.forall_mem_cons, List.forall_mem_append]
      exact ⟨hnone m hresults, fun m' hm' => (hrun m' hm').2, ih⟩

theorem repair_eq {messages : List (Message α)} (hsettled : Settled messages) :
    repairToolPairing messages = ⟨messages, true⟩ := by
  apply repair_eq_given
  · rw [kept_eq_survivors, hsettled.survivors_eq]
  · exact hsettled.resultIds_nodup

end Settled

/-! ### Positions in a list with a front -/

theorem runAfter_append (front rest : List (Message α)) (i : Nat) :
    runAfter (front ++ rest) (front.length + i) = runAfter rest i := by
  have hdrop : (front ++ rest).drop (front.length + i + 1) = rest.drop (i + 1) := by
    rw [Nat.add_assoc, List.drop_length_add_append]
  rw [runAfter, hdrop, runAfter]

theorem getElem?_front (front rest : List (Message α)) (i : Nat) :
    (front ++ rest)[front.length + i]? = rest[i]? := by
  rw [List.getElem?_append_right (Nat.le_add_right _ _), Nat.add_sub_cancel_left]

theorem isCallAt_front (front rest : List (Message α)) (i : Nat) :
    IsCallAt (front ++ rest) (front.length + i) ↔ IsCallAt rest i := by
  rw [IsCallAt, getElem?_front, IsCallAt]

theorem WellPaired.append {front rest : List (Message α)} (hrest : WellPaired rest)
    (hcall : ∀ i m, i < front.length → (front ++ rest)[i]? = some m → m.uses ≠ ∅ →
      m.role = .assistant ∧ idsOf (runAfter (front ++ rest) i) = m.uses)
    (hinside : ∀ i, i < front.length → IsCallAt (front ++ rest) i →
      i + (runAfter (front ++ rest) i).length < front.length)
    (hresult : ∀ k m, k < front.length → (front ++ rest)[k]? = some m → m.results ≠ ∅ →
      ∃! i, IsCallAt (front ++ rest) i ∧ i < k ∧ k ≤ i + (runAfter (front ++ rest) i).length) :
    WellPaired (front ++ rest) := by
  constructor
  · intro i m hm huses
    by_cases hi : i < front.length
    · exact hcall i m hi hm huses
    · obtain ⟨j, rfl⟩ := Nat.exists_eq_add_of_le (not_lt.mp hi)
      rw [getElem?_front] at hm
      rw [runAfter_append]
      exact hrest.call j m hm huses
  · intro k m hm hresults
    by_cases hk : k < front.length
    · exact hresult k m hk hm hresults
    · obtain ⟨j, rfl⟩ := Nat.exists_eq_add_of_le (not_lt.mp hk)
      rw [getElem?_front] at hm
      obtain ⟨i, ⟨hi, hij, hji⟩, hunique⟩ := hrest.result j m hm hresults
      refine ⟨front.length + i, ⟨(isCallAt_front front rest i).mpr hi, by omega, ?_⟩, ?_⟩
      · rw [runAfter_append]
        omega
      · rintro i' ⟨hi', hij', hji'⟩
        by_cases hfront : i' < front.length
        · have := hinside i' hfront hi'
          omega
        · obtain ⟨i₀, rfl⟩ := Nat.exists_eq_add_of_le (not_lt.mp hfront)
          rw [isCallAt_front] at hi'
          rw [runAfter_append] at hji'
          rw [hunique i₀ ⟨hi', by omega, by omega⟩]

theorem WellPaired.plain {m : Message α} {rest : List (Message α)} (huses : m.uses = ∅)
    (hresults : m.results = ∅) (hrest : WellPaired rest) : WellPaired (m :: rest) := by
  have hzero : ∀ i m', i < [m].length → ([m] ++ rest)[i]? = some m' → m' = m := by
    intro i m' hi hm'
    obtain rfl : i = 0 := Nat.lt_one_iff.mp hi
    exact (Option.some_inj.mp hm').symm
  apply @WellPaired.append _ [m] rest hrest
  · intro i m' hi hm' huses'
    rw [hzero i m' hi hm'] at huses'
    exact absurd huses huses'
  · intro i hi hcall
    obtain ⟨m', hm', huses'⟩ := hcall
    rw [hzero i m' hi hm'] at huses'
    exact absurd huses huses'
  · intro k m' hk hm' hresults'
    rw [hzero k m' hk hm'] at hresults'
    exact absurd hresults hresults'

theorem WellPaired.answered {m : Message α} {run rest : List (Message α)} (hresults : m.results = ∅)
    (hanswered : answeredBy m (run ++ rest) = some run.length) (hrun : ∀ m' ∈ run, m'.uses = ∅)
    (hhead : rest.takeWhile (fun m => m.results ≠ ∅) = []) (hrest : WellPaired rest) :
    WellPaired (m :: (run ++ rest)) := by
  obtain ⟨-, hclaimed, hids⟩ := answeredBy_spec hanswered
  obtain ⟨huses, hrole, -⟩ := answeredBy_eq_some.mp hanswered
  rw [List.take_left] at hclaimed hids
  have hafter : runAfter ((m :: run) ++ rest) 0 = run := by
    have htake : (run ++ rest).takeWhile (fun m => m.results ≠ ∅) =
        run ++ rest.takeWhile (fun m => m.results ≠ ∅) :=
      List.takeWhile_append_of_pos fun m' hm' => by simpa using hclaimed m' hm'
    rw [runAfter, List.cons_append, List.drop_succ_cons, List.drop_zero, htake, hhead,
      List.append_nil]
  have hzero : ((m :: run) ++ rest)[0]? = some m := rfl
  have hmember : ∀ i m', i + 1 < (m :: run).length →
      ((m :: run) ++ rest)[i + 1]? = some m' → m' ∈ run := by
    intro i m' hi hm'
    rw [List.getElem?_append_left hi, List.getElem?_cons_succ] at hm'
    exact List.mem_of_getElem? hm'
  have honly : ∀ i, i < (m :: run).length → IsCallAt ((m :: run) ++ rest) i → i = 0 := by
    intro i hi hcall
    cases i with
    | zero => rfl
    | succ i =>
        obtain ⟨m', hm', huses'⟩ := hcall
        exact absurd (hrun m' (hmember i m' hi hm')) huses'
  have hlength : (m :: run).length = run.length + 1 := List.length_cons
  rw [← List.cons_append]
  apply WellPaired.append hrest
  · intro i m' hi hm' huses'
    obtain rfl := honly i hi ⟨m', hm', huses'⟩
    obtain rfl := Option.some_inj.mp (hzero.symm.trans hm')
    rw [hafter]
    exact ⟨hrole, hids⟩
  · intro i hi hcall
    rw [honly i hi hcall, hafter]
    omega
  · intro k m' hk hm' hresults'
    refine ⟨0, ⟨⟨m, hzero, huses⟩, ?_, ?_⟩, ?_⟩
    · apply Nat.pos_of_ne_zero
      intro hk0
      rw [hk0, hzero, Option.some_inj] at hm'
      exact hresults' (hm' ▸ hresults)
    · rw [hafter]
      omega
    · intro i hi
      exact honly i (by omega) hi.1

theorem Settled.wellPaired {messages : List (Message α)} (hsettled : Settled messages) :
    WellPaired messages := by
  induction hsettled with
  | nil =>
      constructor
      · intro i m hm
        exact absurd hm (by simp)
      · intro k m hm
        exact absurd hm (by simp)
  | plain m rest huses hresults _ ih => exact WellPaired.plain huses hresults ih
  | call m run rest hresults hanswered hrun hrest ih =>
      exact WellPaired.answered hresults hanswered (fun m' hm' => (hrun m' hm').1)
        hrest.head_results ih

/-! ### A list that is already well paired -/

theorem pairwise_disjoint_of_nodup {run : List (Message α)}
    (hnodup : (run.flatMap fun m => m.content.resultIds).Nodup) :
    run.Pairwise fun m m' => Disjoint m.results m'.results := by
  apply (List.nodup_flatMap.mp hnodup).2.imp
  intro m m' hdisjoint
  rw [Finset.disjoint_left]
  intro id hid hid'
  exact hdisjoint (List.mem_toFinset.mp hid) (List.mem_toFinset.mp hid')

theorem WellPaired.answeredAt {messages : List (Message α)} (hpaired : WellPaired messages)
    (hrepeats : NoRepeatedResult messages) {i : Nat} (hi : IsCallAt messages i) :
    answeredAt messages i = some (runAfter messages i).length := by
  obtain ⟨m, hm, huses⟩ := hi
  obtain ⟨hrole, hids⟩ := hpaired.call i m hm huses
  rw [History.answeredAt, hm, Option.bind_some, answeredBy_eq_some]
  refine ⟨huses, hrole, scanResults_takeWhile ?_ ?_ ?_⟩
  · rw [Finset.empty_union]
    exact hids
  · intro m' _
    exact Finset.disjoint_empty_left _
  · exact pairwise_disjoint_of_nodup (hrepeats i ⟨m, hm, huses⟩)

theorem WellPaired.keeps {messages : List (Message α)} (hpaired : WellPaired messages)
    (hrepeats : NoRepeatedResult messages) {m : Message α} {k : Nat} (hm : messages[k]? = some m) :
    keeps messages (m, k) = true := by
  rw [History.keeps, decide_eq_true_eq, mem_validToolCallIndices, mem_validToolResultIndices]
  constructor
  · by_cases huses : m.uses = ∅
    · exact Or.inl huses
    · rw [hpaired.answeredAt hrepeats ⟨m, hm, huses⟩]
      exact Or.inr rfl
  · by_cases hresults : m.results = ∅
    · exact Or.inl hresults
    · obtain ⟨i, ⟨hi, hik, hki⟩, -⟩ := hpaired.result k m hm hresults
      exact Or.inr ⟨i, _, hpaired.answeredAt hrepeats hi, hik, hki⟩

theorem mem_runAfter {messages : List (Message α)} {m : Message α} {i k : Nat}
    (hm : messages[k]? = some m) (hik : i < k) (hki : k ≤ i + (runAfter messages i).length) :
    m ∈ runAfter messages i := by
  have hsplit : messages.drop (i + 1) =
      runAfter messages i ++ (messages.drop (i + 1)).dropWhile (fun m => m.results ≠ ∅) :=
    List.takeWhile_append_dropWhile.symm
  have hget : (messages.drop (i + 1))[k - (i + 1)]? = some m := by
    rw [List.getElem?_drop, ← hm]
    congr 1
    omega
  rw [hsplit, List.getElem?_append_left (by omega)] at hget
  exact List.mem_of_getElem? hget

theorem WellPaired.resultIds_nodup {messages : List (Message α)} (hpaired : WellPaired messages)
    (hrepeats : NoRepeatedResult messages) :
    ∀ m ∈ messages, m.content.resultIds.Nodup := by
  intro m hm
  obtain ⟨k, hk⟩ := List.getElem?_of_mem hm
  by_cases hresults : m.results = ∅
  · rw [(List.toFinset_eq_empty_iff _).mp hresults]
    exact List.nodup_nil
  · obtain ⟨i, ⟨hi, hik, hki⟩, -⟩ := hpaired.result k m hk hresults
    apply (List.nodup_flatMap.mp (hrepeats i hi)).1 m
    exact mem_runAfter hk hik hki

/-- The repair leaves calls followed by exactly their results, gives a list that is like this
back as it is, and so has nothing to do on what it returned. -/
theorem repair_pairs_calls_with_results (messages : List (Message α))
    (hunmixed : Unmixed messages) :
    WellPaired (repairToolPairing messages).messages ∧
      (WellPaired messages → NoRepeatedResult messages →
        repairToolPairing messages = ⟨messages, true⟩) ∧
      repairToolPairing (repairToolPairing messages).messages =
        ⟨(repairToolPairing messages).messages, true⟩ := by
  have hsettled : Settled (repairToolPairing messages).messages := by
    rw [repair_messages, kept_eq_survivors]
    exact settled_survivors hunmixed
  refine ⟨hsettled.wellPaired, fun hpaired hrepeats => ?_, hsettled.repair_eq⟩
  apply repair_eq_given
  · have hall : ∀ p ∈ messages.zipIdx, keeps messages p = true := by
      intro p hp
      exact hpaired.keeps hrepeats (List.mem_zipIdx_iff_getElem?.mp hp)
    rw [kept, List.filter_eq_self.mpr hall, List.zipIdx_map_fst]
  · exact hpaired.resultIds_nodup hrepeats

/-- Two calls, one of them answered in two messages, and a result that answers nothing. -/
theorem repair_pairs_split_run :
    let use (id : String) : Block Unit := .toolUse id "read" ()
    let result (id : String) : Block Unit := .toolResult id () false
    let given : List (Message Unit) :=
      [⟨.assistant, .blocks [use "a", use "b"], none⟩, ⟨.user, .blocks [result "a"], none⟩,
        ⟨.user, .blocks [result "b"], none⟩, ⟨.user, .blocks [result "a"], none⟩]
    WellPaired (repairToolPairing given).messages ∧
      (repairToolPairing given).messages = given.take 3 := by
  refine ⟨(repair_pairs_calls_with_results _ ?_).1, by decide⟩
  unfold Unmixed
  decide

end OpenStarry.History
