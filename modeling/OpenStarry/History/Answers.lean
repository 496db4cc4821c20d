import OpenStarry.History.WellPaired

/-!
# One result for each call

Results for one id are merged within a message, and the ids of a run of messages are collected in a
set. A second result for an id in another message of the run goes unseen, and so does a second call
with the same id.
-/

namespace OpenStarry.History

variable {α : Type}

def resultCount (messages : List (Message α)) (i : Nat) (id : String) : Nat :=
  ((runAfter messages i).flatMap fun m => m.content.resultIds).count id

def AnsweredOnce (messages : List (Message α)) : Prop :=
  ∀ i m, messages[i]? = some m → m.role = .assistant → m.uses ≠ ∅ →
    m.content.useIds.Nodup ∧ ∀ id ∈ m.content.useIds, resultCount messages i id = 1

def ApartOnce (messages : List (Message α)) : Prop :=
  ∀ i m, messages[i]? = some m → m.role = .assistant → m.uses ≠ ∅ →
    m.content.useIds.Nodup ∧
      ∀ id ∈ m.content.useIds, (runAfter messages i).countP (fun m' => id ∈ m'.results) = 1

def RunsApart (messages : List (Message α)) : Prop :=
  ∀ i m n, messages[i]? = some m → answeredBy m (messages.drop (i + 1)) = some n →
    m.content.useIds.Nodup ∧
      ((messages.drop (i + 1)).take n).Pairwise fun m' m'' => Disjoint m'.results m''.results

/-! ### Counting results -/

theorem runAfter_tidy (messages : List (Message α)) (i : Nat) :
    runAfter (messages.map fun m => (tidy m).1) i =
      (runAfter messages i).map fun m => (tidy m).1 := by
  unfold runAfter
  rw [← List.map_drop, List.takeWhile_map]
  congr 2
  funext m
  simp

theorem count_tidied (run : List (Message α)) (id : String) :
    ((run.map fun m => (tidy m).1).flatMap fun m => m.content.resultIds).count id =
      run.countP fun m => id ∈ m.results := by
  induction run with
  | nil => rfl
  | cons m run ih =>
      rw [List.map_cons, List.flatMap_cons, List.count_append, ih, List.countP_cons,
        List.Nodup.count (tidy_resultIds_nodup m), Nat.add_comm]
      congr 1
      have hmem : id ∈ (tidy m).1.content.resultIds ↔ id ∈ m.results := by
        rw [← tidy_results, Message.results, extractToolResultIds, List.mem_toFinset]
      simp [hmem]

theorem answeredOnce_tidy (messages : List (Message α)) :
    AnsweredOnce (messages.map fun m => (tidy m).1) ↔ ApartOnce messages := by
  have hcount : ∀ i id, resultCount (messages.map fun m => (tidy m).1) i id =
      (runAfter messages i).countP fun m => id ∈ m.results := by
    intro i id
    rw [resultCount, runAfter_tidy, count_tidied]
  constructor
  · intro h i m hm hrole huses
    have hget : (messages.map fun m => (tidy m).1)[i]? = some (tidy m).1 := by
      rw [List.getElem?_map, hm]
      rfl
    have := h i (tidy m).1 hget (by rw [tidy_role, hrole]) (by rw [tidy_uses]; exact huses)
    rw [tidy_useIds] at this
    simpa only [hcount] using this
  · intro h i m hm hrole huses
    rw [List.getElem?_map, Option.map_eq_some_iff] at hm
    obtain ⟨m₀, hm₀, rfl⟩ := hm
    rw [tidy_role] at hrole
    rw [tidy_uses] at huses
    rw [tidy_useIds]
    simpa only [hcount] using h i m₀ hm₀ hrole huses

/-! ### Lists without messages of both kinds -/

theorem forall_getElem?_cons {β : Type} {x : β} {l : List β} {p : Nat → β → Prop} :
    (∀ i y, (x :: l)[i]? = some y → p i y) ↔ p 0 x ∧ ∀ i y, l[i]? = some y → p (i + 1) y := by
  constructor
  · intro h
    exact ⟨h 0 x rfl, fun i y hy => h (i + 1) y hy⟩
  · intro h i y hy
    cases i with
    | zero =>
        obtain rfl := Option.some_inj.mp hy
        exact h.1
    | succ i => exact h.2 i y hy

theorem apartOnce_cons {m : Message α} {rest : List (Message α)} :
    ApartOnce (m :: rest) ↔
      (m.role = .assistant → m.uses ≠ ∅ → m.content.useIds.Nodup ∧ ∀ id ∈ m.content.useIds,
        (rest.takeWhile fun m => m.results ≠ ∅).countP (fun m' => id ∈ m'.results) = 1) ∧
      ApartOnce rest := forall_getElem?_cons

theorem runsApart_cons {m : Message α} {rest : List (Message α)} :
    RunsApart (m :: rest) ↔
      (∀ n, answeredBy m rest = some n → m.content.useIds.Nodup ∧
        (rest.take n).Pairwise fun m' m'' => Disjoint m'.results m''.results) ∧
      RunsApart rest := by
  unfold RunsApart
  constructor
  · intro h
    exact ⟨fun n hn => h 0 m n rfl hn, fun i m' n hm' hn => h (i + 1) m' n hm' hn⟩
  · intro h i m' n hm' hn
    cases i with
    | zero =>
        obtain rfl := Option.some_inj.mp hm'
        exact h.1 n hn
    | succ i => exact h.2 i m' n hm' hn

theorem apartOnce_run {run rest : List (Message α)} (hrun : ∀ m ∈ run, m.uses = ∅) :
    ApartOnce (run ++ rest) ↔ ApartOnce rest := by
  induction run with
  | nil => exact Iff.rfl
  | cons m run ih =>
      rw [List.forall_mem_cons] at hrun
      rw [List.cons_append, apartOnce_cons, ih hrun.2, and_iff_right_iff_imp]
      intro _ _ huses
      exact absurd hrun.1 huses

theorem runsApart_run {run rest : List (Message α)} (hrun : ∀ m ∈ run, m.uses = ∅) :
    RunsApart (run ++ rest) ↔ RunsApart rest := by
  induction run with
  | nil => exact Iff.rfl
  | cons m run ih =>
      rw [List.forall_mem_cons] at hrun
      rw [List.cons_append, runsApart_cons, ih hrun.2, and_iff_right_iff_imp]
      intro _ n hn
      rw [answeredBy_eq_none_of_uses hrun.1] at hn
      exact absurd hn (by simp)

theorem countP_eq_zero_of_disjoint {m : Message α} {run : List (Message α)} {id : String}
    (hid : id ∈ m.results) (hapart : ∀ m' ∈ run, Disjoint m.results m'.results) :
    run.countP (fun m' => id ∈ m'.results) = 0 := by
  rw [List.countP_eq_zero]
  intro m' hm'
  rw [decide_eq_true_eq]
  exact Finset.disjoint_left.mp (hapart m' hm') hid

theorem mem_idsOf {run : List (Message α)} {id : String} :
    id ∈ idsOf run ↔ 0 < run.countP (fun m' => id ∈ m'.results) := by
  rw [List.countP_pos_iff, idsOf, List.mem_toFinset, List.mem_flatMap]
  apply exists_congr
  intro m
  rw [decide_eq_true_eq, Message.results, extractToolResultIds, List.mem_toFinset]

theorem countP_eq_one_iff (run : List (Message α)) :
    (∀ id ∈ idsOf run, run.countP (fun m' => id ∈ m'.results) = 1) ↔
      run.Pairwise fun m' m'' => Disjoint m'.results m''.results := by
  induction run with
  | nil => simp
  | cons m run ih =>
      simp only [List.pairwise_cons, ← ih, List.countP_cons, decide_eq_true_eq, idsOf_cons,
        Finset.mem_union]
      constructor
      · intro h
        refine ⟨fun m' hm' => Finset.disjoint_left.mpr fun id hid hid' => ?_, fun id hid => ?_⟩
        · have hone := h id (Or.inl hid)
          have hpos : 0 < run.countP (fun m' => id ∈ m'.results) :=
            List.countP_pos_iff.mpr ⟨m', hm', by simpa using hid'⟩
          rw [if_pos hid] at hone
          omega
        · have hone := h id (Or.inr hid)
          have hpos := mem_idsOf.mp hid
          omega
      · intro h id hid
        by_cases hm : id ∈ m.results
        · rw [if_pos hm, countP_eq_zero_of_disjoint hm h.1]
        · rw [if_neg hm, h.2 id (hid.resolve_left hm)]

theorem survivors_head {messages : List (Message α)} (hunmixed : Unmixed messages) :
    (survivors 0 messages).takeWhile (fun m => m.results ≠ ∅) = [] := by
  have hhead := (settled_survivors hunmixed).head_results
  rw [List.takeWhile_map, List.map_eq_nil_iff] at hhead
  rw [← hhead]
  congr 1
  funext m
  simp

theorem apartOnce_survivors_iff {messages : List (Message α)} (hunmixed : Unmixed messages) :
    ApartOnce (survivors 0 messages) ↔ RunsApart messages := by
  induction hlength : messages.length using Nat.strong_induction_on generalizing messages with
  | _ length ih =>
      cases messages with
      | nil =>
          refine iff_of_true ?_ ?_
          · intro i m hm
            exact absurd hm (by simp [survivors])
          · intro i m n hm
            exact absurd hm (by simp)
      | cons m rest =>
          have hsub : ∀ rest', rest' <:+ rest → Unmixed rest' := fun rest' hsuffix m' hm' =>
            hunmixed m' (List.mem_cons_of_mem m (hsuffix.mem hm'))
          have hrest : ∀ rest', rest' <:+ rest →
              (ApartOnce (survivors 0 rest') ↔ RunsApart rest') := by
            intro rest' hsuffix
            have hle := hsuffix.length_le
            exact ih rest'.length (by rw [← hlength, List.length_cons]; omega)
              (hsub rest' hsuffix) rfl
          rw [runsApart_cons]
          obtain ⟨hanswered, hgone⟩ | ⟨huses, -, hstays⟩ |
            ⟨run, after, rfl, hanswered, -, hpure, hstays⟩ := survivors_cons_cases hunmixed
          · rw [hgone, hrest rest List.suffix_rfl, hanswered]
            simp
          · rw [hstays, apartOnce_cons, hrest rest List.suffix_rfl,
              answeredBy_eq_none_of_uses huses]
            simp [huses]
          · -- A call that stays: its run is the same before and after the repair.
            have hafter : after <:+ run ++ after := List.suffix_append run after
            obtain ⟨-, hclaimed, hids⟩ := answeredBy_spec hanswered
            obtain ⟨huses, hrole, -⟩ := answeredBy_eq_some.mp hanswered
            rw [List.take_left] at hclaimed hids
            have htake : (run ++ survivors 0 after).takeWhile (fun m => m.results ≠ ∅) = run := by
              rw [List.takeWhile_append_of_pos fun m' hm' => by simpa using hclaimed m' hm',
                survivors_head (hsub after hafter), List.append_nil]
            have hmem : ∀ id, id ∈ m.content.useIds ↔ id ∈ idsOf run := by
              intro id
              rw [hids, Message.uses, extractToolUseIds, List.mem_toFinset]
            rw [hstays, apartOnce_cons, apartOnce_run hpure, hrest after hafter,
              runsApart_run hpure, htake, hanswered]
            simp only [hmem, countP_eq_one_iff, hrole, forall_const, Option.some_inj]
            constructor
            · intro h
              exact ⟨fun n hn => by rw [← hn, List.take_left]; exact h.1 huses, h.2⟩
            · intro h
              have hrun := h.1 run.length rfl
              rw [List.take_left] at hrun
              exact ⟨fun _ => hrun, h.2⟩

/-- The repair leaves every call with one result for each id just when the messages it keeps do so:
without messages of both kinds, when no answered call asks for an id twice and no two of the
messages that answer it are for one id. -/
theorem repair_answers_once_iff (messages : List (Message α)) :
    (AnsweredOnce (repairToolPairing messages).messages ↔ ApartOnce (kept messages)) ∧
      (Unmixed messages →
        (AnsweredOnce (repairToolPairing messages).messages ↔ RunsApart messages)) := by
  have hgeneral : AnsweredOnce (repairToolPairing messages).messages ↔
      ApartOnce (kept messages) := by
    rw [repair_messages, answeredOnce_tidy]
  refine ⟨hgeneral, fun hunmixed => ?_⟩
  rw [hgeneral, kept_eq_survivors]
  exact apartOnce_survivors_iff hunmixed

/-- A call for two ids is answered by one message and then by another that repeats the first id:
both results stay. -/
theorem split_run_answers_twice :
    let use (id : String) : Block Unit := .toolUse id "read" ()
    let result (id : String) : Block Unit := .toolResult id () false
    let given : List (Message Unit) :=
      [⟨.assistant, .blocks [use "a", use "b"], none⟩, ⟨.user, .blocks [result "a"], none⟩,
        ⟨.user, .blocks [result "a", result "b"], none⟩]
    repairToolPairing given = ⟨given, true⟩ ∧ resultCount given 0 "a" = 2 ∧
      ¬ AnsweredOnce (repairToolPairing given).messages := by
  intro use result given
  have hgiven : repairToolPairing given = ⟨given, true⟩ := by decide
  have hcount : resultCount given 0 "a" = 2 := by decide
  refine ⟨hgiven, hcount, fun honce => ?_⟩
  rw [hgiven] at honce
  have hone : resultCount given 0 "a" = 1 := (honce 0 _ rfl rfl (by decide)).2 "a" (by decide)
  exact absurd (hcount.symm.trans hone) (by decide)

end OpenStarry.History
