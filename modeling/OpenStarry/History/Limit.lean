import OpenStarry.History.WellPaired

/-!
# The most recent turns

A long history is cut before it is sent. Turns are counted from the end by the messages a person
wrote: context the runtime put in and messages that hold only results do not count. The cut falls
before the first message of a turn, so no call is separated from its results.
-/

namespace OpenStarry.History

variable {α : Type}

/-- `_SYNTHETIC_USER_PREFIXES`. -/
def syntheticUserPrefixes : List String :=
  ["[Available skills for this turn]", "[Context summary]", "[Request context for this turn]",
    "[Runtime context for this turn]"]

namespace Block

def isToolResult : Block α → Bool
  | toolResult _ _ _ => true
  | _ => false

end Block

/-- `_is_real_user_turn`. -/
def isRealUserTurn (message : Message α) : Bool :=
  message.role = .user &&
    match message.content with
    | .text s => !syntheticUserPrefixes.any fun start => start.toList.isPrefixOf s.toList
    | .blocks bs => !bs.all Block.isToolResult

/-- The scan forward from `cut_index` to the next message a person wrote. -/
def nextUserTurn (messages : List (Message α)) (cutIndex : Nat) : Nat :=
  cutIndex + (messages.drop cutIndex).findIdx isRealUserTurn

def cutIndex (messages : List (Message α)) (maxTurns : Int) : Nat → Nat → Nat
  | 0, _ => 0
  | i + 1, userCount =>
      if (messages[i]?).any isRealUserTurn then
        if (userCount + 1 : Nat) > maxTurns then nextUserTurn messages (i + 1)
        else cutIndex messages maxTurns i (userCount + 1)
      else cutIndex messages maxTurns i userCount

/-- `limit_turns`. -/
def limitTurns (messages : List (Message α)) (maxTurns : Int) : Returned α :=
  if maxTurns ≤ 0 ∨ messages = [] then ⟨messages, true⟩
  else
    let cut := cutIndex messages maxTurns messages.length 0
    if cut = 0 then ⟨messages, true⟩ else ⟨messages.drop cut, false⟩

/-! ### The turns of a history -/

def turns : List (Message α) → List (List (Message α))
  | [] => []
  | m :: rest =>
      if isRealUserTurn m then (m :: rest.takeWhile fun m => !isRealUserTurn m) :: turns rest
      else turns rest

theorem length_turns (messages : List (Message α)) :
    (turns messages).length = messages.countP isRealUserTurn := by
  induction messages with
  | nil => rfl
  | cons m rest ih =>
      rw [turns, List.countP_cons]
      split_ifs with hreal
      · rw [List.length_cons, ih]
      · rw [ih, Nat.add_zero]

theorem flatten_turns (messages : List (Message α)) :
    (turns messages).flatten = messages.dropWhile fun m => !isRealUserTurn m := by
  induction messages with
  | nil => rfl
  | cons m rest ih =>
      rw [turns]
      split_ifs with hreal
      · rw [List.flatten_cons, ih, List.cons_append, List.takeWhile_append_dropWhile,
          List.dropWhile_cons_of_neg (by simp [hreal])]
      · rw [ih, List.dropWhile_cons_of_pos (by simp [hreal])]

theorem drop_turns_append (front rest : List (Message α)) :
    (turns (front ++ rest)).drop (front.countP isRealUserTurn) = turns rest := by
  induction front with
  | nil => rfl
  | cons m front ih =>
      rw [List.cons_append, turns, List.countP_cons]
      split_ifs with hreal
      · rw [List.drop_succ_cons, ih]
      · rw [Nat.add_zero, ih]

/-! ### Where the cut falls -/

theorem nextUserTurn_spec {messages : List (Message α)} {start : Nat}
    (hsome : 0 < (messages.drop start).countP isRealUserTurn) :
    (∃ m, messages[nextUserTurn messages start]? = some m ∧ isRealUserTurn m = true) ∧
      (messages.drop (nextUserTurn messages start)).countP isRealUserTurn =
        (messages.drop start).countP isRealUserTurn := by
  obtain ⟨m, hm, hreal⟩ := List.countP_pos_iff.mp hsome
  have hlt : (messages.drop start).findIdx isRealUserTurn < (messages.drop start).length :=
    List.findIdx_lt_length_of_exists ⟨m, hm, hreal⟩
  constructor
  · refine ⟨_, ?_, List.findIdx_getElem (w := hlt)⟩
    rw [nextUserTurn, ← List.getElem?_drop, List.getElem?_eq_getElem hlt]
  · have hskipped : ((messages.drop start).take
        ((messages.drop start).findIdx isRealUserTurn)).countP isRealUserTurn = 0 := by
      rw [List.countP_eq_zero]
      intro m' hm'
      obtain ⟨j, hj, rfl⟩ := List.mem_take_iff_getElem.mp hm'
      exact Bool.eq_false_iff.mp (List.not_of_lt_findIdx (lt_min_iff.mp hj).1)
    have hsplit := congrArg (List.countP isRealUserTurn)
      (List.take_append_drop ((messages.drop start).findIdx isRealUserTurn) (messages.drop start))
    rw [List.countP_append, hskipped, Nat.zero_add, List.drop_drop] at hsplit
    rw [nextUserTurn, hsplit]

def OpensLast (messages : List (Message α)) (maxTurns : Int) (cut : Nat) : Prop :=
  (∃ m, messages[cut]? = some m ∧ isRealUserTurn m = true) ∧
    ((messages.drop cut).countP isRealUserTurn : Int) = maxTurns

theorem cutIndex_spec {messages : List (Message α)} {maxTurns : Int} (hmax : 1 ≤ maxTurns)
    (i userCount : Nat) (hi : i ≤ messages.length)
    (hcount : (messages.drop i).countP isRealUserTurn = userCount)
    (hwithin : (userCount : Int) ≤ maxTurns) :
    (cutIndex messages maxTurns i userCount = 0 ∧
        (messages.countP isRealUserTurn : Int) ≤ maxTurns) ∨
      (0 < cutIndex messages maxTurns i userCount ∧
        maxTurns < (messages.countP isRealUserTurn : Int) ∧
        OpensLast messages maxTurns (cutIndex messages maxTurns i userCount)) := by
  induction i generalizing userCount with
  | zero =>
      rw [List.drop_zero] at hcount
      rw [cutIndex, hcount]
      exact Or.inl ⟨rfl, hwithin⟩
  | succ i ih =>
      have hlt : i < messages.length := hi
      have hdrop : messages.drop i = messages[i] :: messages.drop (i + 1) :=
        List.drop_eq_getElem_cons hlt
      have hcons : (messages.drop i).countP isRealUserTurn =
          userCount + if isRealUserTurn messages[i] then 1 else 0 := by
        rw [hdrop, List.countP_cons, hcount]
      rw [cutIndex, List.getElem?_eq_getElem hlt, Option.any_some]
      by_cases hreal : isRealUserTurn messages[i] = true
      · rw [if_pos hreal] at hcons
        rw [if_pos hreal]
        by_cases hover : ((userCount + 1 : Nat) : Int) > maxTurns
        · -- The turn that begins at `i` is one too many.
          have hexact : (userCount : Int) = maxTurns := by omega
          have htotal : (messages.drop i).countP isRealUserTurn ≤
              messages.countP isRealUserTurn :=
            (List.drop_sublist i messages).countP_le
          obtain ⟨hopens, hsame⟩ := @nextUserTurn_spec _ messages (i + 1) (by omega)
          rw [if_pos hover]
          refine Or.inr ⟨?_, by omega, hopens, by omega⟩
          rw [nextUserTurn]
          omega
        · rw [if_neg hover]
          exact ih (userCount + 1) hlt.le hcons (by omega)
      · rw [if_neg hreal, Nat.add_zero] at hcons
        rw [if_neg hreal]
        exact ih userCount hlt.le hcons hwithin

theorem limitTurns_cases (messages : List (Message α)) {maxTurns : Int} (hmax : 1 ≤ maxTurns) :
    ((limitTurns messages maxTurns).messages = messages ∧
        (messages.countP isRealUserTurn : Int) ≤ maxTurns) ∨
      ∃ cut, (limitTurns messages maxTurns).messages = messages.drop cut ∧
        maxTurns < (messages.countP isRealUserTurn : Int) ∧ OpensLast messages maxTurns cut := by
  rw [limitTurns]
  by_cases hempty : messages = []
  · rw [if_pos (Or.inr hempty)]
    left
    exact ⟨rfl, by rw [hempty, List.countP_nil]; omega⟩
  · rw [if_neg (by rw [not_or]; exact ⟨by omega, hempty⟩)]
    have hnone : (messages.drop messages.length).countP isRealUserTurn = 0 := by
      rw [List.drop_length, List.countP_nil]
    obtain ⟨hzero, hfew⟩ | ⟨hpos, hmany, hopens⟩ :=
      cutIndex_spec hmax messages.length 0 le_rfl hnone (by omega)
    · rw [if_pos hzero]
      exact Or.inl ⟨rfl, hfew⟩
    · rw [if_neg hpos.ne']
      exact Or.inr ⟨_, rfl, hmany, hopens⟩

/-! ### Calls and results on the two sides of the cut -/

def ResultsApart (messages : List (Message α)) : Prop :=
  ∀ m ∈ messages, m.results ≠ ∅ → ∀ b ∈ m.content.list, b.isToolResult = true

/-- The message at `k` is one of those that answer the call at `i`. -/
def Answers (messages : List (Message α)) (i k : Nat) : Prop :=
  IsCallAt messages i ∧ i < k ∧ k ≤ i + (runAfter messages i).length

def UsesId (messages : List (Message α)) (i : Nat) (id : String) : Prop :=
  ∃ m, messages[i]? = some m ∧ id ∈ m.uses

def AnswersId (messages : List (Message α)) (k : Nat) (id : String) : Prop :=
  ∃ m, messages[k]? = some m ∧ id ∈ m.results

/-- Calls are followed at once by their results. Results that no call asked for are left aside. -/
structure CallsAnswered (messages : List (Message α)) : Prop where
  call : ∀ i m, messages[i]? = some m → m.uses ≠ ∅ → idsOf (runAfter messages i) = m.uses
  result : ∀ k id, AnswersId messages k id → (∃ i < k, UsesId messages i id) →
    ∃ i, UsesId messages i id ∧ Answers messages i k

theorem not_isRealUserTurn {messages : List (Message α)} (hapart : ResultsApart messages)
    {m : Message α} (hm : m ∈ messages) (hresults : m.results ≠ ∅) :
    isRealUserTurn m = false := by
  have hall := hapart m hm hresults
  rw [isRealUserTurn, Bool.and_eq_false_iff]
  right
  cases hcontent : m.content with
  | text s =>
      apply absurd _ hresults
      rw [Message.results, hcontent]
      rfl
  | blocks bs =>
      rw [hcontent] at hall
      dsimp only
      rw [Bool.not_eq_false', List.all_eq_true]
      exact hall

theorem Answers.not_across {messages : List (Message α)} (hapart : ResultsApart messages)
    {cut : Nat} (hopens : ∃ m, messages[cut]? = some m ∧ isRealUserTurn m = true) {i k : Nat}
    (hanswers : Answers messages i k) (hk : cut ≤ k) : cut ≤ i := by
  obtain ⟨m, hm, hreal⟩ := hopens
  obtain ⟨-, -, hrun⟩ := hanswers
  by_contra hi
  have hmem : m ∈ runAfter messages i := mem_runAfter hm (by omega) (by omega)
  have hresults : m.results ≠ ∅ := by
    rw [runAfter] at hmem
    simpa using List.mem_takeWhile_imp hmem
  rw [not_isRealUserTurn hapart (List.mem_of_getElem? hm) hresults] at hreal
  exact Bool.false_ne_true hreal

theorem answers_front (front rest : List (Message α)) (i k : Nat) :
    Answers (front ++ rest) (front.length + i) (front.length + k) ↔ Answers rest i k := by
  rw [Answers, Answers, isCallAt_front, runAfter_append, Nat.add_lt_add_iff_left, Nat.add_assoc,
    Nat.add_le_add_iff_left]

theorem usesId_front (front rest : List (Message α)) (i : Nat) (id : String) :
    UsesId (front ++ rest) (front.length + i) id ↔ UsesId rest i id := by
  rw [UsesId, getElem?_front, UsesId]

theorem answersId_front (front rest : List (Message α)) (k : Nat) (id : String) :
    AnswersId (front ++ rest) (front.length + k) id ↔ AnswersId rest k id := by
  rw [AnswersId, getElem?_front, AnswersId]

namespace CallsAnswered

theorem call_append {front rest : List (Message α)} (hanswered : CallsAnswered (front ++ rest))
    (i : Nat) (m : Message α) (hm : rest[i]? = some m) (huses : m.uses ≠ ∅) :
    idsOf (runAfter rest i) = m.uses := by
  rw [← runAfter_append front rest]
  apply hanswered.call (front.length + i) m _ huses
  rw [getElem?_front, hm]

theorem result_append {front rest : List (Message α)} (hanswered : CallsAnswered (front ++ rest))
    (hacross : ∀ i k, Answers (front ++ rest) i k → front.length ≤ k → front.length ≤ i)
    (k : Nat) (id : String) (hresult : AnswersId rest k id)
    (hcalled : ∃ i < front.length + k, UsesId (front ++ rest) i id) :
    ∃ i, UsesId rest i id ∧ Answers rest i k := by
  rw [← answersId_front front rest] at hresult
  obtain ⟨i, huse, hi⟩ := hanswered.result (front.length + k) id hresult hcalled
  obtain ⟨j, rfl⟩ := Nat.exists_eq_add_of_le (hacross i _ hi (Nat.le_add_right _ _))
  exact ⟨j, (usesId_front front rest j id).mp huse, (answers_front front rest j k).mp hi⟩

end CallsAnswered

/-- What is kept is a suffix with the most recent turns, each of them whole, and every call that
was cut was cut with its results. -/
theorem limitTurns_keeps_recent_turns (messages : List (Message α)) (maxTurns : Int)
    (hmax : 1 ≤ maxTurns) (hapart : ResultsApart messages) (hanswered : CallsAnswered messages) :
    ∃ dropped kept, (limitTurns messages maxTurns).messages = kept ∧ messages = dropped ++ kept ∧
      (kept.countP isRealUserTurn : Int) = min maxTurns (messages.countP isRealUserTurn) ∧
      (dropped = [] ∨
        kept = ((turns messages).drop ((turns messages).length - maxTurns.toNat)).flatten) ∧
      (∀ i k, Answers messages i k → dropped.length ≤ k → dropped.length ≤ i) ∧
      (∀ i m, kept[i]? = some m → m.uses ≠ ∅ → idsOf (runAfter kept i) = m.uses) ∧
      ∀ k id, AnswersId kept k id → (∃ i < dropped.length + k, UsesId messages i id) →
        ∃ i, UsesId kept i id ∧ Answers kept i k := by
  obtain ⟨hall, hfew⟩ | ⟨cut, hdrop, hmany, hopens, hcount⟩ := limitTurns_cases messages hmax
  · refine ⟨[], messages, hall, rfl, ?_, Or.inl rfl, fun i k _ _ => Nat.zero_le i,
      hanswered.call, ?_⟩
    · rw [min_eq_right hfew]
    · intro k id hresult hcalled
      rw [List.length_nil, Nat.zero_add] at hcalled
      exact hanswered.result k id hresult hcalled
  · have hsplit : messages = messages.take cut ++ messages.drop cut :=
      (List.take_append_drop cut messages).symm
    have hlength : (messages.take cut).length = cut := by
      obtain ⟨m, hm, -⟩ := hopens
      exact List.length_take_of_le (List.getElem?_eq_some_iff.mp hm).1.le
    have hacross : ∀ i k, Answers messages i k → (messages.take cut).length ≤ k →
        (messages.take cut).length ≤ i := by
      intro i k hi hk
      rw [hlength] at hk ⊢
      exact hi.not_across hapart hopens hk
    have hwhole : CallsAnswered (messages.take cut ++ messages.drop cut) := by
      rw [← hsplit]
      exact hanswered
    refine ⟨messages.take cut, messages.drop cut, hdrop, hsplit, ?_, Or.inr ?_, hacross,
      hwhole.call_append, ?_⟩
    · rw [min_eq_left hmany.le, hcount]
    · have htotal : messages.countP isRealUserTurn =
          (messages.take cut).countP isRealUserTurn + (messages.drop cut).countP isRealUserTurn := by
        rw [← List.countP_append, ← hsplit]
      have hfront : (turns messages).length - maxTurns.toNat =
          (messages.take cut).countP isRealUserTurn := by
        rw [length_turns]
        omega
      have hturns := drop_turns_append (messages.take cut) (messages.drop cut)
      rw [← hsplit] at hturns
      rw [hfront, hturns, flatten_turns]
      obtain ⟨m, hm, hreal⟩ := hopens
      rw [List.drop_eq_getElem?_toList_append, hm, Option.toList_some, List.singleton_append,
        List.dropWhile_cons_of_neg (by simp [hreal])]
    · have hbeyond := @CallsAnswered.result_append _ (messages.take cut) (messages.drop cut) hwhole
      rw [← hsplit] at hbeyond
      exact hbeyond hacross

theorem WellPaired.callsAnswered {messages : List (Message α)} (hpaired : WellPaired messages) :
    CallsAnswered messages := by
  constructor
  · intro i m hm huses
    exact (hpaired.call i m hm huses).2
  · intro k id hresult _
    obtain ⟨m, hm, hid⟩ := hresult
    obtain ⟨i, ⟨hcall, hik, hki⟩, -⟩ := hpaired.result k m hm (Finset.ne_empty_of_mem hid)
    have hanswers : Answers messages i k := ⟨hcall, hik, hki⟩
    obtain ⟨m', hm', huses⟩ := hcall
    refine ⟨i, ⟨m', hm', ?_⟩, hanswers⟩
    rw [← (hpaired.call i m' hm' huses).2, idsOf, List.mem_toFinset, List.mem_flatMap]
    exact ⟨m, mem_runAfter hm hik hki, List.mem_toFinset.mp hid⟩

/-- Of two turns, one with a call, the second is kept and the context before it is not. -/
theorem limitTurns_keeps_second_turn :
    let given : List (Message Unit) :=
      [⟨.user, .text "look", none⟩, ⟨.assistant, .blocks [.toolUse "a" "read" ()], none⟩,
        ⟨.user, .blocks [.toolResult "a" () false], none⟩,
        ⟨.user, .text "[Context summary] earlier", none⟩, ⟨.user, .text "now", none⟩,
        ⟨.assistant, .text "done", none⟩]
    ∃ dropped kept, (limitTurns given 1).messages = kept ∧ given = dropped ++ kept ∧
      (kept.countP isRealUserTurn : Int) = min 1 (given.countP isRealUserTurn) ∧
      (dropped = [] ∨ kept = ((turns given).drop ((turns given).length - 1)).flatten) ∧
      (∀ i k, Answers given i k → dropped.length ≤ k → dropped.length ≤ i) ∧
      (∀ i m, kept[i]? = some m → m.uses ≠ ∅ → idsOf (runAfter kept i) = m.uses) ∧
      ∀ k id, AnswersId kept k id → (∃ i < dropped.length + k, UsesId given i id) →
        ∃ i, UsesId kept i id ∧ Answers kept i k := by
  intro given
  have hsettled : Settled given := by
    refine Settled.plain _ _ rfl rfl ?_
    refine Settled.call _ [_] _ rfl (by decide +kernel) (by decide +kernel) ?_
    exact Settled.plain _ _ rfl rfl (Settled.plain _ _ rfl rfl (Settled.plain _ _ rfl rfl
      Settled.nil))
  exact limitTurns_keeps_recent_turns given 1 le_rfl (by unfold ResultsApart; decide +kernel)
    hsettled.wellPaired.callsAnswered

example :
    let given : List (Message Unit) := [⟨.user, .text "look", none⟩, ⟨.assistant, .text "x", none⟩,
      ⟨.user, .text "[Context summary] earlier", none⟩, ⟨.user, .text "now", none⟩]
    limitTurns given 1 = ⟨given.drop 3, false⟩ ∧ limitTurns given 2 = ⟨given, true⟩ := by
  decide +kernel

/-! ### The history that is sent -/

theorem Settled.drop {messages : List (Message α)} (hsettled : Settled messages)
    (hapart : ResultsApart messages) {cut : Nat}
    (hopens : ∃ m, messages[cut]? = some m ∧ isRealUserTurn m = true) :
    Settled (messages.drop cut) := by
  induction hsettled generalizing cut with
  | nil =>
      rw [List.drop_nil]
      exact Settled.nil
  | plain m rest huses hresults hrest ih =>
      cases cut with
      | zero => exact Settled.plain m rest huses hresults hrest
      | succ cut => exact ih (fun m' hm' => hapart m' (List.mem_cons_of_mem m hm')) hopens
  | call m run rest hresults hanswered hrun hrest ih =>
      cases cut with
      | zero => exact Settled.call m run rest hresults hanswered hrun hrest
      | succ cut =>
          obtain ⟨opening, hopening, hreal⟩ := hopens
          rw [List.getElem?_cons_succ] at hopening
          obtain ⟨-, hclaimed, -⟩ := answeredBy_spec hanswered
          rw [List.take_left] at hclaimed
          -- A message of the run holds results, so it opens no turn.
          have hle : run.length ≤ cut := by
            by_contra hlt
            rw [List.getElem?_append_left (Nat.lt_of_not_le hlt)] at hopening
            have hmem := List.mem_of_getElem? hopening
            have hnot := not_isRealUserTurn hapart
              (List.mem_cons_of_mem m (List.mem_append_left rest hmem)) (hclaimed opening hmem)
            rw [hnot] at hreal
            exact Bool.false_ne_true hreal
          rw [List.getElem?_append_right hle] at hopening
          rw [List.drop_succ_cons, List.drop_append, List.drop_eq_nil_of_le hle, List.nil_append]
          exact ih (fun m' hm' => hapart m' (List.mem_cons_of_mem m (List.mem_append_right run hm')))
            ⟨opening, hopening, hreal⟩

theorem mem_of_mem_tidy {m : Message α} {b : Block α} (hb : b ∈ (tidy m).1.content.list) :
    b ∈ m.content.list := by
  obtain ⟨-, hsame⟩ | ⟨bs, hcontent, -, htidied⟩ := tidy_cases m
  · rwa [hsame] at hb
  · rw [htidied] at hb
    obtain ⟨p, hp, rfl⟩ := List.mem_map.mp hb
    rw [hcontent]
    exact List.fst_mem_of_mem_zipIdx (List.mem_of_mem_filter hp)

theorem resultsApart_repair {messages : List (Message α)} (hapart : ResultsApart messages) :
    ResultsApart (repairToolPairing messages).messages := by
  intro m hm hresults b hb
  rw [repair_messages] at hm
  obtain ⟨given, hgiven, rfl⟩ := List.mem_map.mp hm
  obtain ⟨p, hp, rfl⟩ := List.mem_map.mp hgiven
  rw [tidy_results] at hresults
  exact hapart p.1 (List.fst_mem_of_mem_zipIdx (List.mem_of_mem_filter hp)) hresults b
    (mem_of_mem_tidy hb)

/-- A repaired history that is then limited is well paired, and a second repair returns it as it
is. -/
theorem limited_needs_no_repair (messages : List (Message α)) (maxTurns : Int)
    (hunmixed : Unmixed messages) (hapart : ResultsApart messages) :
    let limited := (limitTurns (repairToolPairing messages).messages maxTurns).messages
    limited <:+ (repairToolPairing messages).messages ∧ WellPaired limited ∧
      repairToolPairing limited = ⟨limited, true⟩ := by
  intro limited
  have hsettled : Settled (repairToolPairing messages).messages := by
    rw [repair_messages, kept_eq_survivors]
    exact settled_survivors hunmixed
  have hlimited : limited <:+ (repairToolPairing messages).messages ∧ Settled limited := by
    by_cases hmax : 1 ≤ maxTurns
    · obtain ⟨hall, -⟩ | ⟨cut, hdrop, -, hopens, -⟩ :=
        limitTurns_cases (repairToolPairing messages).messages hmax
      · rw [show limited = _ from hall]
        exact ⟨List.suffix_rfl, hsettled⟩
      · rw [show limited = _ from hdrop]
        exact ⟨List.drop_suffix _ _, hsettled.drop (resultsApart_repair hapart) hopens⟩
    · have hall : limited = (repairToolPairing messages).messages := by
        show (limitTurns _ _).messages = _
        rw [limitTurns, if_pos (Or.inl (by omega))]
      rw [hall]
      exact ⟨List.suffix_rfl, hsettled⟩
  exact ⟨hlimited.1, hlimited.2.wellPaired, hlimited.2.repair_eq⟩

theorem limited_needs_no_repair_two_turns :
    let given : List (Message Unit) :=
      [⟨.user, .text "look", none⟩, ⟨.assistant, .blocks [.toolUse "a" "read" ()], none⟩,
        ⟨.user, .text "stop", none⟩, ⟨.user, .blocks [.toolResult "a" () false], none⟩]
    let limited := (limitTurns (repairToolPairing given).messages 1).messages
    limited <:+ (repairToolPairing given).messages ∧ WellPaired limited ∧
      repairToolPairing limited = ⟨limited, true⟩ := by
  intro given
  exact limited_needs_no_repair given 1 (by unfold Unmixed; decide +kernel)
    (by unfold ResultsApart; decide +kernel)

end OpenStarry.History
