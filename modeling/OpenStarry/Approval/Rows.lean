import OpenStarry.Approval.Queue

/-!
# What an operation does to a row

Each operation makes one move on the row it is called for, and before and after it rows may lose a
claim that became too old. The moves are listed once, with what holds of the row when one is made;
everything else about the queue is read off this list.
-/

namespace OpenStarry.Approval

open Lib Text

def Lapses (row row' : PendingApproval) : Prop :=
  row' = row ∨ row.resolved = false ∧ row' = row.dropClaim

inductive Moves (id : String) : Operation → PendingApproval → PendingApproval → Prop
  | stay {op row} : Moves id op row row
  | params {clock params row} (hopen : row.isOpen = true) :
      Moves id (.updateParams clock id params) row { row with params := params }
  | deadline {op row} (hopen : row.isOpen = true) (deadline : Time) :
      Moves id op row { row with deadline := deadline }
  | expire {op row} (hresolved : row.resolved = false) :
      Moves id op row { row with
        resolved := true, approved := false, resolution := resolutionExpired
        claimToken := none, claimStartedAt := none }
  | expireClaimed {clock token row} (hclaim : row.claim = some token) :
      Moves id (.expireClaimedResolution clock id token) row { row with
        resolved := true, approved := false, consumed := false, resolution := resolutionExpired
        claimToken := none, claimStartedAt := none }
  | resolve {clock approved idempotent metadata row} (hopen : row.isOpen = true) :
      Moves id (.resolve clock id approved idempotent metadata) row { row with
        resolved := true, approved := approved
        resolution := resolutionOf approved
        params := row.params.merge metadata }
  | claim {clock token metadata row} (hopen : row.isOpen = true) :
      Moves id (.claimResolution clock id token metadata) row { row with
        claimToken := some token, claimStartedAt := some (clock 1)
        params := row.params.merge metadata }
  | finalize {token approved row} (hresolved : row.resolved = false)
      (hclaim : row.claimToken = some token) :
      Moves id (.finalizeClaimedResolution id token approved) row { row with
        resolved := true, approved := approved
        resolution := resolutionOf approved }
  | complete {clock token row} (hresolved : row.resolved = true) (happroved : row.approved = true)
      (hclaim : row.claim = some token) :
      Moves id (.completeClaimedResolution clock id token) row row.dropClaim
  | release {clock token row} (hresolved : row.resolved = false) :
      Moves id (.releaseResolutionClaim clock id token) row row.dropClaim
  | reopen {clock expected row} (hresolved : row.resolved = true)
      (happroved : row.approved = expected) :
      Moves id (.reopenResolvedApproval clock id expected) row { row with
        resolved := false, approved := false, consumed := false, resolution := ""
        claimToken := none, claimStartedAt := none }
  | consume {clock row} (hresolved : row.resolved = true) (happroved : row.approved = true)
      (hconsumed : row.consumed = false) (hclaim : row.claimToken = none) :
      Moves id (.consume clock id) row { row with consumed := true }

def Tail (op : Operation) (id : String) (row row' : PendingApproval) : Prop :=
  ∃ moved, Moves id op row moved ∧ Lapses moved row'

def RowStep (op : Operation) (id : String) (row row' : PendingApproval) : Prop :=
  ∃ lapsed, Lapses row lapsed ∧ Tail op id lapsed row'

section Composition

variable {op : Operation} {id : String} {row row' row'' : PendingApproval}

theorem Lapses.refl (row : PendingApproval) : Lapses row row := .inl rfl

theorem Lapses.trans (hfirst : Lapses row row') (hsecond : Lapses row' row'') :
    Lapses row row'' := by
  obtain rfl | ⟨hresolved, rfl⟩ := hfirst
  · exact hsecond
  · obtain rfl | ⟨_, rfl⟩ := hsecond
    · exact .inr ⟨hresolved, rfl⟩
    · exact .inr ⟨hresolved, rfl⟩

theorem Tail.refl (row : PendingApproval) : Tail op id row row := ⟨row, .stay, .refl row⟩

theorem Tail.of_lapses (h : Lapses row row') : Tail op id row row' := ⟨row, .stay, h⟩

theorem RowStep.of_tail (h : Tail op id row row') : RowStep op id row row' := ⟨row, .refl row, h⟩

end Composition

/-! ### Operations by their parts -/

section Parts

variable {s : Settings} {op : Operation} {id : String} {q : Queue} {now : Time}

theorem releaseStaleClaims_related (s : Settings) (now : Time) :
    Table.Related (fun _ => Lapses) q (releaseStaleClaims s now q) := by
  apply Table.Related.update
  · intro _ row
    exact .refl row
  · intro _ row _ hstale
    rw [Bool.and_eq_true, Bool.and_eq_true, Bool.not_eq_true'] at hstale
    exact .inr ⟨hstale.1.1, rfl⟩

theorem get_fst : (get s id now q).1 = releaseStaleClaims s now q := by
  rw [get]
  cases hrow : (releaseStaleClaims s now q).get? id <;> simp [withRow, hrow]

/-- What `get` reads is the row of the table it leaves. -/
theorem get_snd {entry : PendingApproval} (hentry : (get s id now q).2 = .ok entry) :
    (get s id now q).1.get? id = some entry := by
  rw [get_fst]
  rw [get, withRow] at hentry
  cases hrow : (releaseStaleClaims s now q).get? id with
  | none =>
      rw [hrow] at hentry
      exact absurd hentry (by simp)
  | some row =>
      rw [hrow] at hentry
      exact congrArg some (Except.ok.inj hentry)

theorem tail_refl (q : Queue) : Table.Related (Tail op) q q := Table.Related.refl (fun _ => .refl) q

theorem tail_get : Table.Related (Tail op) q (get s id now q).1 := by
  rw [get_fst]
  exact (releaseStaleClaims_related s now).mono fun _ _ _ => .of_lapses

theorem rowStep_of_tail {q' : Queue} (h : Table.Related (Tail op) (releaseStaleClaims s now q) q') :
    Table.Related (RowStep op) q q' :=
  (releaseStaleClaims_related s now).comp h

theorem rowStep_direct {q' : Queue} (h : Table.Related (Tail op) q q') :
    Table.Related (RowStep op) q q' :=
  h.mono fun _ _ _ => .of_tail

theorem tail_update {condition : PendingApproval → Bool} {f : PendingApproval → PendingApproval}
    (hmoves : ∀ row, q.get? id = some row → condition row = true → Moves id op row (f row)) :
    Table.Related (Tail op) q (q.update (Table.atKey id condition) f) := by
  apply Table.Related.update
  · exact fun _ => .refl
  · intro key row hrow hcondition
    rw [Table.atKey, Bool.and_eq_true, decide_eq_true_eq] at hcondition
    obtain ⟨rfl, hcondition⟩ := hcondition
    exact ⟨f row, hmoves row hrow hcondition, .refl _⟩

theorem tail_update_get {condition : PendingApproval → Bool}
    {f : PendingApproval → PendingApproval}
    (hmoves : ∀ row, q.get? id = some row → condition row = true → Moves id op row (f row)) :
    Table.Related (Tail op) q (get s id now (q.update (Table.atKey id condition) f)).1 := by
  rw [get_fst]
  refine ((tail_update hmoves).comp (releaseStaleClaims_related s now)).mono ?_
  intro key row row'' h
  obtain ⟨row', ⟨moved, hmoved, hlapse⟩, hlapse'⟩ := h
  exact ⟨moved, hmoved, hlapse.trans hlapse'⟩

theorem withRow_fst {α : Type} {result : Except QueueError α} :
    (withRow id q fun _ => (q, result)).1 = q := by
  rw [withRow]
  cases q.get? id <;> rfl

theorem tail_withRow {α : Type} {body : PendingApproval → Reply α}
    (hbody : ∀ row, q.get? id = some row → Table.Related (Tail op) q (body row).1) :
    Table.Related (Tail op) q (withRow id q body).1 := by
  rw [withRow]
  cases hrow : q.get? id with
  | none => exact tail_refl q
  | some row => exact hbody row hrow

theorem tail_commitOne {α : Type} {condition : PendingApproval → Bool}
    {f : PendingApproval → PendingApproval} {missed : Reply α} {done : Queue → Reply α}
    (hmissed : Table.Related (Tail op) q missed.1)
    (hdone : Table.Related (Tail op) q (done (q.update (Table.atKey id condition) f)).1) :
    Table.Related (Tail op) q (commitOne q id condition f missed done).1 := by
  rw [commitOne]
  split_ifs
  · exact hmissed
  · exact hdone

end Parts

/-! ### Each operation -/

section Each

variable {s : Settings} {q : Queue} {id : String} {clock : Nat → Time}

theorem updateParams_related {params : Dict} :
    Table.Related (RowStep (.updateParams clock id params)) q
      (updateParams s clock id params q).1 := by
  apply rowStep_of_tail
  apply tail_withRow
  intro row _
  split_ifs
  · exact tail_refl _
  · apply tail_commitOne
    · exact tail_refl _
    · apply tail_update_get
      intro row _ hopen
      exact .params hopen

theorem rearmDeadline_related {deadline : Time} :
    Table.Related (RowStep (.rearmDeadline clock id deadline)) q
      (rearmDeadline s clock id deadline q).1 := by
  apply rowStep_of_tail
  apply tail_commitOne
  · exact tail_refl _
  · apply tail_update_get
    intro row _ hopen
    exact .deadline hopen deadline

theorem extend_related {seconds : Time} :
    Table.Related (RowStep (.extend clock id seconds)) q (extend s clock id seconds q).1 := by
  rw [extend]
  split_ifs
  · exact rowStep_direct (tail_refl q)
  · apply rowStep_of_tail
    apply tail_withRow
    intro entry _
    split_ifs
    · exact tail_refl _
    · exact tail_refl _
    all_goals
      apply tail_update_get
      intro row _ hopen
      exact .deadline hopen _

theorem expireIfUnresolved_related {op : Operation} {force : Bool} :
    Table.Related (RowStep op) q (expireIfUnresolved s clock id force q).1 := by
  apply rowStep_of_tail
  apply tail_withRow
  intro entry _
  split_ifs
  · exact tail_refl _
  · exact tail_refl _
  · exact tail_refl _
  · apply tail_update_get
    intro row _ hcondition
    rw [Bool.and_eq_true, Bool.not_eq_true'] at hcondition
    exact .expire hcondition.1

theorem waitRound_related :
    Table.Related (RowStep (.waitRound clock id)) q (waitRound s clock id q).1 := by
  have hread : Table.Related (fun _ => Lapses) q (get s id (clock 0) q).1 := by
    rw [get_fst]
    exact releaseStaleClaims_related s (clock 0)
  have hstop : Table.Related (RowStep (.waitRound clock id)) q (get s id (clock 0) q).1 :=
    rowStep_direct tail_get
  rw [waitRound]
  cases (get s id (clock 0) q).2 with
  | error e => exact hstop
  | ok entry =>
      simp only
      split_ifs
      · exact hstop
      · have hexpire : Table.Related (RowStep (.waitRound clock id)) (get s id (clock 0) q).1
            (expireIfUnresolved s (fun n => clock (n + 2)) id false (get s id (clock 0) q).1).1 :=
          expireIfUnresolved_related
        apply (hread.comp hexpire).mono
        intro key row row'' h
        obtain ⟨row', hlapse, lapsed, hlapse', htail⟩ := h
        exact ⟨lapsed, hlapse.trans hlapse', htail⟩
      · exact hstop

theorem expireClaimedResolution_related {token : String} :
    Table.Related (RowStep (.expireClaimedResolution clock id token)) q
      (expireClaimedResolution s clock id token q).1 := by
  apply rowStep_direct
  apply tail_withRow
  intro entry hentry
  split_ifs with hclaim
  · exact tail_refl _
  · apply tail_commitOne
    · exact tail_refl _
    · apply tail_update_get
      intro row hrow _
      rw [hentry, Option.some.injEq] at hrow
      rw [not_not, hrow] at hclaim
      exact .expireClaimed hclaim

theorem resolve_related {approved idempotent : Bool} {metadata : Dict} :
    Table.Related (RowStep (.resolve clock id approved idempotent metadata)) q
      (resolve s clock id approved idempotent metadata q).1 := by
  apply rowStep_of_tail
  apply tail_withRow
  intro entry hentry
  split_ifs
  · exact tail_refl _
  · exact tail_refl _
  · exact tail_refl _
  · apply tail_commitOne
    · exact tail_get
    · apply tail_update_get
      intro row hrow hopen
      rw [hentry, Option.some.injEq] at hrow
      rw [hrow]
      exact .resolve hopen

theorem claimResolution_related {token : String} {metadata : Dict} :
    Table.Related (RowStep (.claimResolution clock id token metadata)) q
      (claimResolution s clock id token metadata q).1 := by
  apply rowStep_of_tail
  apply tail_withRow
  intro entry hentry
  split_ifs
  · exact tail_refl _
  · exact tail_refl _
  · apply tail_commitOne
    · exact tail_get
    · apply tail_update_get
      intro row hrow hopen
      rw [hentry, Option.some.injEq] at hrow
      rw [hrow]
      exact .claim hopen

theorem finalizeClaimedResolution_related {token : String} {approved : Bool} :
    Table.Related (RowStep (.finalizeClaimedResolution id token approved)) q
      (finalizeClaimedResolution id token approved q).1 := by
  apply rowStep_direct
  apply tail_withRow
  intro entry _
  split_ifs
  · exact tail_refl _
  · exact tail_refl _
  · apply tail_commitOne
    · exact tail_refl _
    · rw [withRow_fst]
      apply tail_update
      intro row _ hcondition
      rw [Bool.and_eq_true, Bool.not_eq_true', decide_eq_true_eq] at hcondition
      exact .finalize hcondition.1 hcondition.2

theorem completeClaimedResolution_related {token : String} :
    Table.Related (RowStep (.completeClaimedResolution clock id token)) q
      (completeClaimedResolution s clock id token q).1 := by
  apply rowStep_direct
  apply tail_withRow
  intro entry hentry
  split_ifs with hdone hunapproved hclaim
  · exact tail_refl _
  · exact tail_refl _
  · exact tail_refl _
  · apply tail_commitOne
    · exact tail_refl _
    · apply tail_update_get
      intro row hrow hcondition
      rw [hentry, Option.some.injEq] at hrow
      rw [Bool.and_eq_true, Bool.and_eq_true] at hcondition
      rw [not_not, hrow] at hclaim
      exact .complete hcondition.1.1 hcondition.1.2 hclaim

theorem releaseResolutionClaim_related {token : String} :
    Table.Related (RowStep (.releaseResolutionClaim clock id token)) q
      (releaseResolutionClaim s clock id token q).1 := by
  apply rowStep_direct
  apply tail_withRow
  intro entry _
  split_ifs
  · exact tail_refl _
  · exact tail_refl _
  · apply tail_update_get
    intro row _ hcondition
    rw [Bool.and_eq_true, Bool.not_eq_true'] at hcondition
    exact .release hcondition.1

theorem reopenResolvedApproval_related {expected : Bool} :
    Table.Related (RowStep (.reopenResolvedApproval clock id expected)) q
      (reopenResolvedApproval s clock id expected q).1 := by
  apply rowStep_direct
  apply tail_withRow
  intro entry _
  split_ifs
  · exact tail_refl _
  · exact tail_refl _
  · apply tail_update_get
    intro row _ hcondition
    rw [Bool.and_eq_true, beq_iff_eq] at hcondition
    exact .reopen hcondition.1 hcondition.2

theorem consume_related :
    Table.Related (RowStep (.consume clock id)) q (consume s clock id q).1 := by
  apply rowStep_of_tail
  apply tail_withRow
  intro entry _
  split_ifs
  · exact tail_refl _
  · exact tail_refl _
  · exact tail_refl _
  · apply tail_commitOne
    · exact tail_get
    · apply tail_update_get
      intro row _ hcondition
      simp only [Bool.and_eq_true, Bool.not_eq_true', Option.isNone_iff_eq_none] at hcondition
      obtain ⟨⟨⟨hresolved, happroved⟩, hconsumed⟩, hclaim⟩ := hcondition
      exact .consume hresolved happroved hconsumed hclaim

end Each

/-! ### Every operation -/

/-- How a row is inserted. -/
structure Fresh (row : PendingApproval) : Prop where
  unresolved : row.resolved = false
  unapproved : row.approved = false
  unconsumed : row.consumed = false
  unclaimed : row.claimToken = none

theorem request_get? (s : Settings) (space : String) (params : Dict)
    (drawn : List (String × Time)) (q : Queue) (id : String) :
    (request s space params drawn q).1.get? id = q.get? id ∨
      q.get? id = none ∧
        ∃ row, (request s space params drawn q).1.get? id = some row ∧ Fresh row ∧
          row.params = params ∧ row.space = space ∧
          (request s space params drawn q).2 = some id := by
  induction drawn with
  | nil => exact .inl rfl
  | cons first rest ih =>
      obtain ⟨approvalId, now⟩ := first
      rw [request]
      split
      case h_1 q' hinsert =>
        obtain ⟨hnone, hrow⟩ := Table.get?_of_insert? id hinsert
        by_cases hid : id = approvalId
        · rw [if_pos hid] at hrow
          right
          rw [hid]
          rw [hid] at hrow
          exact ⟨hnone, _, hrow, ⟨rfl, rfl, rfl, rfl⟩, rfl, rfl, rfl⟩
        · rw [if_neg hid] at hrow
          exact .inl hrow
      case h_2 => exact ih

variable {s : Settings} {op : Operation} {q : Queue} {id : String} {row row' : PendingApproval}

theorem perform_related (hop : op.isRequest = false) :
    Table.Related (RowStep op) q (perform s op q).1 := by
  cases op with
  | restart now => exact rowStep_of_tail (tail_refl _)
  | request space params drawn => exact absurd hop (by simp [Operation.isRequest])
  | get now id => exact rowStep_direct tail_get
  | listPending space now => exact rowStep_of_tail (tail_refl _)
  | updateParams clock id params => exact updateParams_related
  | rearmDeadline clock id deadline => exact rearmDeadline_related
  | extend clock id seconds => exact extend_related
  | waitRound clock id => exact waitRound_related
  | expirePending clock id => exact expireIfUnresolved_related
  | expireClaimedResolution clock id token => exact expireClaimedResolution_related
  | resolve clock id approved idempotent metadata => exact resolve_related
  | claimResolution clock id token metadata => exact claimResolution_related
  | finalizeClaimedResolution id token approved => exact finalizeClaimedResolution_related
  | completeClaimedResolution clock id token => exact completeClaimedResolution_related
  | releaseResolutionClaim clock id token => exact releaseResolutionClaim_related
  | reopenResolvedApproval clock id expected => exact reopenResolvedApproval_related
  | consume clock id => exact consume_related

theorem perform_row (s : Settings) (op : Operation) (hrow : q.get? id = some row) :
    ∃ row', (perform s op q).1.get? id = some row' ∧ RowStep op id row row' := by
  cases hop : op.isRequest with
  | false => exact (perform_related hop).of_some hrow
  | true =>
      cases op with
      | request space params drawn =>
          obtain hsame | ⟨hnone, _⟩ := request_get? s space params drawn q id
          · exact ⟨row, hsame.trans hrow, .of_tail (.refl row)⟩
          · rw [hrow] at hnone
            exact absurd hnone (by simp)
      | _ => exact absurd hop (by simp [Operation.isRequest])

theorem perform_new (hnone : q.get? id = none) (hrow : (perform s op q).1.get? id = some row) :
    Fresh row ∧ ∃ space params drawn, op = .request space params drawn ∧ row.params = params ∧
      row.space = space := by
  cases hop : op.isRequest with
  | false =>
      rw [(perform_related hop).of_none hnone] at hrow
      exact absurd hrow (by simp)
  | true =>
      cases op with
      | request space params drawn =>
          obtain hsame | ⟨_, row', hrow', hfresh, hparams, hspace, _⟩ :=
            request_get? s space params drawn q id
          · have hsome : some row = none := hrow.symm.trans (hsame.trans hnone)
            exact absurd hsome (by simp)
          · have hsame : row = row' := Option.some.inj (hrow.symm.trans hrow')
            rw [hsame]
            exact ⟨hfresh, space, params, drawn, rfl, hparams, hspace⟩
      | _ => exact absurd hop (by simp [Operation.isRequest])

end OpenStarry.Approval
