import OpenStarry.Approval.Rows

/-!
# What holds of approvals in every run

A consumed row is approved and an approved row is resolved. A row becomes approved by a resolution
that says so, or by the holder of the claim that has held the row ever since it was made. A settled
row keeps its decision until it is reopened, and between two reopenings it is consumed once at most.
Neither the order of the clock readings nor that claim tokens are fresh is needed.
-/

namespace OpenStarry.Approval

open Lib Text

namespace PendingApproval

/-- Consumed rows are approved, and approved rows are resolved. -/
structure WellFormed (row : PendingApproval) : Prop where
  approved_of_consumed : row.consumed = true → row.approved = true
  resolved_of_approved : row.approved = true → row.resolved = true

/-- A decision that no claim is still working on. -/
structure Settled (row : PendingApproval) : Prop where
  resolved : row.resolved = true
  unclaimed : row.claim = none

/-- A settled row that was consumed. -/
structure Spent (row : PendingApproval) : Prop extends Settled row where
  consumed : row.consumed = true

/-- Two rows carry one decision. -/
structure SameDecision (row row' : PendingApproval) : Prop where
  approved : row'.approved = row.approved
  resolution : row'.resolution = row.resolution
  params : row'.params = row.params

end PendingApproval

section Facts

variable {op : Operation} {id : String} {row row' : PendingApproval}

theorem isOpen_iff : row.isOpen = true ↔ row.resolved = false ∧ row.claimToken = none := by
  simp [PendingApproval.isOpen]

theorem unresolved_of_isOpen (hopen : row.isOpen = true) : row.resolved = false :=
  (isOpen_iff.mp hopen).1

theorem PendingApproval.WellFormed.unconsumed (h : row.WellFormed)
    (hresolved : row.resolved = false) : row.consumed = false := by
  by_contra hconsumed
  rw [Bool.not_eq_false] at hconsumed
  have hcontra := h.resolved_of_approved (h.approved_of_consumed hconsumed)
  rw [hresolved] at hcontra
  exact absurd hcontra (by simp)

theorem Lapses.eq_of_resolved (h : Lapses row row') (hresolved : row'.resolved = true) :
    row' = row := by
  obtain heq | ⟨hunresolved, heq⟩ := h
  · exact heq
  · rw [heq, PendingApproval.dropClaim, hunresolved] at hresolved
    exact absurd hresolved (by simp)

theorem Lapses.eq_of_resolved_left (h : Lapses row row') (hresolved : row.resolved = true) :
    row' = row := by
  obtain heq | ⟨hunresolved, heq⟩ := h
  · exact heq
  · rw [hunresolved] at hresolved
    exact absurd hresolved (by simp)

end Facts

/-! ### Well-formed rows -/

section WellFormed

variable {op : Operation} {id : String} {row row' : PendingApproval}

theorem Lapses.wellFormed (h : Lapses row row') (hrow : row.WellFormed) : row'.WellFormed := by
  obtain rfl | ⟨_, rfl⟩ := h
  · exact hrow
  · exact ⟨hrow.approved_of_consumed, hrow.resolved_of_approved⟩

theorem Moves.wellFormed (h : Moves id op row row') (hrow : row.WellFormed) : row'.WellFormed := by
  cases h with
  | stay => exact hrow
  | params => exact ⟨hrow.approved_of_consumed, hrow.resolved_of_approved⟩
  | deadline => exact ⟨hrow.approved_of_consumed, hrow.resolved_of_approved⟩
  | expire hresolved =>
      constructor
      · intro hconsumed
        exact absurd ((hrow.unconsumed hresolved).symm.trans hconsumed) (by simp)
      · intro happroved
        rfl
  | expireClaimed => exact ⟨fun hconsumed => hconsumed, fun _ => rfl⟩
  | resolve hopen =>
      constructor
      · intro hconsumed
        have hunconsumed := hrow.unconsumed (unresolved_of_isOpen hopen)
        exact absurd (hunconsumed.symm.trans hconsumed) (by simp)
      · intro happroved
        rfl
  | claim => exact ⟨hrow.approved_of_consumed, hrow.resolved_of_approved⟩
  | finalize hresolved =>
      constructor
      · intro hconsumed
        exact absurd ((hrow.unconsumed hresolved).symm.trans hconsumed) (by simp)
      · intro happroved
        rfl
  | complete => exact ⟨hrow.approved_of_consumed, hrow.resolved_of_approved⟩
  | release => exact ⟨hrow.approved_of_consumed, hrow.resolved_of_approved⟩
  | reopen => exact ⟨fun hconsumed => hconsumed, fun happroved => happroved⟩
  | consume hresolved happroved => exact ⟨fun _ => happroved, fun _ => hresolved⟩

theorem RowStep.wellFormed (h : RowStep op id row row') (hrow : row.WellFormed) :
    row'.WellFormed := by
  obtain ⟨lapsed, hlapse, moved, hmoved, hlapse'⟩ := h
  exact hlapse'.wellFormed (hmoved.wellFormed (hlapse.wellFormed hrow))

theorem Fresh.wellFormed (h : Fresh row) : row.WellFormed := by
  constructor
  · intro hconsumed
    exact absurd (h.unconsumed.symm.trans hconsumed) (by simp)
  · intro happroved
    exact absurd (h.unapproved.symm.trans happroved) (by simp)

end WellFormed

/-! ### Properties of all rows over a run -/

variable {s : Settings}

theorem run_forall {P : PendingApproval → Prop} (hfresh : ∀ row, Fresh row → P row)
    (hstep : ∀ op id row row', RowStep op id row row' → P row → P row') (ops : List Operation)
    {q : Queue} (hq : ∀ id row, q.get? id = some row → P row) {id : String} {row : PendingApproval}
    (hrow : (run s ops q).get? id = some row) : P row := by
  induction ops generalizing q with
  | nil => exact hq id row hrow
  | cons op rest ih =>
      apply ih _ hrow
      intro id row' hrow'
      cases hbefore : q.get? id with
      | none => exact hfresh row' (perform_new hbefore hrow').1
      | some row =>
          obtain ⟨row'', hrow'', hmoved⟩ := perform_row s op hbefore
          have hsame : row' = row'' := Option.some.inj (hrow'.symm.trans hrow'')
          rw [hsame]
          exact hstep op id row row'' hmoved (hq id row hbefore)

theorem run_wellFormed (past : List Operation) {id : String} {row : PendingApproval}
    (hrow : (run s past Table.empty).get? id = some row) : row.WellFormed := by
  apply run_forall (fun row hfresh => hfresh.wellFormed) _ past _ hrow
  · intro op id row row' hstep hwell
    exact hstep.wellFormed hwell
  · intro id row hempty
    exact absurd hempty (by simp)

/-! ### How a row becomes approved -/

section Approved

variable {op : Operation} {id : String} {row row' : PendingApproval}

theorem Lapses.approved (h : Lapses row row') : row'.approved = row.approved := by
  obtain rfl | ⟨_, rfl⟩ := h <;> rfl

theorem Lapses.claimToken {token : String} (h : Lapses row row')
    (hclaim : row'.claimToken = some token) : row' = row := by
  obtain heq | ⟨_, heq⟩ := h
  · exact heq
  · rw [heq] at hclaim
    exact absurd hclaim (by simp [PendingApproval.dropClaim])

theorem RowStep.approves (h : RowStep op id row row') (hbefore : row.approved = false)
    (hafter : row'.approved = true) :
    (∃ clock idempotent metadata, op = .resolve clock id true idempotent metadata) ∨
      ∃ token, op = .finalizeClaimedResolution id token true ∧ row.claimToken = some token := by
  obtain ⟨lapsed, hlapse, moved, hmoved, hlapse'⟩ := h
  rw [hlapse'.approved] at hafter
  rw [← hlapse.approved] at hbefore
  cases hmoved with
  | resolve hopen =>
      simp only at hafter
      rw [hafter]
      exact .inl ⟨_, _, _, rfl⟩
  | finalize hresolved hclaim =>
      simp only at hafter
      rw [hafter]
      right
      exact ⟨_, rfl, hlapse.claimToken hclaim ▸ hclaim⟩
  | consume _ happroved => exact absurd (hbefore.symm.trans happroved) (by simp)
  | complete _ happroved => exact absurd (hbefore.symm.trans happroved) (by simp)
  | stay => exact absurd (hbefore.symm.trans hafter) (by simp)
  | params => exact absurd (hbefore.symm.trans hafter) (by simp)
  | deadline => exact absurd (hbefore.symm.trans hafter) (by simp)
  | claim => exact absurd (hbefore.symm.trans hafter) (by simp)
  | release => exact absurd (hbefore.symm.trans hafter) (by simp)
  | expire => exact absurd hafter (by simp)
  | expireClaimed => exact absurd hafter (by simp)
  | reopen => exact absurd hafter (by simp)

theorem RowStep.claims {token : String} (h : RowStep op id row row')
    (hafter : row'.claimToken = some token) :
    row.claimToken = some token ∨
      row.claimToken ≠ some token ∧
        ∃ clock metadata, op = .claimResolution clock id token metadata := by
  by_cases hbefore : row.claimToken = some token
  · exact .inl hbefore
  · right
    refine ⟨hbefore, ?_⟩
    obtain ⟨lapsed, hlapse, moved, hmoved, hlapse'⟩ := h
    rw [hlapse'.claimToken hafter] at hafter
    have hlapsed : lapsed.claimToken ≠ some token := by
      intro hclaim
      rw [hlapse.claimToken hclaim] at hclaim
      exact hbefore hclaim
    cases hmoved with
    | claim =>
        simp only [Option.some.injEq] at hafter
        rw [hafter]
        exact ⟨_, _, rfl⟩
    | stay => exact absurd hafter hlapsed
    | params => exact absurd hafter hlapsed
    | deadline => exact absurd hafter hlapsed
    | resolve => exact absurd hafter hlapsed
    | finalize => exact absurd hafter hlapsed
    | consume => exact absurd hafter hlapsed
    | complete => exact absurd hafter (by simp [PendingApproval.dropClaim])
    | release => exact absurd hafter (by simp [PendingApproval.dropClaim])
    | expire => exact absurd hafter (by simp)
    | expireClaimed => exact absurd hafter (by simp)
    | reopen => exact absurd hafter (by simp)

end Approved

/-- The row is held by the token in the state `q`. -/
def HeldBy (q : Queue) (id token : String) : Prop :=
  ∃ row, q.get? id = some row ∧ row.claimToken = some token

/-- The claim made with the token is the current one: it took the row in `past`, and the row has been
held by it in every state since. -/
def CurrentClaim (s : Settings) (past : List Operation) (id token : String) : Prop :=
  ∃ before clock metadata since,
    past = before ++ .claimResolution clock id token metadata :: since ∧
      ¬ HeldBy (run s before Table.empty) id token ∧
      ∀ after, after <+: since →
        HeldBy (run s (before ++ .claimResolution clock id token metadata :: after) Table.empty)
          id token

theorem run_concat (s : Settings) (past : List Operation) (op : Operation) (q : Queue) :
    run s (past ++ [op]) q = (perform s op (run s past q)).1 := by
  rw [run_append]
  rfl

theorem currentClaim_of_heldBy (past : List Operation) {id token : String}
    (hheld : HeldBy (run s past Table.empty) id token) : CurrentClaim s past id token := by
  induction past using List.reverseRecOn with
  | nil =>
      obtain ⟨row, hrow, _⟩ := hheld
      exact absurd hrow (by simp [run])
  | append_singleton past op ih =>
      obtain ⟨row', hrow', hclaim⟩ := hheld
      rw [run_concat] at hrow'
      cases hbefore : (run s past Table.empty).get? id with
      | none =>
          rw [(perform_new hbefore hrow').1.unclaimed] at hclaim
          exact absurd hclaim (by simp)
      | some row =>
          obtain ⟨row'', hrow'', hstep⟩ := perform_row s op hbefore
          have hsame : row' = row'' := Option.some.inj (hrow'.symm.trans hrow'')
          rw [hsame] at hclaim
          obtain hheld | ⟨hfree, clock, metadata, hop⟩ := hstep.claims hclaim
          · obtain ⟨before, clock, metadata, since, hpast, hfree, hsince⟩ :=
              ih ⟨row, hbefore, hheld⟩
            refine ⟨before, clock, metadata, since ++ [op], by simp [hpast], hfree, ?_⟩
            intro after hafter
            obtain heq | hbegins := List.prefix_concat_iff.mp hafter
            · refine ⟨row'', ?_, hclaim⟩
              have hall : before ++ .claimResolution clock id token metadata :: after =
                  past ++ [op] := by simp [hpast, heq]
              rw [hall, run_concat, hrow'']
            · exact hsince after hbegins
          · refine ⟨past, clock, metadata, [], by rw [hop], ?_, ?_⟩
            · rintro ⟨other, hother, hheld⟩
              rw [hbefore, Option.some.injEq] at hother
              rw [hother] at hfree
              exact hfree hheld
            · intro after hafter
              rw [List.prefix_nil.mp hafter, ← hop, run_concat]
              exact ⟨row'', hrow'', hclaim⟩

/-! ### Settled rows -/

section Settled

variable {op : Operation} {id : String} {row row' : PendingApproval}

theorem Moves.settled (h : Moves id op row row') (hsettled : row.Settled)
    (hop : op.isReopenOf id = false) : row'.Settled ∧ row.SameDecision row' := by
  have hresolved {P : Prop} (hunresolved : row.resolved = false) : P :=
    absurd (hunresolved.symm.trans hsettled.resolved) (by simp)
  cases h with
  | stay => exact ⟨hsettled, ⟨rfl, rfl, rfl⟩⟩
  | consume hresolved happroved hconsumed hclaim =>
      exact ⟨⟨hsettled.resolved, hsettled.unclaimed⟩, ⟨rfl, rfl, rfl⟩⟩
  | complete _ _ hclaim => exact absurd (hsettled.unclaimed.symm.trans hclaim) (by simp)
  | expireClaimed hclaim => exact absurd (hsettled.unclaimed.symm.trans hclaim) (by simp)
  | reopen => exact absurd hop (by simp [Operation.isReopenOf])
  | params hopen => exact hresolved (unresolved_of_isOpen hopen)
  | deadline hopen => exact hresolved (unresolved_of_isOpen hopen)
  | resolve hopen => exact hresolved (unresolved_of_isOpen hopen)
  | claim hopen => exact hresolved (unresolved_of_isOpen hopen)
  | expire hunresolved => exact hresolved hunresolved
  | finalize hunresolved => exact hresolved hunresolved
  | release hunresolved => exact hresolved hunresolved

theorem RowStep.settled (h : RowStep op id row row') (hsettled : row.Settled)
    (hop : op.isReopenOf id = false) : row'.Settled ∧ row.SameDecision row' := by
  obtain ⟨lapsed, hlapse, moved, hmoved, hlapse'⟩ := h
  rw [hlapse.eq_of_resolved_left hsettled.resolved] at hmoved
  obtain ⟨hmovedSettled, hsame⟩ := hmoved.settled hsettled hop
  rw [hlapse'.eq_of_resolved_left hmovedSettled.resolved]
  exact ⟨hmovedSettled, hsame⟩

end Settled

theorem run_settled (future : List Operation) {q : Queue} {id : String} {row : PendingApproval}
    (hrow : q.get? id = some row) (hsettled : row.Settled)
    (hfuture : ∀ op ∈ future, op.isReopenOf id = false) :
    ∃ row', (run s future q).get? id = some row' ∧ row'.Settled ∧ row.SameDecision row' := by
  induction future generalizing q row with
  | nil => exact ⟨row, hrow, hsettled, ⟨rfl, rfl, rfl⟩⟩
  | cons op rest ih =>
      rw [List.forall_mem_cons] at hfuture
      obtain ⟨row', hrow', hstep⟩ := perform_row s op hrow
      obtain ⟨hsettled', hsame⟩ := hstep.settled hsettled hfuture.1
      obtain ⟨row'', hrow'', hsettled'', hsame'⟩ := ih hrow' hsettled' hfuture.2
      exact ⟨row'', hrow'', hsettled'', ⟨hsame'.approved.trans hsame.approved,
        hsame'.resolution.trans hsame.resolution, hsame'.params.trans hsame.params⟩⟩

/-! ### Consuming once -/

def reopens (s : Settings) (id : String) (op : Operation) (q : Queue) : Bool :=
  op.isReopenOf id && (q.get? id).any PendingApproval.resolved &&
    ((perform s op q).1.get? id).any fun row => !row.resolved

def consumes (s : Settings) (id : String) (op : Operation) (q : Queue) : Bool :=
  op.isConsumeOf id && (perform s op q).2.isOk

def countSteps (s : Settings) (kind : Operation → Queue → Bool) : List Operation → Queue → Nat
  | [], _ => 0
  | op :: rest, q => (kind op q).toNat + countSteps s kind rest (perform s op q).1

section Consume

variable {op : Operation} {id : String} {row row' : PendingApproval} {q : Queue}

theorem Moves.spent (h : Moves id op row row') (hspent : row.Spent) :
    row'.Spent ∨ op.isReopenOf id = true ∧ row'.resolved = false := by
  have hsettled := hspent.toSettled
  by_cases hop : op.isReopenOf id = true
  · cases h with
    | stay => exact .inl hspent
    | reopen => exact .inr ⟨hop, rfl⟩
    | deadline hopen =>
        have hcontra := (unresolved_of_isOpen hopen).symm.trans hsettled.resolved
        exact absurd hcontra (by simp)
    | expire hunresolved =>
        exact absurd (hunresolved.symm.trans hsettled.resolved) (by simp)
    | _ => exact absurd hop (by simp [Operation.isReopenOf])
  · rw [Bool.not_eq_true] at hop
    left
    refine ⟨(h.settled hsettled hop).1, ?_⟩
    cases h with
    | stay => exact hspent.consumed
    | consume => rfl
    | complete => exact hspent.consumed
    | expireClaimed hclaim => exact absurd (hsettled.unclaimed.symm.trans hclaim) (by simp)
    | reopen => exact absurd hop (by simp [Operation.isReopenOf])
    | params => exact hspent.consumed
    | deadline => exact hspent.consumed
    | resolve => exact hspent.consumed
    | claim => exact hspent.consumed
    | expire => exact hspent.consumed
    | finalize => exact hspent.consumed
    | release => exact hspent.consumed

theorem RowStep.spent (h : RowStep op id row row') (hspent : row.Spent) :
    row'.Spent ∨ op.isReopenOf id = true ∧ row'.resolved = false := by
  obtain ⟨lapsed, hlapse, moved, hmoved, hlapse'⟩ := h
  rw [hlapse.eq_of_resolved_left hspent.resolved] at hmoved
  obtain hmovedSpent | ⟨hop, hunresolved⟩ := hmoved.spent hspent
  · rw [hlapse'.eq_of_resolved_left hmovedSpent.resolved]
    exact .inl hmovedSpent
  · right
    refine ⟨hop, ?_⟩
    obtain rfl | ⟨_, rfl⟩ := hlapse'
    · exact hunresolved
    · exact hunresolved

theorem releaseStaleClaims_get? {now : Time} {entry : PendingApproval}
    (hentry : (releaseStaleClaims s now q).get? id = some entry) :
    ∃ row, q.get? id = some row ∧ Lapses row entry := by
  cases hrow : q.get? id with
  | none =>
      rw [(releaseStaleClaims_related s now).of_none hrow] at hentry
      exact absurd hentry (by simp)
  | some row =>
      obtain ⟨row', hrow', hlapse⟩ :=
        (releaseStaleClaims_related s now).of_some hrow
      have hsame : entry = row' := Option.some.inj (hentry.symm.trans hrow')
      exact ⟨row, rfl, hsame ▸ hlapse⟩

theorem releaseStaleClaims_resolved {now : Time} (hrow : q.get? id = some row)
    (hresolved : row.resolved = true) : (releaseStaleClaims s now q).get? id = some row := by
  obtain ⟨row', hrow', hlapse⟩ :=
    (releaseStaleClaims_related s now).of_some hrow
  rw [hrow', hlapse.eq_of_resolved_left hresolved]

theorem consume_isOk {clock : Nat → Time} (h : (consume s clock id q).2.isOk = true) :
    ∃ row, q.get? id = some row ∧ row.Settled ∧ row.approved = true ∧ row.consumed = false ∧
      (consume s clock id q).1.get? id = some { row with consumed := true } := by
  unfold consume at h ⊢
  simp only at h ⊢
  cases hentry : (releaseStaleClaims s (clock 0) q).get? id with
  | none =>
      rw [withRow, hentry] at h
      exact absurd h (by simp [Except.isOk, Except.toBool])
  | some entry =>
      rw [withRow, hentry] at h ⊢
      simp only at h ⊢
      by_cases hclaim : entry.claim.isSome = true
      · rw [if_pos hclaim] at h
        exact absurd h (by simp [Except.isOk, Except.toBool])
      by_cases happroved : (!entry.resolved || !entry.approved) = true
      · rw [if_neg hclaim, if_pos happroved] at h
        exact absurd h (by simp [Except.isOk, Except.toBool])
      by_cases hconsumed : entry.consumed = true
      · rw [if_neg hclaim, if_neg happroved, if_pos hconsumed] at h
        exact absurd h (by simp [Except.isOk, Except.toBool])
      rw [if_neg hclaim, if_neg happroved, if_neg hconsumed, commitOne] at h ⊢
      have hresolved : entry.resolved = true ∧ entry.approved = true := by simpa using happroved
      obtain ⟨row, hrow, hlapse⟩ := releaseStaleClaims_get? hentry
      have hsame : entry = row := hlapse.eq_of_resolved hresolved.1
      split_ifs at h ⊢ with hcount
      · cases hread : (get s id (clock 1) (releaseStaleClaims s (clock 0) q)).2 <;>
          rw [hread] at h <;> exact absurd h (by simp [Except.isOk, Except.toBool, Except.bind])
      · rw [← hsame] at hrow
        have hunclaimed : entry.claim = none := by simpa using hclaim
        have hunconsumed : entry.consumed = false := by simpa using hconsumed
        refine ⟨entry, hrow, ⟨hresolved.1, hunclaimed⟩, hresolved.2, hunconsumed, ?_⟩
        have hcondition : (entry.resolved && entry.approved && !entry.consumed &&
            entry.claimToken.isNone) = true := by
          rw [Table.rowcount_atKey, hentry] at hcount
          by_contra hcontra
          exact hcount (by simpa using hcontra)
        have hcommitted : ((releaseStaleClaims s (clock 0) q).update (Table.atKey id fun row =>
            row.resolved && row.approved && !row.consumed && row.claimToken.isNone)
            fun row => { row with consumed := true }).get? id =
              some { entry with consumed := true } := by
          rw [Table.get?_update, hentry, Option.map_some, Table.atKey, hcondition, decide_eq_true rfl,
            Bool.and_self, if_pos rfl]
        simp only [get_fst]
        exact releaseStaleClaims_resolved hcommitted hresolved.1

theorem not_consumes_of_spent (hrow : q.get? id = some row) (hspent : row.Spent) :
    consumes s id op q = false := by
  cases op with
  | consume clock i =>
      by_contra hconsumes
      rw [Bool.not_eq_false, consumes, Bool.and_eq_true, Operation.isConsumeOf,
        decide_eq_true_eq] at hconsumes
      obtain ⟨rfl, hok⟩ := hconsumes
      obtain ⟨row', hrow', _, _, hunconsumed, _⟩ := consume_isOk hok
      rw [hrow, Option.some.injEq] at hrow'
      rw [← hrow', hspent.consumed] at hunconsumed
      exact absurd hunconsumed (by simp)
  | _ => rfl

theorem spent_of_consumes (h : consumes s id op q = true) :
    ∃ row, (perform s op q).1.get? id = some row ∧ row.Spent := by
  cases op with
  | consume clock i =>
      rw [consumes, Bool.and_eq_true, Operation.isConsumeOf, decide_eq_true_eq] at h
      obtain ⟨rfl, hok⟩ := h
      obtain ⟨row, _, hsettled, _, _, hrow⟩ := consume_isOk hok
      exact ⟨_, hrow, ⟨⟨hsettled.resolved, hsettled.unclaimed⟩, rfl⟩⟩
  | _ => exact absurd h (by simp [consumes, Operation.isConsumeOf])

theorem countSteps_cons {kind : Operation → Queue → Bool} {rest : List Operation} :
    countSteps s kind (op :: rest) q =
      (kind op q).toNat + countSteps s kind rest (perform s op q).1 := rfl

theorem countSteps_of_spent (future : List Operation) (hrow : q.get? id = some row)
    (hspent : row.Spent) (hreopens : countSteps s (reopens s id) future q = 0) :
    countSteps s (consumes s id) future q = 0 := by
  induction future generalizing q row with
  | nil => rfl
  | cons op rest ih =>
      rw [countSteps_cons, Nat.add_eq_zero_iff] at hreopens
      obtain ⟨hreopens, hrest⟩ := hreopens
      rw [countSteps_cons, not_consumes_of_spent hrow hspent, Bool.toNat_false, Nat.zero_add]
      obtain ⟨row', hrow', hstep⟩ := perform_row s op hrow
      obtain hspent' | ⟨hop, hunresolved⟩ := hstep.spent hspent
      · exact ih hrow' hspent' hrest
      · have hcontra : reopens s id op q = true := by
          simp [reopens, hop, hrow, hrow', hspent.resolved, hunresolved]
        rw [hcontra] at hreopens
        exact absurd hreopens (by simp)

theorem countSteps_consumes_le (future : List Operation)
    (hreopens : countSteps s (reopens s id) future q = 0) :
    countSteps s (consumes s id) future q ≤ 1 := by
  induction future generalizing q with
  | nil => exact Nat.zero_le 1
  | cons op rest ih =>
      rw [countSteps_cons, Nat.add_eq_zero_iff] at hreopens
      obtain ⟨_, hrest⟩ := hreopens
      rw [countSteps_cons]
      cases hconsumes : consumes s id op q with
      | false =>
          rw [Bool.toNat_false, Nat.zero_add]
          exact ih hrest
      | true =>
          obtain ⟨row, hrow, hspent⟩ := spent_of_consumes hconsumes
          rw [countSteps_of_spent rest hrow hspent hrest]
          exact Nat.le_refl 1

end Consume

/-! ### Resolved rows -/

section Resolved

variable {op : Operation} {id : String} {row row' : PendingApproval}

theorem Lapses.params (h : Lapses row row') : row'.params = row.params := by
  obtain rfl | ⟨_, rfl⟩ := h <;> rfl

theorem Lapses.space (h : Lapses row row') : row'.space = row.space := by
  obtain rfl | ⟨_, rfl⟩ := h <;> rfl

theorem RowStep.space (h : RowStep op id row row') : row'.space = row.space := by
  obtain ⟨lapsed, hlapse, moved, hmoved, hlapse'⟩ := h
  rw [hlapse'.space, ← hlapse.space]
  cases hmoved <;> rfl

theorem RowStep.resolved (h : RowStep op id row row') (hop : op.isReopenOf id = false)
    (hresolved : row.resolved = true) :
    row'.resolved = true ∧ row'.params = row.params ∧
      (row'.approved = true → row.approved = true) := by
  obtain ⟨lapsed, hlapse, moved, hmoved, hlapse'⟩ := h
  rw [hlapse.eq_of_resolved_left hresolved] at hmoved
  have hcontra {P : Prop} (hunresolved : row.resolved = false) : P :=
    absurd (hunresolved.symm.trans hresolved) (by simp)
  have hmain : moved.resolved = true ∧ moved.params = row.params ∧
      (moved.approved = true → row.approved = true) := by
    cases hmoved with
    | stay => exact ⟨hresolved, rfl, fun h => h⟩
    | complete => exact ⟨hresolved, rfl, fun h => h⟩
    | consume => exact ⟨hresolved, rfl, fun h => h⟩
    | expireClaimed => exact ⟨rfl, rfl, fun h => absurd h (by simp)⟩
    | reopen => exact absurd hop (by simp [Operation.isReopenOf])
    | params hopen => exact hcontra (unresolved_of_isOpen hopen)
    | deadline hopen => exact hcontra (unresolved_of_isOpen hopen)
    | resolve hopen => exact hcontra (unresolved_of_isOpen hopen)
    | claim hopen => exact hcontra (unresolved_of_isOpen hopen)
    | expire hunresolved => exact hcontra hunresolved
    | finalize hunresolved => exact hcontra hunresolved
    | release hunresolved => exact hcontra hunresolved
  rw [hlapse'.eq_of_resolved_left hmain.1]
  exact hmain

/-- A row and its value later in a run. -/
structure Later (row row' : PendingApproval) : Prop where
  params : row.resolved = true → row'.params = row.params
  resolved : row.resolved = true → row'.resolved = true
  approved : row.resolved = true → row'.approved = true → row.approved = true
  spent : row.Spent → row'.Spent

theorem Later.refl (row : PendingApproval) : Later row row :=
  ⟨fun _ => rfl, fun h => h, fun _ h => h, fun h => h⟩

theorem Later.trans {a b c : PendingApproval} (hfirst : Later a b) (hsecond : Later b c) :
    Later a c where
  params h := (hsecond.params (hfirst.resolved h)).trans (hfirst.params h)
  resolved h := hsecond.resolved (hfirst.resolved h)
  approved h happroved := hfirst.approved h (hsecond.approved (hfirst.resolved h) happroved)
  spent h := hsecond.spent (hfirst.spent h)

theorem RowStep.later (h : RowStep op id row row') (hop : op.isReopenOf id = false) :
    Later row row' where
  params hresolved := (h.resolved hop hresolved).2.1
  resolved hresolved := (h.resolved hop hresolved).1
  approved hresolved := (h.resolved hop hresolved).2.2
  spent hspent := by
    obtain hspent' | ⟨hreopen, _⟩ := h.spent hspent
    · exact hspent'
    · exact absurd (hop.symm.trans hreopen) (by simp)

end Resolved

/-! ### The queue in every run -/

def BecomesApproved (s : Settings) (op : Operation) (id : String) (q : Queue) : Prop :=
  (q.get? id).all (fun row => !row.approved) = true ∧
    ((perform s op q).1.get? id).any PendingApproval.approved = true

theorem approves_of_becomesApproved {past : List Operation} {op : Operation} {id : String}
    (h : BecomesApproved s op id (run s past Table.empty)) :
    (∃ clock idempotent metadata, op = .resolve clock id true idempotent metadata) ∨
      ∃ token, op = .finalizeClaimedResolution id token true ∧ CurrentClaim s past id token := by
  obtain ⟨hbefore, hafter⟩ := h
  rw [Option.any_eq_true] at hafter
  obtain ⟨row', hrow', happroved⟩ := hafter
  cases hrow : (run s past Table.empty).get? id with
  | none =>
      have hunapproved := (perform_new hrow hrow').1.unapproved
      exact absurd (hunapproved.symm.trans happroved) (by simp)
  | some row =>
      obtain ⟨row'', hrow'', hstep⟩ := perform_row s op hrow
      have hsame : row' = row'' := Option.some.inj (hrow'.symm.trans hrow'')
      rw [hsame] at happroved
      rw [hrow] at hbefore
      obtain hresolve | ⟨token, hop, hclaim⟩ :=
        hstep.approves (by simpa using hbefore) happroved
      · exact .inl hresolve
      · exact .inr ⟨token, hop, currentClaim_of_heldBy past ⟨row, hrow, hclaim⟩⟩

/-- Behind every run: rows are well formed, become approved by a resolution or by the holder of the
current claim, keep their decision once settled, and are consumed once at most until reopened. -/
theorem approvals_sound (s : Settings) (past : List Operation) (id : String) :
    (∀ row, (run s past Table.empty).get? id = some row →
      (row.consumed = true → row.resolved = true ∧ row.approved = true) ∧
        (row.approved = true → row.resolved = true)) ∧
    (∀ op, BecomesApproved s op id (run s past Table.empty) →
      (∃ clock idempotent metadata, op = .resolve clock id true idempotent metadata) ∨
        ∃ token, op = .finalizeClaimedResolution id token true ∧
          CurrentClaim s past id token) ∧
    (∀ row future, (run s past Table.empty).get? id = some row → row.Settled →
      (∀ op ∈ future, op.isReopenOf id = false) →
      ∃ row', (run s (past ++ future) Table.empty).get? id = some row' ∧ row'.Settled ∧
        row.SameDecision row') ∧
    ∀ future, countSteps s (reopens s id) future (run s past Table.empty) = 0 →
      countSteps s (consumes s id) future (run s past Table.empty) ≤ 1 := by
  refine ⟨?_, ?_, ?_, ?_⟩
  · intro row hrow
    have hwell := run_wellFormed past hrow
    refine ⟨?_, hwell.resolved_of_approved⟩
    intro hconsumed
    have happroved := hwell.approved_of_consumed hconsumed
    exact ⟨hwell.resolved_of_approved happroved, happroved⟩
  · intro op happroves
    exact approves_of_becomesApproved happroves
  · intro row future hrow hsettled hfuture
    rw [run_append]
    exact run_settled future hrow hsettled hfuture
  · intro future hreopens
    exact countSteps_consumes_le future hreopens

def claimedRun : List Operation :=
  [.request "exec" [] [("a1", 0)], .claimResolution (fun _ => 1) "a1" "t1" [],
    .finalizeClaimedResolution "a1" "t1" true, .completeClaimedResolution (fun _ => 2) "a1" "t1"]

def consumeTwice : List Operation := [.consume (fun _ => 3) "a1", .consume (fun _ => 4) "a1"]

theorem approvals_sound_claimed :
    CurrentClaim (.create none 60) (claimedRun.take 2) "a1" "t1" ∧
      countSteps (.create none 60) (consumes (.create none 60) "a1") consumeTwice
        (run (.create none 60) claimedRun Table.empty) ≤ 1 := by
  constructor
  · obtain ⟨_, _, _, hop⟩ | ⟨token, hop, hclaim⟩ :=
      (approvals_sound (.create none 60) (claimedRun.take 2) "a1").2.1
        (.finalizeClaimedResolution "a1" "t1" true) (by unfold BecomesApproved; decide +kernel)
    · exact absurd hop (by simp)
    · rw [Operation.finalizeClaimedResolution.injEq] at hop
      rw [hop.2.1]
      exact hclaim
  · exact (approvals_sound (.create none 60) claimedRun "a1").2.2.2 consumeTwice
      (by decide +kernel)

end OpenStarry.Approval
