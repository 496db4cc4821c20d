import OpenStarry.Approval.Settled

/-!
# Sweeps

At a start every unresolved approval is expired, and at the end of a session's task those of the
session, also the ones that a claim holds.
-/

namespace OpenStarry.Approval

open Lib Text

def PendingApproval.Expired (row : PendingApproval) : Prop :=
  row.Settled ∧ row.approved = false ∧ row.resolution = resolutionExpired

/-- What is to be expired is expired, and other rows may lose a claim that is too old. -/
def Expires (due : Bool) (row row' : PendingApproval) : Prop :=
  if due then row'.Expired else Lapses row row'

section

variable {s : Settings} {id key : String} {q : Queue} {row : PendingApproval}

theorem Lapses.resolved {row' : PendingApproval} (h : Lapses row row') :
    row'.resolved = row.resolved := by
  obtain rfl | ⟨-, rfl⟩ := h
  · rfl
  · rfl

theorem get_update_row {now : Time} {condition : String → PendingApproval → Bool}
    {f : PendingApproval → PendingApproval} (hrow : q.get? key = some row) :
    ∃ row', (get s id now (q.update condition f)).1.get? key = some row' ∧
      Lapses (if condition key row then f row else row) row' := by
  rw [get_fst]
  exact (releaseStaleClaims_related s now).of_some
    (Table.get?_update.trans (congrArg (Option.map _) hrow))

theorem expirePending_row (clock : Nat → Time) (hrow : q.get? key = some row) :
    ∃ row', (perform s (.expirePending clock id) q).1.get? key = some row' ∧
      Expires (key = id && !row.resolved) row row' := by
  obtain ⟨lapsed, hlapsed, hlapse⟩ := (releaseStaleClaims_related s (clock 0)).of_some hrow
  rw [← hlapse.resolved]
  show ∃ row', (expireIfUnresolved s clock id true q).1.get? key = some row' ∧ _
  unfold expireIfUnresolved
  generalize releaseStaleClaims s (clock 0) q = q at hlapsed ⊢
  simp only [withRow, Bool.not_true, Bool.and_false, Bool.false_eq_true, if_false, Bool.false_and,
    Bool.true_or, Bool.and_true]
  by_cases hkey : key = id
  · subst hkey
    simp only [hlapsed, decide_true, Bool.true_and]
    cases hresolved : lapsed.resolved with
    | true => exact ⟨lapsed, hlapsed, hlapse⟩
    | false =>
        obtain ⟨row', hrow', hlapse'⟩ := get_update_row hlapsed
        refine ⟨row', hrow', ?_⟩
        simp only [Table.atKey, hresolved, decide_true, Bool.not_false, Bool.and_true, if_true]
          at hlapse'
        rw [hlapse'.eq_of_resolved_left rfl]
        exact ⟨⟨rfl, rfl⟩, rfl, rfl⟩
  · rw [decide_eq_false hkey, Bool.false_and]
    cases q.get? id with
    | none => exact ⟨lapsed, hlapsed, hlapse⟩
    | some entry =>
        dsimp only
        split_ifs
        · exact ⟨lapsed, hlapsed, hlapse⟩
        · obtain ⟨row', hrow', hlapse'⟩ := get_update_row hlapsed
          refine ⟨row', hrow', hlapse.trans ?_⟩
          simp only [Table.atKey, decide_eq_false hkey, Bool.false_and, Bool.false_eq_true, if_false]
            at hlapse'
          exact hlapse'

theorem Expires.trans {first rest : Bool} {middle row' : PendingApproval}
    (hfirst : Expires (first && !row.resolved) row middle)
    (hrest : Expires (rest && !middle.resolved) middle row') :
    Expires ((first || rest) && !row.resolved) row row' := by
  cases hdue : first && !row.resolved with
  | true =>
      rw [hdue] at hfirst
      rw [hfirst.1.resolved, Bool.not_true, Bool.and_false] at hrest
      rw [Bool.and_or_distrib_right, hdue, Bool.true_or,
        Lapses.eq_of_resolved_left hrest hfirst.1.resolved]
      exact hfirst
  | false =>
      rw [hdue] at hfirst
      rw [Lapses.resolved hfirst] at hrest
      rw [Bool.and_or_distrib_right, hdue, Bool.false_or]
      cases hlater : rest && !row.resolved with
      | true =>
          rw [hlater] at hrest
          exact hrest
      | false =>
          rw [hlater] at hrest
          exact Lapses.trans hfirst hrest

theorem run_expirePending (clock : String → Nat → Time) (ids : List String)
    (hrow : q.get? key = some row) :
    ∃ row', (run s (ids.map fun id => .expirePending (clock id) id) q).get? key = some row' ∧
      Expires (key ∈ ids && !row.resolved) row row' := by
  induction ids generalizing q row with
  | nil => exact ⟨row, hrow, .refl row⟩
  | cons id rest ih =>
      obtain ⟨middle, hmiddle, hfirst⟩ := expirePending_row (clock id) hrow
      obtain ⟨row', hrow', hrest⟩ := ih hmiddle
      refine ⟨row', hrow', ?_⟩
      simp only [List.mem_cons, Bool.decide_or]
      exact hfirst.trans hrest

/-- A sweep over the unresolved rows that are selected. -/
theorem run_sweep (clock : String → Nat → Time) (due : PendingApproval → Bool)
    (hdue : ∀ row, due row = true → row.resolved = false) (hrow : q.get? key = some row) :
    ∃ row', (run s ((q.entries.filter fun row => due row.2).map fun row =>
        .expirePending (clock row.1) row.1) q).get? key = some row' ∧ Expires (due row) row row' := by
  obtain ⟨row', hrow', hexpires⟩ := run_expirePending (s := s) clock
    ((q.entries.filter fun row => due row.2).map Prod.fst) hrow
  rw [List.map_map] at hrow'
  refine ⟨row', hrow', ?_⟩
  have hsame : (decide (key ∈ (q.entries.filter fun row => due row.2).map Prod.fst) &&
      !row.resolved) = due row := by
    rw [Bool.eq_iff_iff, Bool.and_eq_true, decide_eq_true_eq, Bool.not_eq_true']
    constructor
    · rintro ⟨hmem, -⟩
      obtain ⟨⟨_, other⟩, hother, rfl⟩ := List.mem_map.mp hmem
      obtain ⟨hother, hdueOther⟩ := List.mem_filter.mp hother
      rw [Table.get?_of_mem hother, Option.some.injEq] at hrow
      rw [← hrow]
      exact hdueOther
    · intro hdueRow
      exact ⟨List.mem_map.mpr ⟨(key, row), List.mem_filter.mpr ⟨Keyed.mem_of_lookup hrow, hdueRow⟩,
        rfl⟩, hdue row hdueRow⟩
  rw [← hsame]
  exact hexpires

end

/-- The rows that are due are expired, whatever else happens afterwards but a reopening. -/
structure Sweeps (s : Settings) (q : Queue) (due : PendingApproval → Bool) (ops : List Operation) :
    Prop where
  rows : ∀ id row, q.get? id = some row →
    ∃ row', (run s ops q).get? id = some row' ∧ Expires (due row) row row'
  forGood : ∀ id row, q.get? id = some row → due row = true →
    ∀ future : List Operation, (∀ op ∈ future, op.isReopenOf id = false) →
      ∃ row', (run s (ops ++ future) q).get? id = some row' ∧ row'.resolved = true ∧
        row'.approved = false

theorem Sweeps.of_rows {s : Settings} {q : Queue} {due : PendingApproval → Bool}
    {ops : List Operation} (rows : ∀ id row, q.get? id = some row →
      ∃ row', (run s ops q).get? id = some row' ∧ Expires (due row) row row') :
    Sweeps s q due ops := by
  refine ⟨rows, fun id row hrow hdue future hfuture => ?_⟩
  obtain ⟨expired, hexpired, hexpires⟩ := rows id row hrow
  rw [hdue] at hexpires
  obtain ⟨hsettled, hunapproved, -⟩ := hexpires
  obtain ⟨row', hrow', hsettled', hsame⟩ := run_settled future hexpired hsettled hfuture
  rw [run_append]
  exact ⟨row', hrow', hsettled'.resolved, hsame.approved.trans hunapproved⟩

/-- The row is unresolved, and of the session. -/
def ownedBy (text : Json → Str) (sessionKey : Str) (row : PendingApproval) : Bool :=
  !row.resolved && ownerKey text ["sessionKey", "session_key"] row.params = strip sessionKey

def dueFor (text : Json → Str) (sessionKey : Str) (row : PendingApproval) : Bool :=
  ownedBy text sessionKey row && strip sessionKey ≠ []

end OpenStarry.Approval
