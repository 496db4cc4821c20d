import OpenStarry.Steering.Provider

/-!
# Where an accepted input is

Seen from the inputs alone, a provider moves each of them from one holder to another: an input is
pending, claimed, applied, acknowledged or reclaimed, and it is handed out on the way from pending
to claimed. Every step of a delivery is one of these moves.
-/

namespace OpenStarry.Steering

open Lib Text

/-- The holders of inputs, and what was accepted, handed out and confirmed. -/
structure Inputs where
  pending : List SteeredInput
  claimed : List SteeredInput
  applied : List SteeredInput
  acknowledged : List SteeredInput
  reclaimedPending : List SteeredInput
  reclaimedOtherwise : List SteeredInput
  accepted : List SteeredInput
  batches : List (List SteeredInput)
  confirmed : List SteeredInput

inductive Move : Inputs → Inputs → Prop
  | stay (i : Inputs) : Move i i
  | accept (i : Inputs) (text : Str) : Move i
      { i with
        pending := i.pending ++ [⟨i.accepted.length, text, none, none⟩]
        accepted := i.accepted ++ [⟨i.accepted.length, text, none, none⟩] }
  | idle (i : Inputs) : Move i { i with batches := i.batches ++ [[]] }
  | drain (i : Inputs) (hclaimed : i.claimed = []) : Move i
      { i with
        pending := []
        claimed := i.pending
        batches := i.batches ++ [i.pending] }
  | confirm (i : Inputs) (iteration : Nat) (modelCallId : Str) : Move i
      { i with
        claimed := []
        applied := i.applied ++ i.claimed.map (·.withCall iteration modelCallId)
        confirmed := i.confirmed ++ i.claimed.map (·.withCall iteration modelCallId) }
  | acknowledge (i : Inputs) (tokens : List Nat) : Move i
      { i with
        applied := i.applied.filter fun item => item.token ∉ tokens
        acknowledged := i.acknowledged ++ i.applied.filter fun item => item.token ∈ tokens }
  | reclaimPending (i : Inputs) : Move i
      { i with
        pending := []
        claimed := []
        reclaimedPending := i.reclaimedPending ++ (i.claimed ++ i.pending) }
  | reclaimDrained (i : Inputs) : Move i
      { i with
        applied := []
        reclaimedOtherwise := i.reclaimedOtherwise ++ i.applied }
  | reclaimAll (i : Inputs) : Move i
      { i with
        pending := []
        claimed := []
        applied := []
        reclaimedOtherwise := i.reclaimedOtherwise ++ (i.applied ++ i.claimed ++ i.pending) }

/-! ### Custody -/

namespace Inputs

def held (i : Inputs) : List SteeredInput :=
  i.pending ++ i.claimed ++ i.applied ++ i.acknowledged ++ i.reclaimedPending ++
    i.reclaimedOtherwise

structure Custody (i : Inputs) : Prop where
  tokens : i.accepted.map (·.token) = List.range i.accepted.length
  originals : ∀ item ∈ i.accepted, item.original = item
  held : (i.held.map (·.original)).Perm i.accepted
  order : (i.batches.flatten ++ i.pending).Sublist i.accepted
  confirmed : ∀ item ∈ i.confirmed,
    item ∈ i.applied ∨ item ∈ i.acknowledged ∨ item ∈ i.reclaimedOtherwise

variable {i i' : Inputs}

theorem Custody.nodup (h : i.Custody) : (i.held.map (·.token)).Nodup := by
  have hperm := h.held.map (·.token)
  rw [List.map_map, h.tokens] at hperm
  exact hperm.symm.nodup List.nodup_range

theorem Custody.reclaimed_not_confirmed (h : i.Custody) :
    ∀ item ∈ i.reclaimedPending, item.token ∉ i.confirmed.map (·.token) := by
  intro item hitem hconfirmed
  obtain ⟨other, hother, htoken⟩ := List.mem_map.1 hconfirmed
  have hnodup := h.nodup
  simp only [Inputs.held, List.map_append, List.nodup_append] at hnodup
  obtain ⟨⟨⟨-, hacked⟩, hreclaimed⟩, hrest⟩ :
      ((True ∧ ∀ a ∈ i.acknowledged, ∀ b ∈ i.reclaimedPending, a.token ≠ b.token) ∧
        ∀ a ∈ i.applied, ∀ b ∈ i.reclaimedPending, a.token ≠ b.token) ∧
        ∀ a ∈ i.reclaimedPending, ∀ b ∈ i.reclaimedOtherwise, a.token ≠ b.token := by
    obtain ⟨⟨-, -, hback⟩, -, hfar⟩ := hnodup
    refine ⟨⟨⟨trivial, ?_⟩, ?_⟩, ?_⟩
    · intro a ha b hb
      exact hback _ (by simp [List.mem_map_of_mem ha]) _ (List.mem_map_of_mem hb)
    · intro a ha b hb
      exact hback _ (by simp [List.mem_map_of_mem ha]) _ (List.mem_map_of_mem hb)
    · intro a ha b hb
      exact hfar _ (by simp [List.mem_map_of_mem ha]) _ (List.mem_map_of_mem hb)
  obtain happlied | hacknowledged | hotherwise := h.confirmed other hother
  · exact hreclaimed other happlied item hitem htoken
  · exact hacked other hacknowledged item hitem htoken
  · exact hrest item hitem other hotherwise htoken.symm

theorem map_original_filter_perm (items : List SteeredInput) (keep : SteeredInput → Bool) :
    ((items.filter keep).map (·.original) ++
      (items.filter fun item => !keep item).map (·.original)).Perm
      (items.map (·.original)) := by
  rw [← List.map_append]
  exact (List.filter_append_perm keep items).map _

theorem Custody.move (h : i.Custody) (hmove : Move i i') : i'.Custody := by
  have hheld := h.held
  rw [List.perm_iff_count] at hheld
  cases hmove with
  | stay => exact h
  | accept text =>
      refine ⟨?_, ?_, ?_, ?_, h.confirmed⟩
      · rw [List.map_append, h.tokens, List.length_append]
        exact List.range_succ.symm
      · intro item hitem
        obtain hitem | hitem := List.mem_append.1 hitem
        · exact h.originals item hitem
        · rw [List.mem_singleton.1 hitem]
          rfl
      · rw [List.perm_iff_count]
        intro item
        have := hheld item
        simp only [Inputs.held, List.map_append, List.count_append, List.map_cons, List.map_nil,
          SteeredInput.original] at this ⊢
        omega
      · rw [← List.append_assoc]
        exact h.order.append_right _
  | idle =>
      refine ⟨h.tokens, h.originals, h.held, ?_, h.confirmed⟩
      simpa using h.order
  | drain hclaimed =>
      refine ⟨h.tokens, h.originals, ?_, ?_, h.confirmed⟩
      · rw [List.perm_iff_count]
        intro item
        have := hheld item
        simp only [Inputs.held, List.map_append, List.count_append, hclaimed, List.map_nil,
          List.count_nil] at this ⊢
        omega
      · simpa using h.order
  | confirm iteration modelCallId =>
      refine ⟨h.tokens, h.originals, ?_, h.order, ?_⟩
      · rw [List.perm_iff_count]
        intro item
        have := hheld item
        have hsame : (i.claimed.map (·.withCall iteration modelCallId)).map (·.original) =
            i.claimed.map (·.original) := by
          rw [List.map_map]
          rfl
        simp only [Inputs.held, List.map_append, List.count_append, hsame, List.map_nil,
          List.count_nil] at this ⊢
        omega
      · intro item hitem
        obtain hitem | hitem := List.mem_append.1 hitem
        · obtain happlied | hrest := h.confirmed item hitem
          · exact .inl (List.mem_append_left _ happlied)
          · exact .inr hrest
        · exact .inl (List.mem_append_right _ hitem)
  | acknowledge tokens =>
      refine ⟨h.tokens, h.originals, ?_, h.order, ?_⟩
      · rw [List.perm_iff_count]
        intro item
        have := hheld item
        have hsplit := (List.perm_iff_count.1
          (map_original_filter_perm i.applied fun item => item.token ∈ tokens)) item
        simp only [Inputs.held, List.map_append, List.count_append, decide_not] at this hsplit ⊢
        omega
      · intro item hitem
        obtain happlied | hacknowledged | hotherwise := h.confirmed item hitem
        · by_cases htoken : item.token ∈ tokens
          · exact .inr (.inl (List.mem_append_right _ (by simp [happlied, htoken])))
          · exact .inl (by simp [happlied, htoken])
        · exact .inr (.inl (List.mem_append_left _ hacknowledged))
        · exact .inr (.inr hotherwise)
  | reclaimPending =>
      refine ⟨h.tokens, h.originals, ?_, ?_, h.confirmed⟩
      · rw [List.perm_iff_count]
        intro item
        have := hheld item
        simp only [Inputs.held, List.map_append, List.count_append, List.map_nil,
          List.count_nil] at this ⊢
        omega
      · exact ((List.append_sublist_append_left _).2 (List.nil_sublist _)).trans h.order
  | reclaimDrained =>
      refine ⟨h.tokens, h.originals, ?_, h.order, ?_⟩
      · rw [List.perm_iff_count]
        intro item
        have := hheld item
        simp only [Inputs.held, List.map_append, List.count_append, List.map_nil,
          List.count_nil] at this ⊢
        omega
      · intro item hitem
        obtain happlied | hacknowledged | hotherwise := h.confirmed item hitem
        · exact .inr (.inr (List.mem_append_right _ happlied))
        · exact .inr (.inl hacknowledged)
        · exact .inr (.inr (List.mem_append_left _ hotherwise))
  | reclaimAll =>
      refine ⟨h.tokens, h.originals, ?_, ?_, ?_⟩
      · rw [List.perm_iff_count]
        intro item
        have := hheld item
        simp only [Inputs.held, List.map_append, List.count_append, List.map_nil,
          List.count_nil] at this ⊢
        omega
      · exact ((List.append_sublist_append_left _).2 (List.nil_sublist _)).trans h.order
      · intro item hitem
        obtain happlied | hacknowledged | hotherwise := h.confirmed item hitem
        · exact .inr (.inr (List.mem_append_right _ (by simp [happlied])))
        · exact .inr (.inl hacknowledged)
        · exact .inr (.inr (List.mem_append_left _ hotherwise))

end Inputs

/-! ### Steps as moves -/

def Delivery.inputs (s : Delivery) : Inputs where
  pending := s.provider.pending
  claimed := s.provider.claimed
  applied := s.provider.applied
  acknowledged := s.acknowledged
  reclaimedPending := s.reclaimedPending
  reclaimedOtherwise := s.reclaimedOtherwise
  accepted := s.accepted
  batches := s.batches
  confirmed := s.confirmed

variable {owner goalId : Str} {s s' : Delivery} {a : Action}

theorem Move.same {i i' : Inputs} (h : i' = i) : Move i i' := by
  rw [h]
  exact .stay i

theorem move_append (text : Str) : Move s.inputs (s.append text).inputs := by
  unfold Delivery.append Provider.append
  by_cases hblank : strip text = []
  · apply Move.same
    simp [Delivery.inputs, hblank]
  · simp only [Delivery.inputs, hblank, if_false]
    exact .accept s.inputs text

theorem move_drainPending : Move s.inputs s.drainPending.inputs := by
  unfold Delivery.drainPending Provider.drainPending
  by_cases hclaimed : s.provider.claimed = []
  · simp only [Delivery.inputs, hclaimed, ne_eq, not_true_eq_false, if_false, List.nil_append]
    have := Move.drain s.inputs hclaimed
    simpa only [Delivery.inputs, hclaimed] using this
  · simp only [Delivery.inputs, ne_eq, hclaimed, not_false_eq_true, if_true]
    exact .idle s.inputs

theorem move_markApplied (iteration : Nat) (modelCallId : Str) :
    Move s.inputs (s.markApplied iteration modelCallId).inputs := by
  have hmove := Move.confirm s.inputs iteration modelCallId
  unfold Delivery.markApplied Provider.markApplied
  by_cases hnone : s.provider.claimed = [] ∧ s.provider.goalClaimed = none
  · apply Move.same
    simp [Delivery.inputs, hnone]
  · simp only [hnone, if_false]
    split <;> simpa [Delivery.inputs] using hmove

theorem step_move (h : step owner goalId s a = some s') : Move s.inputs s'.inputs := by
  cases a with
  | append text => exact Option.some.inj h ▸ move_append text
  | drainPending => exact Option.some.inj h ▸ move_drainPending
  | claimPending => exact Option.some.inj h ▸ move_drainPending
  | markApplied iteration modelCallId =>
      exact Option.some.inj h ▸ move_markApplied iteration modelCallId
  | acknowledgeApplied tokens => exact Option.some.inj h ▸ .acknowledge s.inputs tokens
  | reclaimPending => exact Option.some.inj h ▸ .reclaimPending s.inputs
  | reclaimDrained => exact Option.some.inj h ▸ .reclaimDrained s.inputs
  | reclaimAll => exact Option.some.inj h ▸ .reclaimAll s.inputs
  | recordInputs k tokens =>
      simp only [step] at h
      split at h
      · exact Option.some.inj h ▸ .acknowledge s.inputs tokens
      · cases h
  | setAppliedRecorder => exact Option.some.inj h ▸ .stay s.inputs
  | setGoalObjectiveRecorders => exact Option.some.inj h ▸ .stay s.inputs
  | takeAppliedGoalContext => exact Option.some.inj h ▸ .stay s.inputs
  | rejectClaimedGoalContext => exact Option.some.inj h ▸ .stay s.inputs
  | failRecording k => exact Option.some.inj h ▸ .stay s.inputs
  | readUpdate =>
      obtain ⟨update, -, rfl⟩ := Option.map_eq_some_iff.1 h
      exact .stay s.inputs
  | editGoal =>
      obtain ⟨ledger, -, rfl⟩ := Option.map_eq_some_iff.1 h
      exact .stay s.inputs
  | clearGoal =>
      obtain ⟨ledger, -, rfl⟩ := Option.map_eq_some_iff.1 h
      exact .stay s.inputs
  | failClaim =>
      obtain ⟨binding, -, rfl⟩ := Option.map_eq_some_iff.1 h
      exact .stay s.inputs
  | appendGoalObjectiveUpdate update =>
      simp only [step] at h
      split at h
      · obtain rfl := Option.some.inj h
        apply Move.same
        simp only [Delivery.inputs, Delivery.appendGoalObjectiveUpdate,
          Provider.appendGoalObjectiveUpdate]
        split <;> rfl
      · cases h
  | enterClaim i =>
      simp only [step] at h
      split at h
      · cases h
      · obtain ⟨userTexts, -, rfl⟩ := Option.map_eq_some_iff.1 h
        apply Move.same
        unfold Delivery.enterClaim
        dsimp only
        split
        · rfl
        · split <;> rfl
  | answerClaim =>
      simp only [step] at h
      split at h
      · exact Option.some.inj h ▸ .stay s.inputs
      · cases h
  | finishClaim =>
      simp only [step] at h
      split at h
      · exact Option.some.inj h ▸ .stay s.inputs
      · cases h
  | recordGoal k =>
      simp only [step] at h
      split at h
      · obtain ⟨update, -, rfl⟩ := Option.map_eq_some_iff.1 h
        exact .stay s.inputs
      · cases h
  | finishRecording k =>
      simp only [step] at h
      split at h
      · exact Option.some.inj h ▸ .stay s.inputs
      · cases h
  | revokeGoalObjectiveUpdates =>
      simp only [step] at h
      split at h
      · exact Option.some.inj h ▸ .stay s.inputs
      · cases h
  | changeGoal id row =>
      simp only [step] at h
      split at h
      · exact Option.some.inj h ▸ .stay s.inputs
      · cases h
  | changeTask id row =>
      simp only [step] at h
      split at h
      · exact Option.some.inj h ▸ .stay s.inputs
      · cases h

theorem custody_of_reach (h : Reach (initial owner goalId) (step owner goalId) anyStep s) :
    s.inputs.Custody := by
  induction h with
  | start hinitial =>
      obtain ⟨-, hs⟩ := hinitial
      rw [hs]
      exact ⟨rfl, by simp [Delivery.inputs], .refl _, List.Sublist.refl _, by simp [Delivery.inputs]⟩
  | next _ _ hstep ih => exact ih.move (step_move hstep)

end OpenStarry.Steering
