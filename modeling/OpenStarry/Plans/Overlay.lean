import OpenStarry.Plans.Steps

/-!
# What an overlay keeps

An overlay fits its revision when every state stands for the step in its place. Only the current
step is in progress or blocked, and the current step is open. A checkpoint keeps this, and leaves
every other closed step as it is.
-/

namespace OpenStarry.Plans

open Lib Text

/-! ### Overlays that `normalize_plan_step_states` accepts -/

/-- A text that `_bounded_text` leaves as it is. -/
def Bounded (maximum : Nat) (s : Str) : Prop := strip s = s ∧ s ≠ [] ∧ s.length ≤ maximum

theorem boundedText_eq_ok {value : Json} {field : Str} {maximum : Nat} {s : Str}
    (h : boundedText value field maximum = .ok s) : Bounded maximum s := by
  unfold boundedText at h
  split at h
  · rename_i raw
    simp only [bind_eq_ok, require_eq_ok, pure_eq_ok] at h
    obtain ⟨-, hne, -, hlen, rfl⟩ := h
    exact ⟨strip_strip raw, hne, hlen⟩
  · cases h

theorem Bounded.boundedText_eq {maximum : Nat} {s : Str} (h : Bounded maximum s) (field : Str) :
    boundedText (.str s) field maximum = .ok s := by
  obtain ⟨hstrip, hne, hlen⟩ := h
  unfold boundedText
  simp only [bind_eq_ok, require_eq_ok, pure_eq_ok, hstrip]
  exact ⟨(), hne, (), hlen, trivial⟩

structure Fits (state : StepState) (step : PlanStep) : Prop where
  stepId : state.stepId = step.stepId
  title : state.title = step.title
  reason : ∀ reason, state.reason = some reason →
    state.status.hasReason = true ∧ Bounded maxPlanStepReasonChars reason

theorem readReason_eq_ok {index : Nat} {status : StepStatus} {raw : Dict} {reason : Option Str}
    (h : readReason index status raw = .ok reason) :
    ∀ r, reason = some r → status.hasReason = true ∧ Bounded maxPlanStepReasonChars r := by
  rintro r rfl
  unfold readReason at h
  split at h
  · cases h
  · simp only [bind_eq_ok, require_eq_ok, pure_eq_ok, Option.some.injEq] at h
    obtain ⟨-, hreason, text, htext, rfl⟩ := h
    exact ⟨hreason, boundedText_eq_ok htext⟩

theorem fits_of_normalizeStepState {index : Nat} {raw : Json} {step : PlanStep} {state : StepState}
    (h : normalizeStepState index raw step = .ok state) : Fits state step := by
  unfold normalizeStepState at h
  split at h
  · simp only [bind_eq_ok, require_eq_ok, pure_eq_ok] at h
    obtain ⟨-, -, status, -, reason, hreason, rfl⟩ := h
    exact ⟨rfl, rfl, readReason_eq_ok hreason⟩
  · cases h

theorem Fits.normalizeStepState_toJson {state : StepState} {step : PlanStep} (h : Fits state step)
    (index : Nat) : normalizeStepState index state.toJson step = .ok state := by
  obtain ⟨stepId, title, status, reason⟩ := state
  obtain ⟨hid, htitle, hreason⟩ := h
  obtain rfl : stepId = step.stepId := hid
  obtain rfl : title = step.title := htitle
  have hstatus : ∀ rest : Dict, readStatus ([("step_id".toList, .str step.stepId),
      ("title".toList, .str step.title), ("status".toList, .str status.value)] ++ rest) =
        .ok status := by
    intro rest
    have hget : Dict.get ([("step_id".toList, .str step.stepId), ("title".toList, .str step.title),
      ("status".toList, .str status.value)] ++ rest) "status" = .str status.value := rfl
    rw [readStatus, hget]
    change demand (StepStatus.ofValue? status.value) _ = _
    rw [StepStatus.ofValue?_value]
    rfl
  have hreason : readReason index status ([("step_id".toList, .str step.stepId),
      ("title".toList, .str step.title), ("status".toList, .str status.value)] ++
        reason.toList.map fun reason => ("reason".toList, .str reason)) = .ok reason := by
    cases reason with
    | none => rfl
    | some reason =>
        obtain ⟨hallowed, hbounded⟩ := hreason reason rfl
        have hget : Dict.get ([("step_id".toList, .str step.stepId),
          ("title".toList, .str step.title), ("status".toList, .str status.value)] ++
            [("reason".toList, .str reason)]) "reason" = .str reason := rfl
        simp only [Option.toList_some, List.map_singleton]
        rw [readReason, hget]
        simp only [bind_eq_ok, require_eq_ok, pure_eq_ok]
        exact ⟨(), hallowed, reason, hbounded.boundedText_eq _, rfl⟩
  simp only [normalizeStepState, StepState.toJson, bind_eq_ok, require_eq_ok, pure_eq_ok]
  exact ⟨(), rfl, status, hstatus _, reason, hreason, rfl⟩

def Accepted (steps : List PlanStep) (states : List StepState) : Prop :=
  normalizePlanStepStates (states.map StepState.toJson) steps = .ok states

theorem forall₂_of_normalizeStepStatesFrom {index : Nat} {raws : List Json} {steps : List PlanStep}
    {states : List StepState} (hlen : raws.length = steps.length)
    (h : normalizeStepStatesFrom index raws steps = .ok states) : List.Forall₂ Fits states steps := by
  induction raws generalizing index steps states with
  | nil =>
      cases steps with
      | nil =>
          obtain rfl : [] = states := Except.ok.inj h
          exact .nil
      | cons step steps => cases hlen
  | cons raw raws ih =>
      cases steps with
      | nil => cases hlen
      | cons step steps =>
          simp only [normalizeStepStatesFrom, bind_eq_ok, pure_eq_ok] at h
          obtain ⟨state, hstate, rest, hrest, rfl⟩ := h
          exact .cons (fits_of_normalizeStepState hstate) (ih (Nat.succ.inj hlen) hrest)

theorem forall₂_of_normalizePlanStepStates {raws : List Json} {steps : List PlanStep}
    {states : List StepState} (h : normalizePlanStepStates raws steps = .ok states) :
    List.Forall₂ Fits states steps := by
  simp only [normalizePlanStepStates, bind_eq_ok, require_eq_ok] at h
  obtain ⟨-, hlen, hfrom⟩ := h
  exact forall₂_of_normalizeStepStatesFrom hlen hfrom

theorem accepted_iff {steps : List PlanStep} {states : List StepState} :
    Accepted steps states ↔ List.Forall₂ Fits states steps := by
  constructor
  · intro h
    exact forall₂_of_normalizePlanStepStates h
  · intro h
    have hfrom : ∀ index, normalizeStepStatesFrom index (states.map StepState.toJson) steps =
        .ok states := by
      induction h with
      | nil =>
          intro index
          rfl
      | cons hfits _ ih =>
          intro index
          simp only [List.map_cons, normalizeStepStatesFrom, bind_eq_ok, pure_eq_ok]
          exact ⟨_, hfits.normalizeStepState_toJson index, _, ih (index + 1), rfl⟩
    simp only [Accepted, normalizePlanStepStates, bind_eq_ok, require_eq_ok, List.length_map]
    exact ⟨(), h.length_eq, hfrom 0⟩

theorem accepted_initial (steps : List PlanStep) : Accepted steps (initialPlanStepStates steps) := by
  rw [accepted_iff, initialPlanStepStates, List.forall₂_map_left_iff]
  apply List.forall₂_same.mpr
  intro step _
  exact ⟨rfl, rfl, fun reason hreason => by cases hreason⟩

/-! ### The current step -/

def StepStatus.isWorking (status : StepStatus) : Prop := status = .inProgress ∨ status = .blocked

def AllClosed (states : List StepState) : Prop := ∀ state ∈ states, state.status.isTerminal = true

structure Overlay (steps : PlanSteps) (states : List StepState) (current : Option Str) : Prop where
  fits : List.Forall₂ Fits states steps.steps
  working : ∀ state ∈ states, state.status.isWorking → current = some state.stepId
  current : ∀ stepId, current = some stepId →
    ∃ state ∈ states, state.stepId = stepId ∧ state.status.isTerminal = false

def KeepsClosed (states states' : List StepState) : Prop :=
  ∀ (i : Nat) (state : StepState), states[i]? = some state → state.status.isTerminal = true →
    states'[i]? = some state

theorem KeepsClosed.refl (states : List StepState) : KeepsClosed states states :=
  fun _ _ h _ => h

theorem KeepsClosed.trans {states states' states'' : List StepState} (h : KeepsClosed states states')
    (h' : KeepsClosed states' states'') : KeepsClosed states states'' :=
  fun i state hi hclosed => h' i state (h i state hi hclosed) hclosed

section Replace

variable {steps : PlanSteps} {states : List StepState} {state state' : StepState} {i : Nat}

theorem map_stepId_of_fits {l : List PlanStep} (h : List.Forall₂ Fits states l) :
    states.map StepState.stepId = l.map PlanStep.stepId := by
  induction h with
  | nil => rfl
  | cons hfits _ ih => rw [List.map_cons, List.map_cons, hfits.stepId, ih]

theorem nodup_of_fits (h : List.Forall₂ Fits states steps.steps) :
    (states.map StepState.stepId).Nodup := by
  rw [map_stepId_of_fits h]
  exact steps.distinct

theorem fits_set {l : List PlanStep} (h : List.Forall₂ Fits states l) (hi : states[i]? = some state)
    (hfits : ∀ step, Fits state step → Fits state' step) :
    List.Forall₂ Fits (states.set i state') l := by
  induction h generalizing i with
  | nil => cases hi
  | cons hhead htail ih =>
      cases i with
      | zero =>
          obtain rfl := Option.some.inj hi
          exact .cons (hfits _ hhead) htail
      | succ i => exact .cons hhead (ih hi)

theorem mem_set (hnodup : (states.map StepState.stepId).Nodup) (hi : states[i]? = some state)
    {other : StepState} (hother : other ∈ states.set i state') :
    other = state' ∨ other ∈ states ∧ other.stepId ≠ state.stepId := by
  obtain ⟨j, hj⟩ := List.mem_iff_getElem?.mp hother
  rw [List.getElem?_set] at hj
  split_ifs at hj with hij hlt
  · exact .inl (Option.some.inj hj).symm
  · refine .inr ⟨List.mem_of_getElem? hj, fun heq => hij ?_⟩
    have hmap (k : Nat) (s : StepState) (hk : states[k]? = some s) :
        (states.map StepState.stepId)[k]? = some s.stepId := by
      rw [List.getElem?_map, hk, Option.map_some]
    have hlt : i < (states.map StepState.stepId).length := by
      rw [List.length_map]
      exact (List.getElem?_eq_some_iff.mp hi).1
    apply (List.getElem?_inj hlt hnodup).mp
    rw [hmap i state hi, hmap j other hj, heq]

theorem mem_set_self (hi : states[i]? = some state) : state' ∈ states.set i state' := by
  have hlt := (List.getElem?_eq_some_iff.mp hi).1
  apply List.mem_of_getElem? (i := i)
  simp [hlt]

theorem keepsClosed_set (hi : states[i]? = some state) (hopen : state.status.isTerminal = false) :
    KeepsClosed states (states.set i state') := by
  intro j other hj hclosed
  rw [List.getElem?_set_ne ?_]
  · exact hj
  · rintro rfl
    rw [hi, Option.some.injEq] at hj
    rw [← hj, hopen] at hclosed
    cases hclosed

theorem overlay_set (hfits : List.Forall₂ Fits states steps.steps) (hi : states[i]? = some state)
    (hothers : ∀ other ∈ states, other.status.isWorking → other.stepId = state.stepId)
    (hstep : ∀ step, Fits state step → Fits state' step) (hid : state'.stepId = state.stepId)
    (hopen : state'.status.isTerminal = false) :
    Overlay steps (states.set i state') (some state.stepId) := by
  refine ⟨fits_set hfits hi hstep, fun other hother hworking => ?_, fun stepId hcurrent => ?_⟩
  · rcases mem_set (nodup_of_fits hfits) hi hother with rfl | ⟨hmem, hne⟩
    · rw [hid]
    · exact absurd (hothers other hmem hworking) hne
  · exact ⟨state', mem_set_self hi, hid.trans (Option.some.inj hcurrent), hopen⟩

theorem fits_enter (hid : state'.stepId = state.stepId) (htitle : state'.title = state.title)
    (hreason : state'.reason = none) (step : PlanStep) (h : Fits state step) : Fits state' step := by
  refine ⟨hid.trans h.stepId, htitle.trans h.title, fun reason hsome => ?_⟩
  rw [hreason] at hsome
  cases hsome

end Replace

/-! ### Checkpoints -/

theorem getElem?_of_byId {stepId : Str} {states : List StepState} {i : Nat}
    (h : byId stepId states = some i) : ∃ state, states[i]? = some state ∧ state.stepId = stepId := by
  induction states generalizing i with
  | nil => cases h
  | cons state rest ih =>
      rw [byId] at h
      split at h
      · rename_i j hj
        obtain rfl := Option.some.inj h
        exact ih hj
      · split_ifs at h with hid
        obtain rfl := Option.some.inj h
        exact ⟨state, rfl, hid⟩

theorem record_eq_ok {status : StepStatus} {reason : Json} {state recorded : StepState}
    (h : record status reason state = .ok recorded) :
    recorded.status = status ∧ recorded.stepId = state.stepId ∧
      ∀ step, Fits state step → Fits recorded step := by
  unfold record at h
  split_ifs at h with hreason
  · simp only [bind_eq_ok, pure_eq_ok] at h
    obtain ⟨text, htext, rfl⟩ := h
    refine ⟨rfl, rfl, fun step hfits => ⟨hfits.stepId, hfits.title, fun other hother => ?_⟩⟩
    obtain rfl := Option.some.inj hother
    exact ⟨hreason, boundedText_eq_ok htext⟩
  · rw [pure_eq_ok] at h
    subst h
    exact ⟨rfl, rfl, fits_enter rfl rfl rfl⟩

theorem checkpointStatus?_eq_some {stepStatus : Str} {status : StepStatus}
    (h : checkpointStatus? stepStatus = some status) :
    status = .blocked ∨ status = .inProgress ∨ status.isTerminal = true := by
  rw [checkpointStatus?, Option.filter_eq_some_iff] at h
  cases status with
  | pending => exact absurd h.2 (by decide)
  | inProgress => exact .inr (.inl rfl)
  | blocked => exact .inl rfl
  | completed => exact .inr (.inr rfl)
  | skipped => exact .inr (.inr rfl)

variable {steps : PlanSteps} {states states' : List StepState} {state : StepState}

theorem overlay_none (hfits : List.Forall₂ Fits states steps.steps)
    (hidle : ∀ state ∈ states, ¬ state.status.isWorking) : Overlay steps states none :=
  ⟨hfits, fun state hmem hworking => absurd hworking (hidle state hmem), fun _ h => by cases h⟩

theorem AllClosed.idle (h : AllClosed states) : ∀ state ∈ states, ¬ state.status.isWorking := by
  intro state hmem hworking
  have hclosed := h state hmem
  rcases hworking with hworking | hworking <;> rw [hworking] at hclosed <;> cases hclosed

theorem reason_eq_none_of_fits {step : PlanStep} (h : Fits state step)
    (hopen : state.status.hasReason = false) : state.reason = none := by
  cases hreason : state.reason with
  | none => rfl
  | some reason =>
      rw [(h.reason reason hreason).1] at hopen
      cases hopen

theorem exists_step_of_fits {l : List PlanStep} (h : List.Forall₂ Fits states l)
    (hmem : state ∈ states) : ∃ step, Fits state step := by
  induction h with
  | nil => cases hmem
  | cons hhead _ ih =>
      rcases List.mem_cons.mp hmem with rfl | hmem
      · exact ⟨_, hhead⟩
      · exact ih hmem

theorem Overlay.checkpoint {stepId stepStatus : Str} {reason : Json} {current' : Option Str}
    {status' : PlanRunStatus} (h : Overlay steps states (some stepId))
    (hok : checkpointPlanStepStates states stepId stepStatus reason =
      .ok (states', current', status')) :
    Overlay steps states' current' ∧ KeepsClosed states states' ∧
      (status' = .blocked ∨ status' = .running ∧ (current' = none → AllClosed states')) := by
  simp only [checkpointPlanStepStates, bind_eq_ok, demand_eq_ok, require_eq_ok] at hok
  obtain ⟨status, hstatus, i, hbyId, state, hi, -, hopen, recorded, hrecord, hok⟩ := hok
  obtain ⟨state', hi', hid⟩ := getElem?_of_byId hbyId
  obtain rfl : state' = state := Option.some.inj (hi'.symm.trans hi)
  obtain ⟨hrecorded, hrecordedId, hfits⟩ := record_eq_ok hrecord
  have hothers : ∀ other ∈ states, other.status.isWorking → other.stepId = state'.stepId := by
    intro other hmem hworking
    rw [hid]
    exact (Option.some.inj (h.working other hmem hworking)).symm
  have hkeeps : KeepsClosed states (states.set i recorded) := keepsClosed_set hi hopen
  split_ifs at hok with hblocked hprogress hall
  · rw [pure_eq_ok, Prod.mk.injEq, Prod.mk.injEq] at hok
    obtain ⟨rfl, rfl, rfl⟩ := hok
    refine ⟨hid ▸ overlay_set h.fits hi hothers hfits hrecordedId ?_, hkeeps, .inl rfl⟩
    rw [hrecorded, hblocked]
    rfl
  · rw [pure_eq_ok, Prod.mk.injEq, Prod.mk.injEq] at hok
    obtain ⟨rfl, rfl, rfl⟩ := hok
    refine ⟨hid ▸ overlay_set h.fits hi hothers hfits hrecordedId ?_, hkeeps, .inr ⟨rfl, ?_⟩⟩
    · rw [hrecorded, hprogress]
      rfl
    · intro hnone
      cases hnone
  · rw [pure_eq_ok, Prod.mk.injEq, Prod.mk.injEq] at hok
    obtain ⟨rfl, rfl, rfl⟩ := hok
    have hclosed : AllClosed (states.set i recorded) := by
      intro other hother
      exact List.all_eq_true.mp hall other hother
    exact ⟨overlay_none (fits_set h.fits hi hfits) hclosed.idle, hkeeps, .inr ⟨rfl, fun _ => hclosed⟩⟩
  · simp only [bind_eq_ok, demand_eq_ok, require_eq_ok, pure_eq_ok, Prod.mk.injEq] at hok
    obtain ⟨candidate, hcandidate, j, hj, next, hnext, -, hnextOpen, rfl, rfl, rfl⟩ := hok
    obtain ⟨next', hnext', hnextId⟩ := getElem?_of_byId hj
    obtain rfl : next' = next := Option.some.inj (hnext'.symm.trans hnext)
    have hclosing : status.isTerminal = true :=
      ((checkpointStatus?_eq_some hstatus).resolve_left hblocked).resolve_left hprogress
    -- the closed step was the only one somebody worked on
    have hidle : ∀ other ∈ states.set i recorded, ¬ other.status.isWorking := by
      intro other hother hworking
      rcases mem_set (nodup_of_fits h.fits) hi hother with rfl | ⟨hmem, hne⟩
      · rw [← hrecorded] at hclosing
        rcases hworking with hworking | hworking <;> rw [hworking] at hclosing <;> cases hclosing
      · exact hne (hothers other hmem hworking)
    have hset : List.Forall₂ Fits (states.set i recorded) steps.steps := fits_set h.fits hi hfits
    have hmem : next' ∈ states.set i recorded := List.mem_of_getElem? hnext
    have hnoReason : next'.reason = none := by
      obtain ⟨step, hstep⟩ := exists_step_of_fits hset hmem
      apply reason_eq_none_of_fits hstep
      have hnotWorking := hidle next' hmem
      cases hnextStatus : next'.status with
      | pending => rfl
      | inProgress => rfl
      | completed => rfl
      | blocked => exact absurd (.inr hnextStatus) hnotWorking
      | skipped =>
          rw [hnextStatus] at hnextOpen
          cases hnextOpen
    refine ⟨?_, hkeeps.trans (keepsClosed_set hnext hnextOpen), .inr ⟨rfl, fun hnone => ?_⟩⟩
    · rw [← hnextId]
      refine overlay_set hset hnext ?_ ?_ rfl rfl
      · intro other hother hworking
        exact absurd hworking (hidle other hother)
      · exact fits_enter rfl rfl hnoReason
    · cases hnone

/-! ### Taking a run up again -/

theorem enterFirst_eq_set {stepId : Str} (hmem : state ∈ states) (hid : state.stepId = stepId)
    (hnodup : (states.map StepState.stepId).Nodup) :
    ∃ i, states[i]? = some state ∧ enterFirst stepId states = states.set i (state.enter .inProgress) := by
  induction states with
  | nil => cases hmem
  | cons first rest ih =>
      rw [List.map_cons, List.nodup_cons] at hnodup
      rw [enterFirst]
      rcases List.mem_cons.mp hmem with rfl | hmem
      · exact ⟨0, rfl, by rw [if_pos hid]; rfl⟩
      · have hne : first.stepId ≠ stepId := by
          rintro rfl
          exact hnodup.1 (hid ▸ List.mem_map_of_mem hmem)
        obtain ⟨i, hi, heq⟩ := ih hmem hnodup.2
        exact ⟨i + 1, hi, by rw [if_neg hne, heq]; rfl⟩

theorem Overlay.enterFirst {stepId : Str} {current : Option Str} (h : Overlay steps states current)
    (hcurrent : ∀ id, current = some id → id = stepId) (hmem : state ∈ states)
    (hid : state.stepId = stepId) (hopen : state.status.isTerminal = false) :
    Overlay steps (enterFirst stepId states) (some stepId) ∧
      KeepsClosed states (Plans.enterFirst stepId states) := by
  obtain ⟨i, hi, heq⟩ := enterFirst_eq_set hmem hid (nodup_of_fits h.fits)
  rw [heq]
  refine ⟨?_, keepsClosed_set hi hopen⟩
  rw [← hid]
  refine overlay_set h.fits hi ?_ ?_ rfl rfl
  · intro other hother hworking
    rw [hid]
    exact hcurrent _ (h.working other hother hworking)
  · exact fits_enter rfl rfl rfl

theorem firstOpen_eq_some {stepId : Str} (h : firstOpen states = some stepId) :
    ∃ state ∈ states, state.stepId = stepId ∧ state.status.isTerminal = false := by
  rw [firstOpen, Option.map_eq_some_iff] at h
  obtain ⟨state, hfind, hid⟩ := h
  have hopen := List.find?_some hfind
  exact ⟨state, List.mem_of_find?_eq_some hfind, hid, by simpa using hopen⟩

theorem firstOpen_eq_none (h : firstOpen states = none) : AllClosed states := by
  rw [firstOpen, Option.map_eq_none_iff, List.find?_eq_none] at h
  intro state hmem
  simpa using h state hmem

theorem overlay_reopen {first : StepState} {rest : List StepState}
    (hfits : List.Forall₂ Fits (first :: rest) steps.steps) (hclosed : AllClosed (first :: rest)) :
    Overlay steps (first.enter .inProgress :: rest) (some first.stepId) := by
  refine overlay_set (i := 0) hfits rfl ?_ ?_ rfl rfl
  · intro other hother hworking
    exact absurd hworking (hclosed.idle other hother)
  · exact fits_enter rfl rfl rfl

end OpenStarry.Plans
