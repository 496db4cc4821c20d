import OpenStarry.MetaSkill.Scheduler

/-!
# Fail-closed replay of paid steps

`paidLiveReplayBlockReason` decides from the persisted step records whether a failed step may be
replayed. What it lets pass is compared with the evidence that keeps a later run from submitting
the other paid steps. The records suffice for all of it except one exemption: a paid step without a
record is let pass when its `when` expression is false on empty inputs and on the trusted outputs,
which says something about later runs only if the expression stays false.
-/

namespace OpenStarry.MetaSkill

open OpenStarry.Lib

/-! ### Records -/

/-- A persisted step record. A field is `none` when the attribute is missing or of another type. -/
structure StepRecord where
  stepId : Option String
  status : Option String
  outputText : Option String := none
  truncatedFields : Option (List String) := some []
  substituteStepId : Option String := none
  error : Option String := none

def legacyPaidSkillNames : List String := ["nano-banana-pro", "seedance-2-prompt"]

/-- Saved plans of version 1 have no `side_effect`: two bundled skills count as paid by name. -/
def isExternalPaidStep (step : MetaStep) : Bool :=
  step.sideEffect == externalPaidSubmit ||
    (step.kind == .skillExec && step.skill ∈ legacyPaidSkillNames)

def paidReplayIsSafe (error : Option String) : Bool :=
  let text := (error.getD "").toList
  (Text.find durableSafeMarker.toList text).isSome &&
    (Text.find durableUnsafeMarker.toList text).isNone

def recordsFor (records : List StepRecord) (stepId : String) : List StepRecord :=
  records.filter fun record => record.stepId == some stepId

def completeOutput (record : StepRecord) : Option String :=
  match record.truncatedFields with
  | some truncated => if "output_text" ∈ truncated then none else record.outputText
  | none => none

/-! ### Trusted outputs -/

def trustRecorded (records : List StepRecord) (trusted : Outputs) (step : MetaStep) : Outputs :=
  match recordsFor records step.id with
  | [record] =>
      if record.status = some "ok" then
        match completeOutput record with
        | some output => Function.update trusted step.id (some output)
        | none => trusted
      else trusted
  | _ => trusted

/-- The output of a substitute that stood in counts for its primary as well. -/
def trustSubstituted (records : List StepRecord) (trusted : Outputs) (primary : MetaStep) :
    Outputs :=
  if primary.onFailure = "" then trusted
  else
    match recordsFor records primary.id, recordsFor records primary.onFailure with
    | [primaryRecord], [substituteRecord] =>
        if primaryRecord.status = some "substituted" ∧
            primaryRecord.substituteStepId = some primary.onFailure ∧
            substituteRecord.status = some "ok" then
          match completeOutput substituteRecord with
          | some output =>
              Function.update (Function.update trusted primary.id (some output))
                primary.onFailure (some output)
          | none => trusted
        else trusted
    | _, _ => trusted

def trustedOutputs (plan : MetaPlan) (records : List StepRecord) : Outputs :=
  plan.steps.foldl (trustSubstituted records)
    (plan.steps.foldl (trustRecorded records) fun _ => none)

/-! ### The gate -/

/-- One constructor for each reason, with the step id it names. -/
inductive PaidReplayBlock
  | failedStepMissing
  | ownerAmbiguous
  | ownerNotProvenSkipped
  | mayHaveBeenAccepted
  | ambiguousRecords (stepId : String)
  | notReusableOrSkipped (stepId : String)
  | noCompleteOutput (stepId : String)
  deriving DecidableEq, Repr

section Gate

variable {Inputs : Type} (evaluateWhen : String → Inputs → Outputs → Except String Bool)
  (noInputs : Inputs)

def paidOwners (plan : MetaPlan) (failedStepId : String) : List MetaStep :=
  plan.steps.filter fun step => step.onFailure == failedStepId && isExternalPaidStep step

def ownersBlock (plan : MetaPlan) (records : List StepRecord) (failedStepId : String) :
    Option PaidReplayBlock :=
  match paidOwners plan failedStepId with
  | [] => none
  | [owner] =>
      match recordsFor records owner.id with
      | [record] =>
          if record.status = some "substituted" ∧ record.substituteStepId = some failedStepId then
            none
          else some .ownerNotProvenSkipped
      | _ => some .ownerNotProvenSkipped
  | _ => some .ownerAmbiguous

def directPaidTargetIsSafe (records : List StepRecord) (failedStepId : String) : Bool :=
  match recordsFor records failedStepId with
  | [record] => record.status == some "failed" && paidReplayIsSafe record.error
  | _ => false

def exemptedByWhen (trusted : Outputs) (step : MetaStep) : Bool :=
  step.when != "" &&
    (match evaluateWhen step.when noInputs trusted with
      | .ok value => !value
      | .error _ => false)

def stepBlock (plan : MetaPlan) (records : List StepRecord) (failedStepId : String)
    (step : MetaStep) : Option PaidReplayBlock :=
  if !isExternalPaidStep step || step.id == failedStepId then none
  else if (paidOwners plan failedStepId).any fun owner => owner.id == step.id then none
  else
    match recordsFor records step.id with
    | [] =>
        if exemptedByWhen evaluateWhen noInputs (trustedOutputs plan records) step then none
        else some (.notReusableOrSkipped step.id)
    | [record] =>
        if record.status = some "skipped" then none
        else if (trustedOutputs plan records step.id).isSome then none
        else some (.noCompleteOutput step.id)
    | _ => some (.ambiguousRecords step.id)

def paidLiveReplayBlockReason (plan : MetaPlan) (records : List StepRecord)
    (failedStepId : String) : Option PaidReplayBlock :=
  match plan.steps.find? fun step => step.id == failedStepId with
  | none => if plan.steps.any isExternalPaidStep then some .failedStepMissing else none
  | some failedStep =>
      match ownersBlock plan records failedStepId with
      | some block => some block
      | none =>
          if isExternalPaidStep failedStep && !directPaidTargetIsSafe records failedStepId then
            some .mayHaveBeenAccepted
          else plan.steps.findSome? (stepBlock evaluateWhen noInputs plan records failedStepId)

/-! ### Evidence -/

def HasReusableOutput (plan : MetaPlan) (records : List StepRecord) (stepId : String) : Prop :=
  ∃ record ∈ records, record.status = some "ok" ∧ (completeOutput record).isSome ∧
    (record.stepId = some stepId ∨
      ∃ primary ∈ plan.steps, primary.id = stepId ∧ record.stepId = some primary.onFailure ∧
        ∃ primaryRecord ∈ records, primaryRecord.stepId = some stepId ∧
          primaryRecord.status = some "substituted" ∧
          primaryRecord.substituteStepId = some primary.onFailure)

def RecordedSkipped (records : List StepRecord) (stepId : String) : Prop :=
  ∃ record ∈ records, record.stepId = some stepId ∧ record.status = some "skipped"

def SubstitutedPrimary (plan : MetaPlan) (records : List StepRecord) (failedStepId stepId : String) :
    Prop :=
  ∃ owner ∈ plan.steps, owner.id = stepId ∧ owner.onFailure = failedStepId ∧
    ∃ record ∈ records, record.stepId = some stepId ∧ record.status = some "substituted" ∧
      record.substituteStepId = some failedStepId

/-- The expression is false whatever the later run's inputs are and whatever it adds to `trusted`. -/
def FalseFromHere (trusted : Outputs) (step : MetaStep) : Prop :=
  ∀ inputs outputs, (∀ id text, trusted id = some text → outputs id = some text) →
    evaluateWhen step.when inputs outputs = .ok false

def PaidEvidence (plan : MetaPlan) (records : List StepRecord) (failedStepId : String)
    (step : MetaStep) : Prop :=
  HasReusableOutput plan records step.id ∨ RecordedSkipped records step.id ∨
    SubstitutedPrimary plan records failedStepId step.id ∨
    FalseFromHere evaluateWhen (trustedOutputs plan records) step

/-- No record of this paid step exists and the gate lets it pass on its `when` expression alone. -/
structure ExemptStep (plan : MetaPlan) (records : List StepRecord) (failedStepId : String)
    (step : MetaStep) : Prop where
  mem : step ∈ plan.steps
  paid : isExternalPaidStep step = true
  other : step.id ≠ failedStepId
  noRecord : recordsFor records step.id = []
  exempted : exemptedByWhen evaluateWhen noInputs (trustedOutputs plan records) step = true

/-- The gate's checks, each as the code makes it. -/
structure ChecksPass (plan : MetaPlan) (records : List StepRecord) (failedStepId : String) :
    Prop where
  failedKnown : (∃ step ∈ plan.steps, step.id = failedStepId) ∨
    ∀ step ∈ plan.steps, isExternalPaidStep step = false
  owners : ∀ failedStep, plan.steps.find? (fun step => step.id == failedStepId) = some failedStep →
    ownersBlock plan records failedStepId = none
  target : ∀ failedStep, plan.steps.find? (fun step => step.id == failedStepId) = some failedStep →
    isExternalPaidStep failedStep = true → directPaidTargetIsSafe records failedStepId = true
  others : ∀ step ∈ plan.steps,
    stepBlock evaluateWhen noInputs plan records failedStepId step = none

end Gate

/-! ### What the records prove -/

theorem mem_recordsFor {records : List StepRecord} {stepId : String} {record : StepRecord} :
    record ∈ recordsFor records stepId ↔ record ∈ records ∧ record.stepId = some stepId := by
  simp [recordsFor]

theorem mem_of_recordsFor {records : List StepRecord} {stepId : String} {record : StepRecord}
    (h : recordsFor records stepId = [record]) : record ∈ records ∧ record.stepId = some stepId :=
  mem_recordsFor.mp (h ▸ List.mem_singleton_self record)

section

variable {plan : MetaPlan} {records : List StepRecord} {failedStepId : String}

def SoundOutputs (plan : MetaPlan) (records : List StepRecord) (trusted : Outputs) : Prop :=
  ∀ id, (trusted id).isSome → HasReusableOutput plan records id

theorem SoundOutputs.update {trusted : Outputs} (h : SoundOutputs plan records trusted)
    {id : String} (hid : HasReusableOutput plan records id) (output : String) :
    SoundOutputs plan records (Function.update trusted id (some output)) := by
  intro other hother
  by_cases heq : other = id
  · exact heq ▸ hid
  · rw [Function.update_of_ne heq] at hother
    exact h other hother

theorem trustRecorded_sound {trusted : Outputs} (h : SoundOutputs plan records trusted)
    (step : MetaStep) : SoundOutputs plan records (trustRecorded records trusted step) := by
  unfold trustRecorded
  split
  · rename_i record hrecord
    obtain ⟨hmem, hstep⟩ := mem_of_recordsFor hrecord
    split_ifs with hok
    · split
      · rename_i output houtput
        exact h.update ⟨record, hmem, hok, by simp [houtput], .inl hstep⟩ output
      · exact h
    · exact h
  · exact h

theorem trustSubstituted_sound {trusted : Outputs} (h : SoundOutputs plan records trusted)
    {primary : MetaStep} (hprimary : primary ∈ plan.steps) :
    SoundOutputs plan records (trustSubstituted records trusted primary) := by
  unfold trustSubstituted
  split_ifs with hnone
  · exact h
  · split
    · rename_i primaryRecord substituteRecord hprimaryRecord hsubstituteRecord
      obtain ⟨hmem, hstep⟩ := mem_of_recordsFor hsubstituteRecord
      obtain ⟨hprimaryMem, hprimaryStep⟩ := mem_of_recordsFor hprimaryRecord
      split_ifs with hedge
      · obtain ⟨hstatus, hnames, hok⟩ := hedge
        split
        · rename_i output houtput
          have hcomplete : (completeOutput substituteRecord).isSome := by simp [houtput]
          refine (h.update ?_ output).update ⟨substituteRecord, hmem, hok, hcomplete, .inl hstep⟩ output
          exact ⟨substituteRecord, hmem, hok, hcomplete, .inr ⟨primary, hprimary, rfl, hstep,
            primaryRecord, hprimaryMem, hprimaryStep, hstatus, hnames⟩⟩
        · exact h
      · exact h
    · exact h

theorem trustedOutputs_sound : SoundOutputs plan records (trustedOutputs plan records) := by
  have hempty : SoundOutputs plan records fun _ => none := fun _ h => by simp at h
  have hrecorded : SoundOutputs plan records
      (plan.steps.foldl (trustRecorded records) fun _ => none) :=
    List.foldlRecOn plan.steps _ hempty fun _ ht step _ => trustRecorded_sound ht step
  exact List.foldlRecOn plan.steps _ hrecorded fun _ ht _ hmem => trustSubstituted_sound ht hmem

theorem HasReusableOutput.recorded {id : String} (h : HasReusableOutput plan records id) :
    recordsFor records id ≠ [] := by
  obtain ⟨record, hmem, -, -, hown | ⟨-, -, -, -, primaryRecord, hprimary, hown, -⟩⟩ := h
  · exact List.ne_nil_of_mem (mem_recordsFor.mpr ⟨hmem, hown⟩)
  · exact List.ne_nil_of_mem (mem_recordsFor.mpr ⟨hprimary, hown⟩)

theorem ownersBlock_none {step : MetaStep} (h : ownersBlock plan records failedStepId = none)
    (howner : ((paidOwners plan failedStepId).any fun owner => owner.id == step.id) = true) :
    SubstitutedPrimary plan records failedStepId step.id := by
  unfold ownersBlock at h
  split at h
  · rename_i hnone
    simp [hnone] at howner
  · rename_i owner hone
    have hmem : owner ∈ paidOwners plan failedStepId := by simp [hone]
    simp only [paidOwners, List.mem_filter, Bool.and_eq_true, beq_iff_eq] at hmem
    have hid : owner.id = step.id := by simpa [hone] using howner
    split at h
    · rename_i record hrecord
      obtain ⟨hrecordMem, hrecordId⟩ := mem_of_recordsFor hrecord
      split_ifs at h with hproof
      exact ⟨owner, hmem.1, hid, hmem.2.1, record, hrecordMem, hid ▸ hrecordId, hproof⟩
    · simp at h
  · simp at h

end

section

variable {Inputs : Type} {evaluateWhen : String → Inputs → Outputs → Except String Bool}
  {noInputs : Inputs} {plan : MetaPlan} {records : List StepRecord} {failedStepId : String}

theorem checksPass_iff : paidLiveReplayBlockReason evaluateWhen noInputs plan records failedStepId =
    none ↔ ChecksPass evaluateWhen noInputs plan records failedStepId := by
  unfold paidLiveReplayBlockReason
  cases hfind : plan.steps.find? fun step => step.id == failedStepId with
  | none =>
      have hmissing := List.find?_eq_none.mp hfind
      simp only
      split_ifs with hpaid
      · refine ⟨fun h => by simp at h, fun h => ?_⟩
        obtain ⟨step, hstep, hstepPaid⟩ := List.any_eq_true.mp hpaid
        rcases h.failedKnown with ⟨failed, hfailed, hid⟩ | hfree
        · exact absurd (by simpa using hid) (hmissing failed hfailed)
        · simp [hfree step hstep] at hstepPaid
      · have hfree : ∀ step ∈ plan.steps, isExternalPaidStep step = false := by
          simpa using hpaid
        refine ⟨fun _ => ⟨.inr hfree, fun _ hfound => ?_, fun _ hfound => ?_, fun step hstep => ?_⟩,
          fun _ => rfl⟩
        · simp [hfind] at hfound
        · simp [hfind] at hfound
        · simp [stepBlock, hfree step hstep]
  | some failedStep =>
      have hmem := List.mem_of_find?_eq_some hfind
      have hid : failedStep.id = failedStepId := by simpa using List.find?_some hfind
      simp only
      constructor
      · intro h
        split at h
        · simp at h
        · rename_i howners
          split_ifs at h with htarget
          refine ⟨.inl ⟨failedStep, hmem, hid⟩, fun _ _ => howners, fun step hstep hpaid => ?_,
            List.findSome?_eq_none_iff.mp h⟩
          obtain rfl := Option.some.inj (hfind.symm.trans hstep)
          simpa [hpaid] using htarget
      · intro h
        have htarget : (isExternalPaidStep failedStep &&
            !directPaidTargetIsSafe records failedStepId) = false := by
          cases hpaid : isExternalPaidStep failedStep with
          | false => rfl
          | true => simp [h.target failedStep hfind hpaid]
        rw [h.owners failedStep hfind]
        simp only [htarget, Bool.false_eq_true, if_false]
        exact List.findSome?_eq_none_iff.mpr h.others

/-- The gate keeps every paid step other than the failed one from a second submission exactly when
the steps it exempts for want of a record have a `when` expression that stays false. -/
theorem paid_replay_evidence_iff :
    (paidLiveReplayBlockReason evaluateWhen noInputs plan records failedStepId = none →
      ∀ step ∈ plan.steps, isExternalPaidStep step = true → step.id ≠ failedStepId →
        PaidEvidence evaluateWhen plan records failedStepId step) ↔
    (ChecksPass evaluateWhen noInputs plan records failedStepId → ∀ step,
      ExemptStep evaluateWhen noInputs plan records failedStepId step →
        FalseFromHere evaluateWhen (trustedOutputs plan records) step) := by
  rw [checksPass_iff]
  constructor
  · intro hgate hpass step hexempt
    rcases hgate hpass step hexempt.mem hexempt.paid hexempt.other with
      hreusable | hskipped | hprimary | hfalse
    · exact absurd hexempt.noRecord hreusable.recorded
    · obtain ⟨record, hmem, hid, -⟩ := hskipped
      exact absurd hexempt.noRecord (List.ne_nil_of_mem (mem_recordsFor.mpr ⟨hmem, hid⟩))
    · obtain ⟨-, -, -, -, record, hmem, hid, -⟩ := hprimary
      exact absurd hexempt.noRecord (List.ne_nil_of_mem (mem_recordsFor.mpr ⟨hmem, hid⟩))
    · exact hfalse
  · intro hstable hpass step hstep hpaid hother
    have hblock := hpass.others step hstep
    unfold stepBlock at hblock
    rw [if_neg (by simp [hpaid, hother])] at hblock
    split at hblock
    · rename_i howner
      rcases hpass.failedKnown with ⟨failed, hfailed, hid⟩ | hfree
      · cases hfind : plan.steps.find? fun step => step.id == failedStepId with
        | none => exact absurd (by simpa using hid) (List.find?_eq_none.mp hfind failed hfailed)
        | some failedStep =>
            exact .inr (.inr (.inl (ownersBlock_none (hpass.owners failedStep hfind) howner)))
      · simp [hfree step hstep] at hpaid
    · split at hblock
      · rename_i hnone
        split_ifs at hblock with hexempted
        exact .inr (.inr (.inr (hstable hpass step ⟨hstep, hpaid, hother, hnone, hexempted⟩)))
      · rename_i record hrecord
        obtain ⟨hmem, hid⟩ := mem_of_recordsFor hrecord
        split_ifs at hblock with hskipped htrusted
        · exact .inr (.inl ⟨record, hmem, hid, hskipped⟩)
        · exact .inl (trustedOutputs_sound _ htrusted)
      · simp at hblock

end

/-! ### A guard that reads the inputs -/

/-- An evaluator under which `inputs.<name>` is true when the input is given. -/
def givenInput (expression : String) (inputs : List String) (_ : Outputs) : Except String Bool :=
  .ok (expression ∈ inputs)

/-- `video` is paid for and runs on request only. The run failed in `prepare`, before `video`. -/
def videoPlan : MetaPlan where
  name := "clip"
  steps := [{ id := "prepare", skill := "prepare" },
    { id := "video", skill := "renderer", kind := .skillExec, dependsOn := ["prepare"],
      when := "inputs.make_video", sideEffect := externalPaidSubmit }]

def videoRecords : List StepRecord := [{ stepId := some "prepare", status := some "failed" }]

theorem video_replay_allowed_without_evidence :
    paidLiveReplayBlockReason givenInput [] videoPlan videoRecords "prepare" = none ∧
      ∃ step ∈ videoPlan.steps, isExternalPaidStep step = true ∧ step.id ≠ "prepare" ∧
        ¬ PaidEvidence givenInput videoPlan videoRecords "prepare" step := by
  refine ⟨by decide, _, List.mem_cons_of_mem _ List.mem_cons_self, by decide, by decide, ?_⟩
  rintro (hreusable | ⟨record, hmem, hid, -⟩ | ⟨-, -, -, -, record, hmem, hid, -⟩ | hfalse)
  · exact hreusable.recorded (by rfl)
  · simp [videoRecords] at hmem
    simp [hmem] at hid
  · simp [videoRecords] at hmem
    simp [hmem] at hid
  · have hgiven := hfalse ["inputs.make_video"] (trustedOutputs videoPlan videoRecords)
      fun _ _ h => h
    simp [givenInput] at hgiven

end OpenStarry.MetaSkill
