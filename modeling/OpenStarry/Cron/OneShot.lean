import OpenStarry.Cron.Store

/-!
# One-shot jobs

Here each operation reads and writes the row in one step. A one-shot job whose successful result is
applied is deleted or disabled, unless it was paused meanwhile: a paused job only loses its
reservation and keeps its time, and resuming it makes it due again.
-/

namespace OpenStarry.Cron

open Lib

/-- An operation of the scheduler on the job, with its read and its write in one step. -/
inductive Operation where
  | reserve (token : String) (now : Time) (requireDue : Bool) (owner source : String)
  | finish (token : String) (op : ReservedOp)
  | lifecycle (call : LifecycleCall)
  | recover (now : Time)
  | fastForward (now : Time)
  deriving DecidableEq, Repr

def Operation.isReserve : Operation → Bool
  | .reserve .. => true
  | _ => false

def Operation.isResume : Operation → Bool
  | .lifecycle (.resume _) => true
  | _ => false

def Operation.updatesSchedule : Operation → Bool
  | .lifecycle (.update patch _) => patch.schedule.isSome
  | _ => false

/-- `startup_catchup`, its first step: what the previous process left reserved is released. -/
def recoverRow (job : CronJob) (now : Time) : CronJob :=
  if job.status ≠ .deleted ∧ (job.status = .running ∨ job.reservationToken ≠ "") then
    releaseReservation job now
  else job

section

variable (scan : CronScan)

/-- `startup_catchup`, its last step: a missed job beyond the first few is due at its next time; a
one-shot job is left as it is. -/
def fastForwardRow (job : CronJob) (now : Time) : CronJob :=
  if Reservable { job with reservationToken := "" } now true ∧ job.scheduleKind ≠ .at then
    match nextRun scan job now with
    | .error _ => job
    | .ok next => { job with nextRunAt := some next, updatedAt := now }
  else job

def lifecycleRow (job : CronJob) (call : LifecycleCall) : Option CronJob :=
  match call.write scan job with
  | none => some job
  | some write => write.row

def finishRow (job : CronJob) (token : String) (op : ReservedOp) : Option CronJob :=
  if job.reservationToken = token then (op.write scan job).row else some job

/-- The row after an operation; `none` when the operation is not possible. -/
def operate (row : Option CronJob) : Operation → Option (Option CronJob)
  | .reserve token now requireDue owner source =>
      if token = "" then none
      else
        match row with
        | none => none
        | some job =>
            if Reservable job now requireDue then
              some (some (reserveRow job token now owner source))
            else none
  | .finish token op =>
      if token = "" then none else some (row.bind fun job => finishRow scan job token op)
  | .lifecycle call => some (row.bind fun job => lifecycleRow scan job call)
  | .recover now => some (row.map fun job => recoverRow job now)
  | .fastForward now => some (row.map fun job => fastForwardRow scan job now)

end

def Unreserved (row : Option CronJob) : Prop := ∀ job ∈ row, job.reservationToken = ""

variable {scan : CronScan} {row row' : Option CronJob}

def Dormant (row : Option CronJob) : Prop :=
  ∀ job ∈ row, job.reservationToken = "" ∧ (job.status = .paused ∨ job.status = .disabled)

theorem dormant_none : Dormant none := by simp [Dormant]

theorem dormant_some {job : CronJob} :
    Dormant (some job) ↔
      job.reservationToken = "" ∧ (job.status = .paused ∨ job.status = .disabled) := by
  simp [Dormant]

theorem not_reservable_of_dormant {job : CronJob} (h : Dormant (some job)) {now : Time}
    {requireDue : Bool} : ¬ Reservable job now requireDue := by
  intro hreservable
  rcases (dormant_some.mp h).2 with hstatus | hstatus <;>
    exact absurd (hreservable.2.1.symm.trans hstatus) (by simp)

/-! ### Dormant jobs stay dormant -/

theorem Dormant.lifecycle {job : CronJob} {call : LifecycleCall} (h : Dormant (some job))
    (hresume : ∀ now, call ≠ .resume now) : Dormant (lifecycleRow scan job call) := by
  cases call with
  | pause now => exact dormant_some.mpr ⟨(dormant_some.mp h).1, .inl rfl⟩
  | resume now => exact absurd rfl (hresume now)
  | update patch now =>
      unfold lifecycleRow
      split
      · exact h
      · rename_i write hwrite
        obtain ⟨job', hjob', rfl⟩ := Option.map_eq_some_iff.mp hwrite
        obtain ⟨hstatus, htoken⟩ := updateJob_keeps (toOption_eq_some.mp hjob')
        refine dormant_some.mpr ?_
        rw [hstatus, htoken]
        exact dormant_some.mp h
  | remove => exact dormant_none

theorem Dormant.finish {job : CronJob} {token : String} {op : ReservedOp} (h : Dormant (some job))
    (htoken : token ≠ "") : Dormant (finishRow scan job token op) := by
  unfold finishRow
  rw [if_neg fun heq => htoken (heq.symm.trans (dormant_some.mp h).1)]
  exact h

theorem recoverRow_of_dormant {job : CronJob} (h : Dormant (some job)) (now : Time) :
    recoverRow job now = job := by
  obtain ⟨htoken, hstatus⟩ := dormant_some.mp h
  unfold recoverRow
  refine if_neg fun hstale => ?_
  rcases hstale.2 with hrunning | hreserved
  · rcases hstatus with hstatus | hstatus <;>
      exact absurd (hrunning.symm.trans hstatus) (by simp)
  · exact hreserved htoken

theorem fastForwardRow_of_dormant {job : CronJob} (h : Dormant (some job)) (now : Time) :
    fastForwardRow scan job now = job := by
  obtain ⟨htoken, hstatus⟩ := dormant_some.mp h
  have hcleared : Dormant (some { job with reservationToken := "" }) :=
    dormant_some.mpr ⟨rfl, hstatus⟩
  exact if_neg fun hdue => not_reservable_of_dormant hcleared hdue.1

theorem Dormant.operate {op : Operation} (h : Dormant row) (hresume : op.isResume = false)
    (hop : operate scan row op = some row') : Dormant row' ∧ op.isReserve = false := by
  cases row with
  | none =>
      cases op with
      | reserve token now requireDue owner source =>
          simp only [Cron.operate] at hop
          split_ifs at hop
      | finish token op =>
          simp only [Cron.operate] at hop
          split_ifs at hop
          exact ⟨Option.some.inj hop ▸ dormant_none, rfl⟩
      | lifecycle call => exact ⟨Option.some.inj hop ▸ dormant_none, rfl⟩
      | recover now => exact ⟨Option.some.inj hop ▸ dormant_none, rfl⟩
      | fastForward now => exact ⟨Option.some.inj hop ▸ dormant_none, rfl⟩
  | some job =>
      cases op with
      | reserve token now requireDue owner source =>
          simp only [Cron.operate] at hop
          split_ifs at hop with htoken hreservable
          exact absurd hreservable (not_reservable_of_dormant h)
      | finish token op =>
          simp only [Cron.operate] at hop
          split_ifs at hop with htoken
          exact ⟨Option.some.inj hop ▸ h.finish htoken, rfl⟩
      | lifecycle call =>
          refine ⟨Option.some.inj hop ▸ h.lifecycle fun now heq => ?_, rfl⟩
          rw [heq] at hresume
          simp [Operation.isResume] at hresume
      | recover now =>
          obtain rfl := Option.some.inj hop
          rw [Option.map_some, recoverRow_of_dormant h]
          exact ⟨h, rfl⟩
      | fastForward now =>
          obtain rfl := Option.some.inj hop
          rw [Option.map_some, fastForwardRow_of_dormant h]
          exact ⟨h, rfl⟩

theorem Dormant.run {ops : List Operation} (h : Dormant row)
    (hrun : runActions (Cron.operate scan) ops row = some row')
    (hresume : ∀ op ∈ ops, op.isResume = false) : ∀ op ∈ ops, op.isReserve = false := by
  induction ops generalizing row with
  | nil => exact fun op hop => absurd hop List.not_mem_nil
  | cons op rest ih =>
      rw [runActions_cons, Option.bind_eq_some_iff] at hrun
      obtain ⟨middle, hop, hrest⟩ := hrun
      obtain ⟨hdormant, hreserve⟩ := h.operate (hresume op List.mem_cons_self) hop
      refine List.forall_mem_cons.mpr ⟨hreserve, ?_⟩
      exact ih hdormant hrest fun op hop => hresume op (List.mem_cons_of_mem _ hop)

/-! ### Applying a successful result -/

/-- A successful result has been applied to a one-shot job. -/
structure OneShotApplied (scan : CronScan) (row row' : Option CronJob) (job : CronJob) : Prop where
  stored : row = some job
  oneShot : job.scheduleKind = .at
  applied : ∃ token execution now, job.reservationToken = token ∧ execution.success = true ∧
    operate scan row (.finish token (.apply execution now)) = some row'

def OneShotEnded (job : CronJob) (row' : Option CronJob) : Prop :=
  if job.status = .paused ∨ job.status = .disabled then row' = some job.clearReservation
  else if job.deleteAfterRun then row' = none
  else ∃ job', row' = some job' ∧ job'.status = .disabled ∧ job'.enabled = false

def NeverRunsAgain (scan : CronScan) : Prop :=
  ∀ row row' row'' job ops, Reach Unreserved (operate scan) anyStep row →
    OneShotApplied scan row row' job → runActions (operate scan) ops row' = some row'' →
      (∀ op ∈ ops, op.updatesSchedule = false) → ∀ op ∈ ops, op.isReserve = false

theorem OneShotApplied.ended {job : CronJob} (h : OneShotApplied scan row row' job) :
    OneShotEnded job row' ∧ Dormant row' := by
  obtain ⟨token, execution, now, htoken, hsuccess, hop⟩ := h.applied
  rw [h.stored] at hop
  simp only [operate, Option.bind_some, finishRow, if_pos htoken] at hop
  split_ifs at hop with hempty
  obtain rfl := Option.some.inj hop
  unfold OneShotEnded
  by_cases hstatus : job.status = .paused ∨ job.status = .disabled
  · rw [if_pos hstatus]
    have hrow : (ReservedOp.write scan job (.apply execution now)).row =
        some job.clearReservation := by
      simp [ReservedOp.write, applyReserved, hstatus, StoreWrite.row]
    rw [hrow]
    exact ⟨rfl, dormant_some.mpr ⟨rfl, hstatus⟩⟩
  · rw [if_neg hstatus]
    have hrow : (ReservedOp.write scan job (.apply execution now)).row =
        (applySuccess scan job now).row := by
      simp [ReservedOp.write, applyReserved, hstatus, applyResultState, hsuccess]
    rw [hrow]
    unfold applySuccess
    rw [if_pos h.oneShot]
    dsimp only
    split_ifs with hdelete
    · exact ⟨rfl, dormant_none⟩
    · exact ⟨⟨_, rfl, rfl, rfl⟩, dormant_some.mpr ⟨rfl, .inr rfl⟩⟩

theorem one_shot_runs_once {row'' : Option CronJob} {job : CronJob} {ops : List Operation}
    (happlied : OneShotApplied scan row row' job)
    (hrun : runActions (operate scan) ops row' = some row'')
    (hresume : ∀ op ∈ ops, op.isResume = false) :
    OneShotEnded job row' ∧ ∀ op ∈ ops, op.isReserve = false :=
  ⟨happlied.ended.1, happlied.ended.2.run hrun hresume⟩

/-! ### A pause during the run -/

def onceJob : CronJob :=
  { scheduleKind := .at, cronExpr := "2026-01-01T00:00:00+00:00".toList, nextRunAt := some 0
    deleteAfterRun := true }

/-- The job is paused and resumed while it runs, and its result is applied after that. -/
theorem resumed_one_shot_runs_once :
    OneShotEnded { reserveRow onceJob "a" 1 "scheduler-timer" "timer" with
        status := .pending, updatedAt := 3 } none ∧
      ∀ op ∈ [Operation.recover 5, .lifecycle (.pause 6)], op.isReserve = false := by
  have happlied : OneShotApplied noScan
      (some { reserveRow onceJob "a" 1 "scheduler-timer" "timer" with
        status := .pending, updatedAt := 3 }) none
      { reserveRow onceJob "a" 1 "scheduler-timer" "timer" with
        status := .pending, updatedAt := 3 } :=
    ⟨rfl, rfl, "a", ⟨true, none⟩, 4, rfl, rfl, rfl⟩
  exact one_shot_runs_once happlied rfl (by decide)

theorem paused_one_shot_runs_again : ¬ NeverRunsAgain noScan := by
  intro hnever
  let paused : CronJob := pauseJob (reserveRow onceJob "a" 1 "scheduler-timer" "timer") 2
  have hfresh : Unreserved (some onceJob) := by simp [Unreserved, onceJob]
  have hpaused : runActions (guardedStep (operate noScan) anyStep)
      [.reserve "a" 1 true "scheduler-timer" "timer", .lifecycle (.pause 2)] (some onceJob) =
        some (some paused) := rfl
  have hreach : Reach Unreserved (operate noScan) anyStep (some paused) :=
    Reach.actions (.start hfresh) hpaused
  have happlied : OneShotApplied noScan (some paused) (some paused.clearReservation) paused :=
    ⟨rfl, rfl, "a", ⟨true, none⟩, 3, rfl, rfl, rfl⟩
  have hrun := hnever _ _ _ _ [.lifecycle (.resume 4),
    .reserve "b" 5 true "scheduler-timer" "timer"] hreach happlied rfl (by decide)
  exact absurd hrun (by decide)

end OpenStarry.Cron
