import OpenStarry.Lib.Decimal
import OpenStarry.Lib.Outcome
import OpenStarry.Lib.Substring

/-!
# The row of a scheduled job and what may be done to it

A job is one row of the store. Reserving it is one conditional update; every other operation works
on a row that was read before. Times are microseconds. Scanning a cron expression in its time zone
is a parameter. Columns that none of the operations reads are left out.
-/

namespace OpenStarry.Cron

open Lib Lib.Text

abbrev Time := Int

def seconds (n : Int) : Time := n * 1000000

inductive JobStatus where
  | pending
  | running
  | paused
  | failed
  | disabled
  | deleted
  deriving DecidableEq, Repr

inductive ScheduleKind where
  | cron
  | at
  | every
  deriving DecidableEq, Repr

structure CronJob where
  handlerKey : String := ""
  status : JobStatus := .pending
  updatedAt : Time := 0
  lastRunAt : Option Time := none
  nextRunAt : Option Time := none
  runCount : Nat := 0
  errorCount : Nat := 0
  lastError : Option Str := none
  jitter : Time := 0
  scheduleKind : ScheduleKind := .cron
  scheduleRaw : Str := []
  cronExpr : Str := []
  tz : String := ""
  anchorAt : Option Time := none
  deleteAfterRun : Bool := false
  enabled : Bool := true
  backoffUntil : Option Time := none
  consecutiveErrors : Nat := 0
  reservationToken : String := ""
  reservedAt : Option Time := none
  reservedBy : String := ""
  reservationSource : String := ""
  scheduledRunAt : Option Time := none
  deriving DecidableEq, Repr

structure JobExecution where
  success : Bool
  error : Option Str := none
  deriving DecidableEq, Repr

/-- `clear_reservation`. -/
def CronJob.clearReservation (job : CronJob) : CronJob :=
  { job with reservationToken := "", reservedAt := none, reservedBy := "", reservationSource := ""
             scheduledRunAt := none }

/-! ### The next run -/

/-- The next wall time after `after` that a cron expression matches in a time zone; an error when
the expression does not parse or nothing matches. -/
abbrev CronScan := Str → String → Time → Except Str Time

/-- `isdigit` of the text of an interval. -/
def isDigits (text : Str) : Bool := text ≠ [] && text.all isDecimal

/-- `_next_run`. -/
def nextRun (scan : CronScan) (job : CronJob) (after : Time) : Except Str Time :=
  if job.scheduleKind = .every ∧ isDigits job.cronExpr then
    let interval := seconds (intOf job.cronExpr)
    match job.anchorAt with
    | none => .ok (after + interval)
    | some anchor =>
        if after < anchor then .ok anchor
        else if interval = 0 then .error "float floor division by zero".toList
        else .ok (anchor + ((after - anchor) / interval + 1) * interval)
  else (scan job.cronExpr job.tz after).map (· + job.jitter)

def noScan : CronScan := fun _ _ _ => .error []

/-! ### Applying a result -/

/-- `lower`, as far as ASCII characters come out of it. -/
def lowerChar (c : Char) : Str :=
  if c = '\u212a' then ['k'] else if c = '\u0130' then ['i', '\u0307'] else [c.toLower]

def transientErrorPatterns : List String :=
  ["rate limit", "too many requests", "resource exhausted", "429", "529", "overload", "timeout",
   "timed out", "econnreset", "fetch failed", "socket", "network", "service unavailable",
   "bad gateway", "gateway timeout", "502", "503", "504", "cloudflare"]

def permanentErrorPatterns : List String :=
  ["unauthorized", "invalid api key", "invalid_api_key", "forbidden", "401", "403", "validation",
   "invalid request", "no handler registered"]

inductive ErrorClass where
  | transient
  | permanent
  deriving DecidableEq, Repr

/-- `classify_error`. -/
def classifyError : Option Str → ErrorClass
  | none => .transient
  | some errorText =>
      let lowered := errorText.flatMap lowerChar
      if permanentErrorPatterns.any fun pattern => (find pattern.toList lowered).isSome then
        .permanent
      else if transientErrorPatterns.any fun pattern => (find pattern.toList lowered).isSome then
        .transient
      else .transient

def backoffSchedule : List Int := [30, 60, 300, 900, 3600]

def maxConsecutiveErrors : Nat := 5

def oneShotMaxRetries : Nat := 3

/-- `compute_backoff`. -/
def computeBackoff (consecutiveErrors : Nat) : Time :=
  if consecutiveErrors = 0 then 0
  else seconds (backoffSchedule.getD (min (consecutiveErrors - 1) (backoffSchedule.length - 1)) 0)

/-- `_mark_schedule_compute_failed`. -/
def markScheduleComputeFailed (job : CronJob) (error : Str) (now : Time) (incrementError : Bool) :
    CronJob :=
  let job := if incrementError then
    { job with errorCount := job.errorCount + 1, consecutiveErrors := job.consecutiveErrors + 1 }
    else job
  { job with status := .failed, lastError := some ("schedule compute failed: ".toList ++ error)
             updatedAt := now, backoffUntil := none, nextRunAt := none : CronJob }.clearReservation

/-- What a write to the store does: `delete`, or `save` of the whole row. -/
inductive StoreWrite where
  | delete
  | save (job : CronJob)
  deriving DecidableEq, Repr

def StoreWrite.row : StoreWrite → Option CronJob
  | .delete => none
  | .save job => some job

section

variable (scan : CronScan)

def applySuccess (job : CronJob) (now : Time) : StoreWrite :=
  let job := { job with consecutiveErrors := 0, backoffUntil := none, lastError := none
                        runCount := job.runCount + 1, updatedAt := now }
  if job.scheduleKind = .at then
    if job.deleteAfterRun then .delete
    else .save { job.clearReservation with status := .disabled, enabled := false }
  else
    match nextRun scan job now with
    | .error error => .save (markScheduleComputeFailed job error now true)
    | .ok next => .save { job with nextRunAt := some next, status := .pending }.clearReservation

def applyFailure (job : CronJob) (error : Option Str) (now : Time) : CronJob :=
  let job := { job with consecutiveErrors := job.consecutiveErrors + 1
                        errorCount := job.errorCount + 1, lastError := error
                        runCount := job.runCount + 1, updatedAt := now }
  if classifyError error = .permanent then
    { job with status := .disabled, enabled := false, nextRunAt := none
               backoffUntil := none : CronJob }.clearReservation
  else if job.scheduleKind ≠ .at then
    if maxConsecutiveErrors ≤ job.consecutiveErrors then
      { job with status := .failed, nextRunAt := none, backoffUntil := none
          : CronJob }.clearReservation
    else
      match nextRun scan job now with
      | .error failure => markScheduleComputeFailed job failure now false
      | .ok next =>
          { job with nextRunAt := some next, status := .pending
                     backoffUntil := some (now + computeBackoff job.consecutiveErrors)
              : CronJob }.clearReservation
  else if oneShotMaxRetries ≤ job.consecutiveErrors then
    { job with status := .disabled, enabled := false : CronJob }.clearReservation
  else
    { job with backoffUntil := some (now + computeBackoff job.consecutiveErrors)
               status := .pending : CronJob }.clearReservation

/-- `_apply_result_state`. -/
def applyResultState (job : CronJob) (execution : JobExecution) (now : Time) : StoreWrite :=
  if execution.success then applySuccess scan job now
  else .save (applyFailure scan job execution.error now)

/-- `apply_reserved_result`, on a row that carries the token. -/
def applyReserved (job : CronJob) (execution : JobExecution) (now : Time) : StoreWrite :=
  if job.status = .paused ∨ job.status = .disabled then .save job.clearReservation
  else applyResultState scan job execution now

/-- `finalize_reserved_missing_handler`, on a row that carries the token. -/
def finalizeMissingHandler (job : CronJob) (error : Str) (now : Time) : CronJob :=
  { job with status := .failed, errorCount := job.errorCount + 1
             consecutiveErrors := job.consecutiveErrors + 1, lastError := some error
             nextRunAt := none, backoffUntil := none, updatedAt := now : CronJob }.clearReservation

/-- `release_reservation`, on a row that carries the token. -/
def releaseReservation (job : CronJob) (now : Time) : CronJob :=
  let job := job.clearReservation
  { job with status := if job.status = .running then .pending else job.status, updatedAt := now }

/-! ### Reserving -/

/-- The conditions of the conditional update; `requireDue` is for the timer. -/
def Reservable (job : CronJob) (now : Time) (requireDue : Bool) : Prop :=
  job.enabled = true ∧ job.status = .pending ∧ job.reservationToken = "" ∧
    (job.backoffUntil.all fun backoff => decide (backoff ≤ now)) = true ∧
    (requireDue = true → (job.nextRunAt.any fun next => decide (next ≤ now)) = true)

instance (job : CronJob) (now : Time) (requireDue : Bool) :
    Decidable (Reservable job now requireDue) := by
  unfold Reservable; infer_instance

/-- `_reserve_job_for_run`: the updated row. -/
def reserveRow (job : CronJob) (token : String) (now : Time) (owner source : String) : CronJob :=
  { job with status := .running, reservationToken := token, reservedAt := some now
             reservedBy := owner, reservationSource := source, scheduledRunAt := job.nextRunAt
             lastRunAt := some now, updatedAt := now, lastError := none }

/-! ### Lifecycle calls -/

/-- `pause`. -/
def pauseJob (job : CronJob) (now : Time) : CronJob :=
  { job with status := .paused, updatedAt := now }

/-- `resume`: computing the next run may raise. -/
def resumeJob (job : CronJob) (now : Time) : Except Str CronJob := do
  let job := { job with status := .pending, enabled := true, backoffUntil := none
                        consecutiveErrors := 0, updatedAt := now }
  if job.scheduleKind = .at then return job
  else if job.scheduleKind = .every ∧ isDigits job.cronExpr ∧ job.anchorAt = none then
    return { job with nextRunAt := some (now + seconds (intOf job.cronExpr)) }
  else
    let next ← nextRun scan job now
    return { job with nextRunAt := some next }

/-- A validated schedule of `update`; for a one-shot job the time it names. -/
inductive NewSchedule where
  | at (value : Str) (time : Time)
  | every (value : Str)
  | cron (value : Str)
  deriving DecidableEq, Repr

/-- The part of a patch that the columns modelled here see. -/
structure JobPatch where
  tz : Option String := none
  schedule : Option NewSchedule := none
  enabled : Option Bool := none
  handlerKey : Option String := none
  deriving DecidableEq, Repr

def updateSchedule (job : CronJob) (now : Time) : NewSchedule → Except Str CronJob
  | .at value time =>
      return { job with scheduleRaw := value, scheduleKind := .at, cronExpr := value
                        anchorAt := none, nextRunAt := some time }
  | .every value =>
      return { job with scheduleRaw := value, scheduleKind := .every, cronExpr := value
                        anchorAt := some now, nextRunAt := some (now + seconds (intOf value)) }
  | .cron value => do
      let job := { job with scheduleRaw := value, scheduleKind := .cron, cronExpr := value
                            anchorAt := none }
      let next ← nextRun scan job now
      return { job with nextRunAt := some next }

def patchSchedule (job : CronJob) (now : Time) : Option NewSchedule → Except Str CronJob
  | none => return job
  | some schedule => updateSchedule scan job now schedule

/-- `update`, once the patch is validated. -/
def updateJob (job : CronJob) (patch : JobPatch) (now : Time) : Except Str CronJob := do
  let job ← patchSchedule scan { job with tz := patch.tz.getD job.tz } now patch.schedule
  return { job with enabled := patch.enabled.getD job.enabled
                    handlerKey := patch.handlerKey.getD job.handlerKey, updatedAt := now }

end

theorem updateSchedule_keeps {scan : CronScan} {job job' : CronJob} {now : Time} {schedule : NewSchedule}
    (h : updateSchedule scan job now schedule = .ok job') :
    job'.status = job.status ∧ job'.reservationToken = job.reservationToken := by
  cases schedule with
  | «at» value time => rw [← pure_eq_ok.mp h]; exact ⟨rfl, rfl⟩
  | every value => rw [← pure_eq_ok.mp h]; exact ⟨rfl, rfl⟩
  | cron value =>
      obtain ⟨next, -, hnext⟩ := bind_eq_ok.mp h
      rw [← pure_eq_ok.mp hnext]
      exact ⟨rfl, rfl⟩

theorem updateJob_keeps {scan : CronScan} {job job' : CronJob} {patch : JobPatch} {now : Time}
    (h : updateJob scan job patch now = .ok job') :
    job'.status = job.status ∧ job'.reservationToken = job.reservationToken := by
  unfold updateJob at h
  obtain ⟨scheduled, hscheduled, h⟩ := bind_eq_ok.mp h
  rw [← pure_eq_ok.mp h]
  cases hschedule : patch.schedule with
  | none =>
      rw [hschedule] at hscheduled
      rw [← pure_eq_ok.mp hscheduled]
      exact ⟨rfl, rfl⟩
  | some schedule =>
      rw [hschedule] at hscheduled
      have hkept := updateSchedule_keeps hscheduled
      exact hkept

end OpenStarry.Cron
