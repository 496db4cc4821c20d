import Mathlib.Data.List.Sort
import OpenStarry.Cron.Clock
import OpenStarry.Cron.Jobs

/-!
# Which jobs are due, by the texts of their rows

The columns of a row that due checks and reservations touch, first with datetimes as a job carries
them and then with the texts the store keeps. The queries compare texts. Each selects the rows that
comparing instants selects, and the reservation leaves the row that the reserved job is saved as.
-/

namespace OpenStarry.Cron

open Lib Lib.Text

/-- The columns, with datetimes of type `τ`. -/
structure JobColumns (τ : Type) where
  id : String
  status : JobStatus
  enabled : Bool
  updatedAt : τ
  lastRunAt : Option τ
  nextRunAt : Option τ
  lastError : Option Str
  backoffUntil : Option τ
  reservationToken : String
  reservedAt : Option τ
  reservedBy : String
  reservationSource : String
  scheduledRunAt : Option τ
  deriving DecidableEq

/-! ### Saving -/

/-- `_iso`. -/
def iso : Option Datetime → Option (Option Str)
  | none => some none
  | some dt => (storageIso dt).map some

/-- `_execute_save`, unless a datetime overflows. -/
def saveColumns (job : JobColumns Datetime) : Option (JobColumns Str) := do
  let lastRunAt ← iso job.lastRunAt
  let nextRunAt ← iso job.nextRunAt
  let backoffUntil ← iso job.backoffUntil
  let reservedAt ← iso job.reservedAt
  let scheduledRunAt ← iso job.scheduledRunAt
  return { job with updatedAt := job.updatedAt.isoformat, lastRunAt, nextRunAt, backoffUntil
                    reservedAt, scheduledRunAt }

/-- A job and its row in the store. -/
structure SavedJob where
  job : JobColumns Datetime
  row : JobColumns Str
  saved : saveColumns job = some row

/-- The job by the instants of its datetimes; the other columns play no part. -/
def JobColumns.cronJob (job : JobColumns Datetime) : CronJob where
  status := job.status
  enabled := job.enabled
  updatedAt := job.updatedAt.instant
  lastRunAt := job.lastRunAt.map Datetime.instant
  nextRunAt := job.nextRunAt.map Datetime.instant
  lastError := job.lastError
  backoffUntil := job.backoffUntil.map Datetime.instant
  reservationToken := job.reservationToken
  reservedAt := job.reservedAt.map Datetime.instant
  reservedBy := job.reservedBy
  reservationSource := job.reservationSource
  scheduledRunAt := job.scheduledRunAt.map Datetime.instant

/-! ### The queries -/

/-- `next_run_at IS NOT NULL AND next_run_at <= ?`. -/
def JobColumns.nextRunReached (row : JobColumns Str) (now : Str) : Bool :=
  row.nextRunAt.any fun next => decide (notAfter next now)

/-- `backoff_until IS NULL OR backoff_until <= ?`. -/
def JobColumns.backoffOver (row : JobColumns Str) (now : Str) : Bool :=
  row.backoffUntil.all fun backoff => decide (notAfter backoff now)

/-- `ORDER BY next_run_at`. -/
def byNextRun (rows : List (JobColumns Str)) : List (JobColumns Str) :=
  rows.insertionSort fun a b => notAfter (a.nextRunAt.getD []) (b.nextRunAt.getD [])

/-- `iter_due`. -/
def iterDue (rows : List (JobColumns Str)) (now : Str) : List (JobColumns Str) :=
  byNextRun (rows.filter fun row => row.status = .pending && row.enabled &&
    row.nextRunReached now && row.backoffOver now)

/-- The least text that `next_due_at` finds. -/
def nextDueAt (rows : List (JobColumns Str)) : Option Str :=
  (byNextRun (rows.filter fun row => row.status = .pending && row.enabled &&
    row.nextRunAt.isSome)).head?.bind JobColumns.nextRunAt

def reserveColumns {τ : Type} (row : JobColumns τ) (token : String) (now : τ)
    (owner source : String) : JobColumns τ :=
  { row with status := .running, reservationToken := token, reservedAt := some now
             reservedBy := owner, reservationSource := source, scheduledRunAt := row.nextRunAt
             lastRunAt := some now, updatedAt := now, lastError := none }

/-- The update of `_reserve_job_for_run`. -/
def reserveUpdate (rows : List (JobColumns Str)) (jobId token : String) (now : Str)
    (requireDue : Bool) (owner source : String) : List (JobColumns Str) :=
  rows.map fun row =>
    if row.id = jobId && row.enabled && row.status = .pending && row.reservationToken = "" &&
        row.backoffOver now && (!requireDue || row.nextRunReached now) then
      reserveColumns row token now owner source
    else row

/-! ### A job and its row -/

theorem saveColumns_eq_some {job : JobColumns Datetime} {row : JobColumns Str} :
    saveColumns job = some row ↔ ∃ lastRunAt nextRunAt backoffUntil reservedAt scheduledRunAt,
      iso job.lastRunAt = some lastRunAt ∧ iso job.nextRunAt = some nextRunAt ∧
      iso job.backoffUntil = some backoffUntil ∧ iso job.reservedAt = some reservedAt ∧
      iso job.scheduledRunAt = some scheduledRunAt ∧
      { job with updatedAt := job.updatedAt.isoformat, lastRunAt, nextRunAt, backoffUntil
                 reservedAt, scheduledRunAt } = row := by
  simp only [saveColumns, Option.bind_eq_bind, Option.bind_eq_some_iff, Option.pure_def,
    Option.some.injEq]
  tauto

theorem compare_iso {column : Option Datetime} {stored : Option Str} (h : iso column = some stored)
    {now : Datetime} (hnow : now.utcoffset = some 0) :
    (stored.any fun text => decide (notAfter text now.isoformat)) =
        ((column.map Datetime.instant).any fun time => decide (time ≤ now.instant)) ∧
      (stored.all fun text => decide (notAfter text now.isoformat)) =
        ((column.map Datetime.instant).all fun time => decide (time ≤ now.instant)) := by
  cases column with
  | none =>
      obtain rfl := Option.some.inj h
      exact ⟨rfl, rfl⟩
  | some dt =>
      obtain ⟨text, htext, rfl⟩ := Option.map_eq_some_iff.mp h
      have hle := notAfter_storageIso htext (storageIso_utc hnow)
      exact ⟨decide_eq_decide.mpr hle, decide_eq_decide.mpr hle⟩

namespace SavedJob

variable {now : Datetime} (hnow : now.utcoffset = some 0) (s : SavedJob)

include hnow

theorem nextRunReached_row : s.row.nextRunReached now.isoformat =
    s.job.cronJob.nextRunAt.any fun next => decide (next ≤ now.instant) := by
  obtain ⟨_, _, _, _, _, -, hnext, -, -, -, hrow⟩ := saveColumns_eq_some.mp s.saved
  rw [← hrow]
  exact (compare_iso hnext hnow).1

theorem backoffOver_row : s.row.backoffOver now.isoformat =
    s.job.cronJob.backoffUntil.all fun backoff => decide (backoff ≤ now.instant) := by
  obtain ⟨_, _, _, _, _, -, -, hbackoff, -, -, hrow⟩ := saveColumns_eq_some.mp s.saved
  rw [← hrow]
  exact (compare_iso hbackoff hnow).2

theorem save_reserveColumns (token owner source : String) :
    saveColumns (reserveColumns s.job token now owner source) =
      some (reserveColumns s.row token now.isoformat owner source) := by
  obtain ⟨_, next, backoff, _, _, -, hnext, hbackoff, -, -, hrow⟩ :=
    saveColumns_eq_some.mp s.saved
  have hiso : iso (some now) = some (some now.isoformat) := by
    rw [iso, storageIso_utc hnow]
    rfl
  rw [saveColumns_eq_some, ← hrow]
  exact ⟨_, next, backoff, _, next, hiso, hnext, hbackoff, hiso, hnext, rfl⟩

end SavedJob

theorem SavedJob.plain_row (s : SavedJob) : s.row.id = s.job.id ∧
    s.row.status = s.job.cronJob.status ∧ s.row.enabled = s.job.cronJob.enabled ∧
    s.row.reservationToken = s.job.cronJob.reservationToken ∧
    iso s.job.nextRunAt = some s.row.nextRunAt := by
  obtain ⟨_, _, _, _, _, -, hnext, -, -, -, hrow⟩ := saveColumns_eq_some.mp s.saved
  rw [← hrow]
  exact ⟨rfl, rfl, rfl, rfl, hnext⟩

/-! ### The queries by instants -/

def CronJob.Waiting (job : CronJob) : Prop :=
  job.status = .pending ∧ job.enabled = true ∧ job.nextRunAt.isSome = true

def CronJob.DueAt (job : CronJob) (now : Time) : Prop :=
  job.status = .pending ∧ job.enabled = true ∧
    (job.nextRunAt.any fun next => decide (next ≤ now)) = true ∧
    (job.backoffUntil.all fun backoff => decide (backoff ≤ now)) = true

instance (job : CronJob) : Decidable job.Waiting := inferInstanceAs (Decidable (_ ∧ _))

instance (job : CronJob) (now : Time) : Decidable (job.DueAt now) :=
  inferInstanceAs (Decidable (_ ∧ _))

theorem CronJob.DueAt.waiting {job : CronJob} {now : Time} (h : job.DueAt now) : job.Waiting := by
  obtain ⟨hstatus, henabled, hnext, -⟩ := h
  refine ⟨hstatus, henabled, ?_⟩
  cases hcolumn : job.nextRunAt with
  | none =>
      rw [hcolumn] at hnext
      exact absurd hnext nofun
  | some time => rfl

def earliestFirst (table : List SavedJob) : List SavedJob :=
  table.insertionSort fun s s' =>
    s.job.cronJob.nextRunAt.getD 0 ≤ s'.job.cronJob.nextRunAt.getD 0

theorem isSome_nextRunAt_row (s : SavedJob) :
    s.row.nextRunAt.isSome = s.job.cronJob.nextRunAt.isSome := by
  have hiso := s.plain_row.2.2.2.2
  cases hnext : s.job.nextRunAt with
  | none =>
      rw [hnext] at hiso
      rw [← Option.some.inj hiso, JobColumns.cronJob, hnext]
      rfl
  | some dt =>
      rw [hnext] at hiso
      obtain ⟨text, -, htext⟩ := Option.map_eq_some_iff.mp hiso
      rw [← htext, JobColumns.cronJob, hnext]
      rfl

theorem byNextRun_rows {table : List SavedJob}
    (h : ∀ s ∈ table, s.job.cronJob.nextRunAt.isSome = true) :
    byNextRun (table.map SavedJob.row) = (earliestFirst table).map SavedJob.row := by
  symm
  apply List.map_insertionSort
  intro s hs s' hs'
  have hiso := s.plain_row.2.2.2.2
  have hiso' := s'.plain_row.2.2.2.2
  obtain ⟨time, htime⟩ := Option.isSome_iff_exists.mp (h s hs)
  obtain ⟨time', htime'⟩ := Option.isSome_iff_exists.mp (h s' hs')
  obtain ⟨dt, hdt, rfl⟩ := Option.map_eq_some_iff.mp htime
  obtain ⟨dt', hdt', rfl⟩ := Option.map_eq_some_iff.mp htime'
  rw [hdt] at hiso
  rw [hdt'] at hiso'
  obtain ⟨text, htext, hrow⟩ := Option.map_eq_some_iff.mp hiso
  obtain ⟨text', htext', hrow'⟩ := Option.map_eq_some_iff.mp hiso'
  rw [htime, htime', ← hrow, ← hrow']
  exact (notAfter_storageIso htext htext').symm

theorem iterDue_rows {now : Datetime} (hnow : now.utcoffset = some 0) (table : List SavedJob) :
    iterDue (table.map SavedJob.row) now.isoformat =
      (earliestFirst (table.filter fun s => s.job.cronJob.DueAt now.instant)).map SavedJob.row := by
  have hquery : ((fun row => row.status = .pending && row.enabled &&
      row.nextRunReached now.isoformat && row.backoffOver now.isoformat) ∘ SavedJob.row) =
      fun s => decide (s.job.cronJob.DueAt now.instant) := by
    funext s
    obtain ⟨-, hstatus, henabled, -, -⟩ := s.plain_row
    rw [Function.comp_apply, hstatus, henabled, s.nextRunReached_row hnow, s.backoffOver_row hnow,
      Bool.eq_iff_iff, decide_eq_true_iff, CronJob.DueAt]
    simp only [Bool.and_eq_true, decide_eq_true_eq, and_assoc]
  rw [iterDue, List.filter_map, hquery]
  apply byNextRun_rows
  intro s hs
  have hdue : s.job.cronJob.DueAt now.instant := of_decide_eq_true (List.mem_filter.mp hs).2
  exact hdue.waiting.2.2

theorem nextDueAt_rows (table : List SavedJob) :
    nextDueAt (table.map SavedJob.row) =
      (earliestFirst (table.filter fun s => s.job.cronJob.Waiting)).head?.bind fun s =>
        s.job.nextRunAt.bind storageIso := by
  have hquery : ((fun row => row.status = .pending && row.enabled && row.nextRunAt.isSome) ∘
      SavedJob.row) = fun s => decide s.job.cronJob.Waiting := by
    funext s
    obtain ⟨-, hstatus, henabled, -, -⟩ := s.plain_row
    rw [Function.comp_apply, hstatus, henabled, isSome_nextRunAt_row, Bool.eq_iff_iff,
      decide_eq_true_iff, CronJob.Waiting]
    simp only [Bool.and_eq_true, decide_eq_true_eq, and_assoc]
  have htext : ∀ s : SavedJob, s.row.nextRunAt = s.job.nextRunAt.bind storageIso := by
    intro s
    have hiso := s.plain_row.2.2.2.2
    cases hnext : s.job.nextRunAt with
    | none =>
        rw [hnext] at hiso
        exact (Option.some.inj hiso).symm
    | some dt =>
        rw [hnext] at hiso
        obtain ⟨text, htext, hrow⟩ := Option.map_eq_some_iff.mp hiso
        exact hrow.symm.trans htext.symm
  rw [nextDueAt, List.filter_map, hquery, byNextRun_rows, List.head?_map]
  · cases (earliestFirst (table.filter fun s => s.job.cronJob.Waiting)).head? with
    | none => rfl
    | some s => exact htext s
  · intro s hs
    have hwaiting : s.job.cronJob.Waiting := of_decide_eq_true (List.mem_filter.mp hs).2
    exact hwaiting.2.2

theorem reserveUpdate_rows {now : Datetime} (hnow : now.utcoffset = some 0)
    (table : List SavedJob) (jobId token : String) (requireDue : Bool) (owner source : String) :
    ∃ table' : List SavedJob,
      reserveUpdate (table.map SavedJob.row) jobId token now.isoformat requireDue owner source =
          table'.map SavedJob.row ∧
        table'.map SavedJob.job = table.map fun s =>
          if s.job.id = jobId ∧ Reservable s.job.cronJob now.instant requireDue then
            reserveColumns s.job token now owner source
          else s.job := by
  have hquery : ∀ s : SavedJob, (s.row.id = jobId && s.row.enabled && s.row.status = .pending &&
      s.row.reservationToken = "" && s.row.backoffOver now.isoformat &&
      (!requireDue || s.row.nextRunReached now.isoformat)) = true ↔
        s.job.id = jobId ∧ Reservable s.job.cronJob now.instant requireDue := by
    intro s
    obtain ⟨hid, hstatus, henabled, htoken, -⟩ := s.plain_row
    rw [hid, hstatus, henabled, htoken, s.nextRunReached_row hnow, s.backoffOver_row hnow,
      Reservable]
    simp only [Bool.and_eq_true, decide_eq_true_eq, Bool.or_eq_true, Bool.not_eq_true',
      ← Bool.not_eq_true, and_assoc, imp_iff_not_or]
  induction table with
  | nil => exact ⟨[], rfl, rfl⟩
  | cons s table ih =>
      obtain ⟨table', hrows, hjobs⟩ := ih
      rw [reserveUpdate] at hrows
      rw [reserveUpdate, List.map_cons, List.map_cons, hrows, List.map_cons]
      by_cases hreserve : s.job.id = jobId ∧ Reservable s.job.cronJob now.instant requireDue
      · rw [if_pos ((hquery s).mpr hreserve), if_pos hreserve]
        exact ⟨⟨_, _, s.save_reserveColumns hnow token owner source⟩ :: table', rfl,
          congrArg (List.cons _) hjobs⟩
      · rw [if_neg (mt (hquery s).mp hreserve), if_neg hreserve]
        exact ⟨s :: table', rfl, congrArg (List.cons _) hjobs⟩

/-- The texts of the store compare as the instants do, so each query selects the rows of the jobs
that are due by their instants. -/
theorem stored_texts_order_instants :
    (∀ dt : Datetime,
      (storageIso dt).isSome ↔ 0 ≤ dt.instant ∧ dt.instant < Datetime.limit) ∧
    (∀ (dt dt' : Datetime) (text text' : Str), storageIso dt = some text →
      storageIso dt' = some text' → (notAfter text text' ↔ dt.instant ≤ dt'.instant)) ∧
    ∀ (table : List SavedJob) (now : Datetime), now.utcoffset = some 0 →
      iterDue (table.map SavedJob.row) now.isoformat =
          (earliestFirst (table.filter fun s =>
            s.job.cronJob.DueAt now.instant)).map SavedJob.row ∧
        nextDueAt (table.map SavedJob.row) =
          ((earliestFirst (table.filter fun s => s.job.cronJob.Waiting)).head?.bind fun s =>
            s.job.nextRunAt.bind storageIso) ∧
        ∀ jobId token requireDue owner source, ∃ table' : List SavedJob,
          reserveUpdate (table.map SavedJob.row) jobId token now.isoformat requireDue owner
              source = table'.map SavedJob.row ∧
            table'.map SavedJob.job = table.map fun s =>
              if s.job.id = jobId ∧ Reservable s.job.cronJob now.instant requireDue then
                reserveColumns s.job token now owner source
              else s.job :=
  ⟨fun _ => isSome_storageIso_iff, fun _ _ _ _ htext htext' => notAfter_storageIso htext htext',
    fun table _ hnow => ⟨iterDue_rows hnow table, nextDueAt_rows table,
      fun jobId token requireDue owner source =>
        reserveUpdate_rows hnow table jobId token requireDue owner source⟩⟩

def lateMorning (microsecond : Nat) (h : microsecond < 1000000) : Datetime where
  date := ⟨2024, 2, 29, by decide, by decide, by decide⟩
  hour := 12
  minute := 30
  second := 0
  microsecond := microsecond
  utcoffset := some 7200000000
  year_le := by decide
  hour_lt := by decide
  minute_lt := by decide
  second_lt := by decide
  microsecond_lt := h
  utcoffset_lt := by decide

def lateMorningJob : SavedJob where
  job := ⟨"job", .pending, true, (lateMorning 0 (by decide)), none,
    some (lateMorning 0 (by decide)), none, none, "", none, "", "", none⟩
  row := ⟨"job", .pending, true, "2024-02-29T12:30:00+02:00".toList, none,
    some "2024-02-29T10:30:00+00:00".toList, none, none, "", none, "", "", none⟩
  saved := by decide +kernel

def microsecondLater : Datetime :=
  Datetime.ofMicros (lateMorning 1 (by decide)).instant.toNat (by decide +kernel)

theorem stored_texts_order_at_second_boundary :
    (notAfter "2024-02-29T10:30:00+00:00".toList "2024-02-29T10:30:00.000001+00:00".toList ↔
      (lateMorning 0 (by decide)).instant ≤ (lateMorning 1 (by decide)).instant) ∧
    iterDue [lateMorningJob.row] microsecondLater.isoformat = [lateMorningJob.row] :=
  ⟨stored_texts_order_instants.2.1 (lateMorning 0 (by decide)) (lateMorning 1 (by decide)) _ _
      (by decide +kernel) (by decide +kernel),
    (stored_texts_order_instants.2.2 [lateMorningJob] microsecondLater rfl).1.trans
      (by decide +kernel)⟩

end OpenStarry.Cron
