import Mathlib.Data.Finset.Lattice.Fold
import OpenStarry.Cron.Clock
import OpenStarry.Cron.Jobs
import OpenStarry.Lib.Cut

/-!
# The parser of cron expressions

Five fields, each a list of parts. In the month and the day-of-week field names are put into
numbers before a part is taken apart.
-/

namespace OpenStarry.Cron

open Lib Lib.Text

/-- The five fields, under the names that errors give them. -/
inductive CronFieldName where
  | minute
  | hour
  | dayOfMonth
  | month
  | dayOfWeek
  deriving DecidableEq, Repr

namespace CronFieldName

def text : CronFieldName → Str
  | minute => "minute".toList
  | hour => "hour".toList
  | dayOfMonth => "day_of_month".toList
  | month => "month".toList
  | dayOfWeek => "day_of_week".toList

/-- `_FIELD_RANGES`. -/
def range : CronFieldName → Nat × Nat
  | minute => (0, 59)
  | hour => (0, 23)
  | dayOfMonth => (1, 31)
  | month => (1, 12)
  | dayOfWeek => (0, 6)

def lo (field : CronFieldName) : Nat := field.range.1

def hi (field : CronFieldName) : Nat := field.range.2

end CronFieldName

def monthNames : List (Str × Nat) :=
  [("jan".toList, 1), ("feb".toList, 2), ("mar".toList, 3), ("apr".toList, 4), ("may".toList, 5),
    ("jun".toList, 6), ("jul".toList, 7), ("aug".toList, 8), ("sep".toList, 9), ("oct".toList, 10),
    ("nov".toList, 11), ("dec".toList, 12)]

def dowNames : List (Str × Nat) :=
  [("sun".toList, 0), ("mon".toList, 1), ("tue".toList, 2), ("wed".toList, 3), ("thu".toList, 4),
    ("fri".toList, 5), ("sat".toList, 6)]

/-- The names that `parse_cron` passes for a field. -/
def CronFieldName.names : CronFieldName → List (Str × Nat)
  | month => monthNames
  | dayOfWeek => dowNames
  | _ => []

def presets : List (Str × Str) :=
  [("@yearly".toList, "0 0 1 1 *".toList), ("@annually".toList, "0 0 1 1 *".toList),
    ("@monthly".toList, "0 0 1 * *".toList), ("@weekly".toList, "0 0 * * 0".toList),
    ("@daily".toList, "0 0 * * *".toList), ("@midnight".toList, "0 0 * * *".toList),
    ("@hourly".toList, "0 * * * *".toList)]

structure CronField where
  values : Finset Nat
  restricted : Bool := true
  deriving DecidableEq

def CronField.matches (field : CronField) (value : Nat) : Bool := value ∈ field.values

structure CronExpression where
  minute : CronField
  hour : CronField
  dayOfMonth : CronField
  month : CronField
  dayOfWeek : CronField
  raw : Str
  deriving DecidableEq

/-! ### A part of a field -/

/-- `range(start, stop + 1, step)`. -/
def steppedRange (start stop step : Nat) : Finset Nat :=
  (Finset.range (stop + 1)).filter fun v => start ≤ v ∧ (v - start) % step = 0

def upperName (name : Str) : Str := name.map Char.toUpper

def replaceNames (names : List (Str × Nat)) (text : Str) : Str :=
  names.foldl (fun text entry => replace (upperName entry.1) (decimal entry.2)
    (replace entry.1 (decimal entry.2) text)) text

def hideSigns (c : Char) : Char := if c = '/' then '§' else if c = '-' then '¶' else c

def showSigns (c : Char) : Char := if c = '§' then '/' else if c = '¶' then '-' else c

def resolveNames (names : List (Str × Nat)) (part : Str) : Str :=
  if names = [] then part else (replaceNames names (part.map hideSigns)).map showSigns

section

variable (field : CronFieldName)

/-- `_to_int`. -/
def toInt (s : Str) : Except Str Nat :=
  match readInt s with
  | none => .error ("Invalid value '".toList ++ s ++ "' in field '".toList ++ field.text ++
      "'".toList)
  | some v =>
      if (field.lo : Int) ≤ v ∧ v ≤ field.hi then .ok v.toNat
      else .error ("Value ".toList ++ intText v ++ " out of range [".toList ++
        decimal field.lo ++ ", ".toList ++ decimal field.hi ++ "] for field '".toList ++
        field.text ++ "'".toList)

def parseStep (stepStr : Str) : Except Str Nat :=
  match readInt stepStr with
  | none => .error ("Invalid step '".toList ++ stepStr ++ "' in field '".toList ++ field.text ++
      "'".toList)
  | some step =>
      if step ≤ 0 then .error ("Step must be > 0 in field '".toList ++ field.text ++ "'".toList)
      else .ok step.toNat

def parseSteppedRange (rangePart : Str) : Except Str (Nat × Nat) :=
  if rangePart = ['*'] then .ok (field.lo, field.hi)
  else if '-' ∈ rangePart then do
    let start ← toInt field (beforeFirst '-' rangePart)
    let stop ← toInt field (afterFirst '-' rangePart)
    return (start, stop)
  else (toInt field rangePart).map fun start => (start, field.hi)

/-- The values of one part whose names are resolved. -/
def parsePart (part : Str) : Except Str (Finset Nat) :=
  if '/' ∈ part then do
    let step ← parseStep field (afterFirst '/' part)
    let ends ← parseSteppedRange field (beforeFirst '/' part)
    return steppedRange ends.1 ends.2 step
  else if '-' ∈ part then do
    let start ← toInt field (beforeFirst '-' part)
    let stop ← toInt field (afterFirst '-' part)
    if stop < start then
      .error ("Range start > end in field '".toList ++ field.text ++ "'".toList)
    else return steppedRange start stop 1
  else if part = ['*'] then .ok (steppedRange field.lo field.hi 1)
  else (toInt field part).map fun v => {v}

/-- `_parse_field`. -/
def parseField (token : Str) : Except Str CronField := do
  let parts ← (token.splitOn ',').mapM fun part =>
    parsePart field (resolveNames field.names (strip part))
  return { values := parts.foldl (· ∪ ·) ∅, restricted := strip token ≠ ['*'] }

end

/-! ### The expression -/

/-- `split()`. -/
def splitFields (text : Str) : List Str := (text.splitOnP isSpace).filter (· ≠ [])

def expandPreset (expr : Str) : Except Str Str :=
  if expr.head? = some '@' then
    match presets.lookup expr with
    | some meaning => .ok meaning
    | none => .error ("Unknown preset '".toList ++ expr ++ "'".toList)
  else .ok expr

/-- `parse_cron`. -/
def parseCron (expr : Str) : Except Str CronExpression := do
  let expr ← expandPreset (strip expr)
  match splitFields expr with
  | [minute, hour, dom, month, dow] => do
      let minute ← parseField .minute minute
      let hour ← parseField .hour hour
      let dayOfMonth ← parseField .dayOfMonth dom
      let month ← parseField .month month
      let dayOfWeek ← parseField .dayOfWeek dow
      return { minute, hour, dayOfMonth, month, dayOfWeek, raw := expr }
  | fields =>
      .error ("Expected 5 fields, got ".toList ++ decimal fields.length ++ ": '".toList ++ expr ++
        "'".toList)

end OpenStarry.Cron

/-!
# The search for the next run of a cron expression

Minute by minute from the one after the given time, for a fixed number of minutes. Minutes are
counted from the beginning of the year one by the clock of the given time; matching does not end
with the year 9999 while the clock does.
-/

namespace OpenStarry.Cron

open Lib Lib.Calendar Lib.Text

/-! ### Matching -/

def CronExpression.matchesDay (e : CronExpression) (date : Date) : Bool :=
  let domMatches := e.dayOfMonth.matches date.day
  let dowMatches := e.dayOfWeek.matches ((date.weekday + 1) % 7)
  if e.dayOfMonth.restricted && e.dayOfWeek.restricted then domMatches || dowMatches
  else domMatches && dowMatches

def CronExpression.matchesTime (e : CronExpression) (date : Date) (hour minute : Nat) : Bool :=
  e.minute.matches minute && e.hour.matches hour && e.month.matches date.month &&
    e.matchesDay date

/-- `matches`. -/
def CronExpression.matches (e : CronExpression) (dt : Datetime) : Bool :=
  e.matchesTime dt.date dt.hour dt.minute

/-! ### Minutes -/

@[irreducible] def minuteLimit : Nat := daysBeforeYear 10000 * 1440

theorem limit_eq : Datetime.limit = minuteLimit * 60000000 := by
  rw [Datetime.limit, minuteLimit, microsPerDay, Nat.mul_assoc]

@[irreducible] def Datetime.minuteIndex (dt : Datetime) : Nat :=
  dt.date.toDays * 1440 + dt.hour * 60 + dt.minute

def CronExpression.matchesMinute (e : CronExpression) (m : Nat) : Bool :=
  e.matchesTime (Date.ofDays (m / 1440)) (m % 1440 / 60) (m % 60)

theorem matches_eq_matchesMinute (e : CronExpression) (dt : Datetime) :
    e.matches dt = e.matchesMinute dt.minuteIndex := by
  have hhour := dt.hour_lt
  have hminute := dt.minute_lt
  have hday : dt.minuteIndex / 1440 = dt.date.toDays := by
    rw [Datetime.minuteIndex]
    omega
  have htime : dt.minuteIndex % 1440 / 60 = dt.hour ∧ dt.minuteIndex % 60 = dt.minute := by
    rw [Datetime.minuteIndex]
    omega
  rw [CronExpression.matches, CronExpression.matchesMinute, hday, htime.1, htime.2,
    Date.ofDays_toDays]

/-! ### The search -/

/-- `replace(second=0, microsecond=0)`. -/
def Datetime.wholeMinute (dt : Datetime) : Datetime :=
  { dt with second := 0, microsecond := 0,
            second_lt := Datetime.minute_pos, microsecond_lt := Datetime.second_pos }

/-- `dt + timedelta(minutes=1)`. -/
def Datetime.addMinute (dt : Datetime) : Except Str Datetime :=
  if h : dt.micros + 60000000 < Datetime.limit then
    .ok { Datetime.ofMicros (dt.micros + 60000000) h with
          utcoffset := dt.utcoffset, utcoffset_lt := dt.utcoffset_lt }
  else .error "date value out of range".toList

/-- The loop of `_next_run`, with so many minutes left to try. -/
def searchMinutes (expr : Str) (e : CronExpression) : Nat → Datetime → Except Str Datetime
  | 0, _ => .error ("No valid next run found for expression '".toList ++ expr ++ "'".toList)
  | tries + 1, candidate =>
      if e.matches candidate then .ok candidate
      else do
        let candidate ← candidate.addMinute
        searchMinutes expr e tries candidate

def searchLimit : Nat := 2102400

/-- `_next_run` of a cron expression without a time zone and without jitter. -/
def nextCronRun (expr : Str) (after : Datetime) : Except Str Datetime := do
  let e ← parseCron expr
  let candidate ← after.wholeMinute.addMinute
  searchMinutes expr e searchLimit candidate

/-! ### Steps of a minute -/

theorem micros_eq_minuteIndex (dt : Datetime) :
    dt.micros = dt.minuteIndex * 60000000 + dt.second * 1000000 + dt.microsecond := by
  rw [Datetime.micros, Datetime.minuteIndex, dayMicros, microsPerDay]
  omega

theorem minuteIndex_lt (dt : Datetime) : dt.minuteIndex < minuteLimit := by
  have hmicros := micros_lt_limit dt
  rw [micros_eq_minuteIndex, limit_eq] at hmicros
  omega

def Datetime.OnMinute (dt : Datetime) (utcoffset : Option Int) : Prop :=
  dt.second = 0 ∧ dt.microsecond = 0 ∧ dt.utcoffset = utcoffset

theorem onMinute_wholeMinute (dt : Datetime) : dt.wholeMinute.OnMinute dt.utcoffset :=
  ⟨rfl, rfl, rfl⟩

section

variable {dt : Datetime} {utcoffset : Option Int} (hminute : dt.OnMinute utcoffset)

include hminute

theorem addMinute_ok (hlimit : dt.minuteIndex + 1 < minuteLimit) : ∃ next,
    dt.addMinute = .ok next ∧ next.minuteIndex = dt.minuteIndex + 1 ∧
      next.OnMinute utcoffset := by
  have hmicros := micros_eq_minuteIndex dt
  rw [hminute.1, hminute.2.1] at hmicros
  have hinside : dt.micros + 60000000 < Datetime.limit := by
    rw [hmicros, limit_eq]
    omega
  obtain ⟨next, hnext⟩ : ∃ next, dt.addMinute = .ok next := ⟨_, dif_pos hinside⟩
  refine ⟨next, hnext, ?_⟩
  rw [Datetime.addMinute, dif_pos hinside] at hnext
  obtain rfl := Except.ok.inj hnext
  have hsecond : (dt.micros + 60000000) % 60000000 / 1000000 = 0 := by omega
  have hmicrosecond : (dt.micros + 60000000) % 1000000 = 0 := by omega
  refine ⟨?_, hsecond, hmicrosecond, hminute.2.2⟩
  have hindex := micros_eq_minuteIndex { Datetime.ofMicros _ hinside with
    utcoffset := dt.utcoffset, utcoffset_lt := dt.utcoffset_lt }
  have hsum : dt.micros + 60000000 = _ := (Datetime.micros_ofMicros hinside).symm.trans hindex
  have hsecond' : (Datetime.ofMicros _ hinside).second = 0 := hsecond
  have hmicrosecond' : (Datetime.ofMicros _ hinside).microsecond = 0 := hmicrosecond
  rw [hsecond', hmicrosecond'] at hsum
  omega

theorem addMinute_eq_ok {next : Datetime} (h : dt.addMinute = .ok next) :
    next.minuteIndex = dt.minuteIndex + 1 ∧ next.OnMinute utcoffset := by
  by_cases hlimit : dt.minuteIndex + 1 < minuteLimit
  · obtain ⟨found, hfound, hindex, hon⟩ := addMinute_ok hminute hlimit
    obtain rfl := Except.ok.inj (h.symm.trans hfound)
    exact ⟨hindex, hon⟩
  · have houtside : ¬ dt.micros + 60000000 < Datetime.limit := by
      rw [micros_eq_minuteIndex, hminute.1, hminute.2.1, limit_eq]
      omega
    rw [Datetime.addMinute, dif_neg houtside] at h
    exact absurd h nofun

theorem searchMinutes_eq_ok {expr : Str} {e : CronExpression} {tries : Nat} {run : Datetime}
    (h : searchMinutes expr e tries dt = .ok run) : ∃ k < tries,
      run.minuteIndex = dt.minuteIndex + k ∧ run.OnMinute utcoffset ∧
        e.matchesMinute (dt.minuteIndex + k) = true ∧
        ∀ j < k, e.matchesMinute (dt.minuteIndex + j) = false := by
  induction tries generalizing dt with
  | zero => exact absurd h nofun
  | succ tries ih =>
      rw [searchMinutes] at h
      by_cases hmatch : e.matches dt = true
      · rw [if_pos hmatch] at h
        obtain rfl := Except.ok.inj h
        rw [matches_eq_matchesMinute] at hmatch
        exact ⟨0, Nat.succ_pos _, rfl, hminute, hmatch, nofun⟩
      · rw [if_neg hmatch] at h
        rw [matches_eq_matchesMinute, Bool.not_eq_true] at hmatch
        obtain ⟨next, hnext, h⟩ := bind_eq_ok.mp h
        obtain ⟨hindex, hon⟩ := addMinute_eq_ok hminute hnext
        obtain ⟨k, hk, hrun, honRun, hfound, hfirst⟩ := ih hon h
        refine ⟨k + 1, Nat.succ_lt_succ hk, by omega, honRun, ?_, ?_⟩
        · rw [show dt.minuteIndex + (k + 1) = next.minuteIndex + k by omega]
          exact hfound
        · intro j hj
          cases j with
          | zero => exact hmatch
          | succ j =>
              rw [show dt.minuteIndex + (j + 1) = next.minuteIndex + j by omega]
              exact hfirst j (by omega)

theorem searchMinutes_ok (expr : Str) {e : CronExpression} {tries k : Nat} (hk : k < tries)
    (hlimit : dt.minuteIndex + k < minuteLimit)
    (hmatch : e.matchesMinute (dt.minuteIndex + k) = true) :
    ∃ run, searchMinutes expr e tries dt = .ok run := by
  induction tries generalizing dt k with
  | zero => exact absurd hk (Nat.not_lt_zero k)
  | succ tries ih =>
      rw [searchMinutes]
      by_cases hhere : e.matches dt = true
      · exact ⟨dt, if_pos hhere⟩
      · rw [if_neg hhere]
        cases k with
        | zero =>
            rw [matches_eq_matchesMinute] at hhere
            exact absurd hmatch hhere
        | succ k =>
            obtain ⟨next, hnext, hindex, hon⟩ := addMinute_ok hminute (by omega)
            rw [hnext, ok_bind]
            apply ih hon (Nat.lt_of_succ_lt_succ hk) (by omega)
            rw [show next.minuteIndex + k = dt.minuteIndex + (k + 1) by omega]
            exact hmatch

end

end OpenStarry.Cron
