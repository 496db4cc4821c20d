import OpenStarry.Lib.Calendar
import OpenStarry.Lib.Padded

/-!
# Datetimes and the texts the store keeps of them

A datetime is the date and the time of day on a clock, and how far that clock is ahead of UTC when
it is known. Instants are microseconds since the beginning of the year one, UTC. The store writes
a datetime as the ISO text of its UTC clock; the texts compare as the instants do.
-/

namespace OpenStarry.Cron

open Lib Lib.Calendar Lib.Text

def microsPerDay : Nat := 86400000000

def dayMicros (hour minute second microsecond : Nat) : Nat :=
  ((hour * 60 + minute) * 60 + second) * 1000000 + microsecond

structure Datetime where
  date : Date
  hour : Nat
  minute : Nat
  second : Nat
  microsecond : Nat
  utcoffset : Option Int
  year_le : date.year ≤ 9999
  hour_lt : hour < 24
  minute_lt : minute < 60
  second_lt : second < 60
  microsecond_lt : microsecond < 1000000
  utcoffset_lt : ∀ offset ∈ utcoffset, offset.natAbs < microsPerDay

namespace Datetime

def micros (dt : Datetime) : Nat :=
  dt.date.toDays * microsPerDay + dayMicros dt.hour dt.minute dt.second dt.microsecond

def instant (dt : Datetime) : Int := dt.micros - dt.utcoffset.getD 0

def limit : Nat := daysBeforeYear 10000 * microsPerDay

/-! ### The UTC clock -/

theorem year_le_of_toDays_lt {date : Date} (h : date.toDays < daysBeforeYear 10000) :
    date.year ≤ 9999 := by
  by_contra hyear
  obtain hlast | hlater := Nat.lt_or_eq_of_le (show 10000 ≤ date.year by omega)
  · have hyears := daysBeforeYear_add_le (by omega) hlast
    rw [Date.toDays] at h
    omega
  · rw [Date.toDays, ← hlater] at h
    omega

theorem hour_pos : 0 < 24 := by decide

theorem minute_pos : 0 < 60 := by decide

theorem second_pos : 0 < 1000000 := by decide

theorem utc_lt : ∀ offset ∈ some (0 : Int), offset.natAbs < microsPerDay := by
  intro offset hoffset
  obtain rfl := Option.mem_some_iff.mp hoffset
  decide

/-- What the UTC clock shows so many microseconds after the beginning of the year one. -/
def ofMicros (micros : Nat) (h : micros < limit) : Datetime where
  date := Date.ofDays (micros / microsPerDay)
  hour := micros % microsPerDay / 3600000000
  minute := micros % 3600000000 / 60000000
  second := micros % 60000000 / 1000000
  microsecond := micros % 1000000
  utcoffset := some 0
  year_le := year_le_of_toDays_lt (by
    rw [Date.toDays_ofDays]
    exact Nat.div_lt_of_lt_mul (Nat.lt_of_lt_of_eq h (Nat.mul_comm _ _)))
  hour_lt := Nat.div_lt_of_lt_mul (Nat.mod_lt _ (by decide))
  minute_lt := Nat.div_lt_of_lt_mul (Nat.mod_lt _ (by decide))
  second_lt := Nat.div_lt_of_lt_mul (Nat.mod_lt _ (by decide))
  microsecond_lt := Nat.mod_lt _ (by decide)
  utcoffset_lt := utc_lt

theorem micros_ofMicros {micros : Nat} (h : micros < limit) :
    (ofMicros micros h).micros = micros := by
  have hday := Nat.div_add_mod micros microsPerDay
  have hdate : (ofMicros micros h).date.toDays = micros / microsPerDay := Date.toDays_ofDays _
  have htime : dayMicros (ofMicros micros h).hour (ofMicros micros h).minute
      (ofMicros micros h).second (ofMicros micros h).microsecond = micros % microsPerDay := by
    rw [dayMicros]
    show ((micros % microsPerDay / 3600000000 * 60 + micros % 3600000000 / 60000000) * 60 +
      micros % 60000000 / 1000000) * 1000000 + micros % 1000000 = micros % microsPerDay
    rw [microsPerDay]
    omega
  rw [Datetime.micros, hdate, htime, Nat.mul_comm]
  exact hday

/-- `astimezone(UTC)`; it overflows outside the years 1 to 9999. -/
def astimezoneUtc (dt : Datetime) : Option Datetime :=
  if h : 0 ≤ dt.instant ∧ dt.instant.toNat < limit then some (ofMicros dt.instant.toNat h.2)
  else none

/-! ### ISO texts -/

def fractionText (microsecond : Nat) : Str :=
  if microsecond = 0 then [] else '.' :: padded 6 microsecond

def offsetText (offset : Int) : Str :=
  let sign := if offset < 0 then '-' else '+'
  let second := offset.natAbs % 60000000 / 1000000
  let microsecond := offset.natAbs % 1000000
  sign :: (padded 2 (offset.natAbs / 3600000000) ++
    (':' :: padded 2 (offset.natAbs % 3600000000 / 60000000)) ++
    (if second = 0 ∧ microsecond = 0 then [] else
      ':' :: padded 2 second ++ fractionText microsecond))

/-- `isoformat`. -/
def isoformat (dt : Datetime) : Str :=
  padded 4 dt.date.year ++ ('-' :: (padded 2 dt.date.month ++ ('-' :: (padded 2 dt.date.day ++
    ('T' :: (padded 2 dt.hour ++ (':' :: (padded 2 dt.minute ++ (':' :: (padded 2 dt.second ++
      (fractionText dt.microsecond ++ dt.utcoffset.elim [] offsetText)))))))))))

end Datetime

def Datetime.aware (dt : Datetime) : Datetime :=
  { dt with
    utcoffset := some (dt.utcoffset.getD 0)
    utcoffset_lt := by
      intro offset hoffset
      obtain rfl := Option.mem_some_iff.mp hoffset
      cases hknown : dt.utcoffset with
      | none => decide
      | some offset => exact dt.utcoffset_lt offset hknown }

/-- `_storage_iso`. -/
def storageIso (dt : Datetime) : Option Str := dt.aware.astimezoneUtc.map Datetime.isoformat

/-! ### The order of texts -/

/-- A text without a fraction comes before one with it, as `+` comes before a point. -/
theorem before_fraction {m n : Nat} (hm : m < 1000000) (hn : n < 1000000) (rest : Str) :
    before (Datetime.fractionText m ++ '+' :: rest) (Datetime.fractionText n ++ '+' :: rest) =
      true ↔ m < n := by
  have hpoint : '+' ≠ '.' := by decide
  rw [Datetime.fractionText, Datetime.fractionText]
  by_cases hmzero : m = 0
  · rw [if_pos hmzero]
    by_cases hnzero : n = 0
    · rw [if_pos hnzero, before_self]
      exact ⟨nofun, fun h => absurd h (by omega)⟩
    · rw [if_neg hnzero, List.nil_append, List.cons_append, before_cons_of_ne hpoint]
      exact ⟨fun _ => by omega, fun _ => rfl⟩
  · rw [if_neg hmzero]
    by_cases hnzero : n = 0
    · rw [if_pos hnzero, List.cons_append, List.nil_append, before_cons_of_ne hpoint.symm]
      exact ⟨nofun, fun h => absurd h (by omega)⟩
    · rw [if_neg hnzero, List.cons_append, List.cons_append, before_cons_self,
        before_padded_append hm hn, before_self]
      exact ⟨fun h => h.elim id fun h => absurd h.2 nofun, Or.inl⟩

theorem micros_lt_iff {dt dt' : Datetime} : dt.micros < dt'.micros ↔
    dt.date.Before dt'.date ∨ dt.date = dt'.date ∧
      (dt.hour < dt'.hour ∨ dt.hour = dt'.hour ∧
        (dt.minute < dt'.minute ∨ dt.minute = dt'.minute ∧
          (dt.second < dt'.second ∨ dt.second = dt'.second ∧
            dt.microsecond < dt'.microsecond))) := by
  have hhour := dt.hour_lt
  have hhour' := dt'.hour_lt
  have hminute := dt.minute_lt
  have hminute' := dt'.minute_lt
  have hsecond := dt.second_lt
  have hsecond' := dt'.second_lt
  have hmicro := dt.microsecond_lt
  have hmicro' := dt'.microsecond_lt
  rw [← Date.toDays_lt_iff, ← Date.toDays_inj, Datetime.micros, Datetime.micros, dayMicros,
    dayMicros, microsPerDay]
  omega

theorem fields_lt (dt : Datetime) : dt.date.year < 10 ^ 4 ∧ dt.date.month < 10 ^ 2 ∧
    dt.date.day < 10 ^ 2 ∧ dt.hour < 10 ^ 2 ∧ dt.minute < 10 ^ 2 ∧ dt.second < 10 ^ 2 := by
  have hyear := dt.year_le
  have hmonth := dt.date.month_mem
  have hday := dt.date.day_mem
  have hlength := daysInMonth_le dt.date.year dt.date.month
  have hhour := dt.hour_lt
  have hminute := dt.minute_lt
  have hsecond := dt.second_lt
  omega

theorem before_isoformat {dt dt' : Datetime} (h : dt.utcoffset = some 0)
    (h' : dt'.utcoffset = some 0) :
    before dt.isoformat dt'.isoformat = true ↔ dt.micros < dt'.micros := by
  obtain ⟨hyear, hmonth, hday, hhour, hminute, hsecond⟩ := fields_lt dt
  obtain ⟨hyear', hmonth', hday', hhour', hminute', hsecond'⟩ := fields_lt dt'
  have hoffset : Option.elim (some 0) [] Datetime.offsetText = '+' :: "00:00".toList := by decide
  rw [Datetime.isoformat, Datetime.isoformat, h, h', before_padded_append hyear hyear',
    before_cons_self, before_padded_append hmonth hmonth', before_cons_self,
    before_padded_append hday hday', before_cons_self, before_padded_append hhour hhour',
    before_cons_self, before_padded_append hminute hminute', before_cons_self,
    before_padded_append hsecond hsecond', hoffset,
    before_fraction dt.microsecond_lt dt'.microsecond_lt, micros_lt_iff, Date.Before, Date.eq_iff]
  tauto

theorem isoformat_eq_of_micros {dt dt' : Datetime} (h : dt.utcoffset = some 0)
    (h' : dt'.utcoffset = some 0) (hmicros : dt.micros = dt'.micros) :
    dt.isoformat = dt'.isoformat := by
  apply eq_of_not_before
  · rw [Bool.eq_false_iff, Ne, before_isoformat h h']
    omega
  · rw [Bool.eq_false_iff, Ne, before_isoformat h' h]
    omega

/-! ### What is stored -/

theorem astimezoneUtc_eq_some {dt utc : Datetime} : dt.astimezoneUtc = some utc ↔
    ∃ h : 0 ≤ dt.instant ∧ dt.instant.toNat < Datetime.limit,
      Datetime.ofMicros dt.instant.toNat h.2 = utc := by
  unfold Datetime.astimezoneUtc
  split_ifs with h
  · rw [Option.some.injEq]
    exact ⟨fun hutc => ⟨h, hutc⟩, fun ⟨_, hutc⟩ => hutc⟩
  · exact ⟨fun hutc => absurd hutc nofun, fun ⟨hinside, _⟩ => absurd hinside h⟩

theorem storageIso_eq_some {dt : Datetime} {text : Str} : storageIso dt = some text ↔
    ∃ h : 0 ≤ dt.instant ∧ dt.instant.toNat < Datetime.limit,
      (Datetime.ofMicros dt.instant.toNat h.2).isoformat = text := by
  have haware : dt.aware.instant = dt.instant := rfl
  rw [storageIso, Option.map_eq_some_iff]
  simp only [astimezoneUtc_eq_some, haware]
  constructor
  · intro ⟨utc, ⟨h, hutc⟩, htext⟩
    rw [← hutc] at htext
    exact ⟨h, htext⟩
  · intro ⟨h, htext⟩
    exact ⟨_, ⟨h, rfl⟩, htext⟩

theorem isSome_storageIso_iff {dt : Datetime} : (storageIso dt).isSome ↔
    0 ≤ dt.instant ∧ dt.instant < Datetime.limit := by
  rw [Option.isSome_iff_exists]
  simp only [storageIso_eq_some]
  constructor
  · rintro ⟨text, h, -⟩
    omega
  · intro h
    exact ⟨_, ⟨h.1, by omega⟩, rfl⟩

theorem before_storageIso {dt dt' : Datetime} {text text' : Str} (h : storageIso dt = some text)
    (h' : storageIso dt' = some text') :
    before text text' = true ↔ dt.instant < dt'.instant := by
  obtain ⟨hinside, rfl⟩ := storageIso_eq_some.mp h
  obtain ⟨hinside', rfl⟩ := storageIso_eq_some.mp h'
  rw [before_isoformat rfl rfl, Datetime.micros_ofMicros, Datetime.micros_ofMicros]
  omega

theorem notAfter_storageIso {dt dt' : Datetime} {text text' : Str}
    (h : storageIso dt = some text) (h' : storageIso dt' = some text') :
    notAfter text text' ↔ dt.instant ≤ dt'.instant := by
  rw [notAfter, Bool.eq_false_iff, Ne, before_storageIso h' h, Int.not_lt]

theorem micros_lt_limit (dt : Datetime) : dt.micros < Datetime.limit := by
  have hday := Date.daysBeforeMonth_add_day_lt dt.date
  have hyear : daysBeforeYear dt.date.year + daysInYear dt.date.year ≤ daysBeforeYear 10000 :=
    daysBeforeYear_add_le dt.date.year_pos (Nat.lt_succ_of_le dt.year_le)
  have hdays : dt.date.toDays + 1 ≤ daysBeforeYear 10000 := by
    rw [Date.toDays]
    omega
  have htime : dayMicros dt.hour dt.minute dt.second dt.microsecond < microsPerDay := by
    have hhour := dt.hour_lt
    have hminute := dt.minute_lt
    have hsecond := dt.second_lt
    have hmicro := dt.microsecond_lt
    rw [dayMicros, microsPerDay]
    omega
  calc dt.micros < dt.date.toDays * microsPerDay + microsPerDay := Nat.add_lt_add_left htime _
    _ = (dt.date.toDays + 1) * microsPerDay := (Nat.succ_mul _ _).symm
    _ ≤ Datetime.limit := Nat.mul_le_mul_right _ hdays

theorem storageIso_utc {dt : Datetime} (h : dt.utcoffset = some 0) :
    storageIso dt = some dt.isoformat := by
  have hinstant : dt.instant = dt.micros := by
    rw [Datetime.instant, h]
    exact Int.sub_zero _
  have hlimit := micros_lt_limit dt
  rw [storageIso_eq_some]
  refine ⟨⟨by omega, by omega⟩, isoformat_eq_of_micros rfl h ?_⟩
  rw [Datetime.micros_ofMicros, hinstant]
  exact Int.toNat_natCast _

end OpenStarry.Cron
