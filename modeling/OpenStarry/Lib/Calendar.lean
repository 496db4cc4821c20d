import Mathlib.Algebra.GroupWithZero.Nat
import Mathlib.Algebra.Order.Group.Nat
import Mathlib.Tactic.Common

/-!
# Dates of the Gregorian calendar

Dates from the first of January of the year one on, which was a Monday, and the number of days
since then. The two are the same thing, and the order of dates is the order of these numbers.
-/

namespace OpenStarry.Lib.Calendar

def isLeap (year : Nat) : Bool := year % 4 = 0 && (year % 100 ≠ 0 || year % 400 = 0)

def monthLengths (leap : Bool) : List Nat :=
  [31, if leap then 29 else 28, 31, 30, 31, 30, 31, 31, 30, 31, 30, 31]

def daysInMonth (year month : Nat) : Nat := (monthLengths (isLeap year)).getD (month - 1) 0

def daysInYear (year : Nat) : Nat := if isLeap year then 366 else 365

def daysBeforeYear (year : Nat) : Nat :=
  (year - 1) * 365 + (year - 1) / 4 - (year - 1) / 100 + (year - 1) / 400

def daysBeforeMonth (year month : Nat) : Nat :=
  ((monthLengths (isLeap year)).take (month - 1)).sum

structure Date where
  year : Nat
  month : Nat
  day : Nat
  year_pos : 1 ≤ year
  month_mem : 1 ≤ month ∧ month ≤ 12
  day_mem : 1 ≤ day ∧ day ≤ daysInMonth year month
  deriving DecidableEq, Repr

namespace Date

theorem ext_fields {a b : Date} (hyear : a.year = b.year) (hmonth : a.month = b.month)
    (hday : a.day = b.day) : a = b := by
  cases a
  cases b
  simp_all

theorem eq_iff {a b : Date} :
    a = b ↔ a.year = b.year ∧ a.month = b.month ∧ a.day = b.day := by
  constructor
  · intro h
    rw [h]
    exact ⟨rfl, rfl, rfl⟩
  · intro h
    exact ext_fields h.1 h.2.1 h.2.2

def toDays (d : Date) : Nat :=
  daysBeforeYear d.year + daysBeforeMonth d.year d.month + (d.day - 1)

/-- `weekday()`: Monday is zero. -/
def weekday (d : Date) : Nat := d.toDays % 7

end Date

/-! ### Years -/

def yearOf (cycles centuries fours years : Nat) : Nat :=
  400 * cycles + 100 * centuries + 4 * fours + years + 1

section

variable {cycles centuries fours years : Nat} (hcenturies : centuries ≤ 3) (hfours : fours ≤ 24)
  (hyears : years ≤ 3)

include hcenturies hfours hyears

theorem daysBeforeYear_yearOf : daysBeforeYear (yearOf cycles centuries fours years) =
    146097 * cycles + 36524 * centuries + 1461 * fours + 365 * years := by
  have hpast : yearOf cycles centuries fours years - 1 =
      400 * cycles + 100 * centuries + 4 * fours + years := rfl
  have hfour : (400 * cycles + 100 * centuries + 4 * fours + years) / 4 =
      100 * cycles + 25 * centuries + fours := by omega
  have hhundred : (400 * cycles + 100 * centuries + 4 * fours + years) / 100 =
      4 * cycles + centuries := by omega
  have hcycle : (400 * cycles + 100 * centuries + 4 * fours + years) / 400 = cycles := by omega
  rw [daysBeforeYear, hpast, hfour, hhundred, hcycle]
  omega

theorem isLeap_yearOf : isLeap (yearOf cycles centuries fours years) =
    decide (years = 3 ∧ (fours ≠ 24 ∨ centuries = 3)) := by
  have hfour : yearOf cycles centuries fours years % 4 = 0 ↔ years = 3 := by
    rw [yearOf]
    omega
  have hhundred : yearOf cycles centuries fours years % 100 = 0 ↔ years = 3 ∧ fours = 24 := by
    rw [yearOf]
    omega
  have hcycle : yearOf cycles centuries fours years % 400 = 0 ↔
      years = 3 ∧ fours = 24 ∧ centuries = 3 := by
    rw [yearOf]
    omega
  rw [isLeap, Bool.eq_iff_iff, Bool.and_eq_true, Bool.or_eq_true, decide_eq_true_eq,
    decide_eq_true_eq, decide_eq_true_eq, decide_eq_true_eq, Ne, hfour, hhundred, hcycle]
  tauto

end

theorem exists_yearOf {year : Nat} (hyear : 1 ≤ year) :
    ∃ cycles centuries fours years, centuries ≤ 3 ∧ fours ≤ 24 ∧ years ≤ 3 ∧
      year = yearOf cycles centuries fours years := by
  refine ⟨(year - 1) / 400, (year - 1) % 400 / 100, (year - 1) % 100 / 4, (year - 1) % 4,
    by omega, by omega, by omega, ?_⟩
  rw [yearOf]
  omega

theorem daysInYear_yearOf {cycles centuries fours years : Nat} (hcenturies : centuries ≤ 3)
    (hfours : fours ≤ 24) (hyears : years ≤ 3) :
    daysInYear (yearOf cycles centuries fours years) =
      if years = 3 ∧ (fours ≠ 24 ∨ centuries = 3) then 366 else 365 := by
  rw [daysInYear, isLeap_yearOf hcenturies hfours hyears]
  simp only [decide_eq_true_eq]

theorem daysBeforeYear_succ {year : Nat} (hyear : 1 ≤ year) :
    daysBeforeYear (year + 1) = daysBeforeYear year + daysInYear year := by
  obtain ⟨cycles, centuries, fours, years, hcenturies, hfours, hyears, rfl⟩ := exists_yearOf hyear
  rw [daysBeforeYear_yearOf hcenturies hfours hyears, daysInYear_yearOf hcenturies hfours hyears]
  by_cases hlast : years = 3
  · by_cases hcentury : fours = 24
    · by_cases hcycle : centuries = 3
      · have hnext : yearOf cycles centuries fours years + 1 = yearOf (cycles + 1) 0 0 0 := by
          rw [yearOf, yearOf]
          omega
        rw [hnext, daysBeforeYear_yearOf (by omega) (by omega) (by omega), if_pos (by omega)]
        omega
      · have hnext : yearOf cycles centuries fours years + 1 =
            yearOf cycles (centuries + 1) 0 0 := by
          rw [yearOf, yearOf]
          omega
        rw [hnext, daysBeforeYear_yearOf (by omega) (by omega) (by omega), if_neg (by omega)]
        omega
    · have hnext : yearOf cycles centuries fours years + 1 =
          yearOf cycles centuries (fours + 1) 0 := by
        rw [yearOf, yearOf]
        omega
      rw [hnext, daysBeforeYear_yearOf (by omega) (by omega) (by omega), if_pos (by omega)]
      omega
  · have hnext : yearOf cycles centuries fours years + 1 =
        yearOf cycles centuries fours (years + 1) := rfl
    rw [hnext, daysBeforeYear_yearOf (by omega) (by omega) (by omega), if_neg (by omega)]
    omega

theorem daysBeforeYear_add_le {year later : Nat} (hyear : 1 ≤ year) (hlater : year < later) :
    daysBeforeYear year + daysInYear year ≤ daysBeforeYear later := by
  induction later, hlater using Nat.le_induction with
  | base => exact (daysBeforeYear_succ hyear).symm.le
  | succ later hle ih =>
      rw [daysBeforeYear_succ (by omega)]
      omega

def yearAndDay (days : Nat) : Nat × Nat :=
  let inCycle := days % 146097
  let centuries := min 3 (inCycle / 36524)
  let inCentury := inCycle - 36524 * centuries
  let years := min 3 (inCentury % 1461 / 365)
  (yearOf (days / 146097) centuries (inCentury / 1461) years, inCentury % 1461 - 365 * years)

theorem yearAndDay_spec (days : Nat) :
    1 ≤ (yearAndDay days).1 ∧
      daysBeforeYear (yearAndDay days).1 + (yearAndDay days).2 = days ∧
      (yearAndDay days).2 < daysInYear (yearAndDay days).1 := by
  unfold yearAndDay
  dsimp only
  have hcycle : days % 146097 < 146097 := Nat.mod_lt _ (by omega)
  have hdays : 146097 * (days / 146097) + days % 146097 = days := Nat.div_add_mod _ _
  generalize days % 146097 = inCycle at hcycle hdays ⊢
  generalize days / 146097 = cycles at hdays ⊢
  obtain ⟨centuries, hcenturies, hmin⟩ :
      ∃ centuries, min 3 (inCycle / 36524) = centuries ∧ centuries ≤ 3 := ⟨_, rfl, by omega⟩
  have hcentury : inCycle - 36524 * centuries < 36525 ∧ 36524 * centuries ≤ inCycle ∧
      (centuries < 3 → inCycle - 36524 * centuries < 36524) := by omega
  rw [hcenturies]
  obtain ⟨inCentury, hinside⟩ : ∃ inCentury, inCycle - 36524 * centuries = inCentury := ⟨_, rfl⟩
  rw [hinside] at hcentury ⊢
  have hfours : inCentury / 1461 ≤ 24 := by omega
  have hcount : 1461 * (inCentury / 1461) + inCentury % 1461 = inCentury := Nat.div_add_mod _ _
  have hlast : inCentury % 1461 < 1461 := Nat.mod_lt _ (by omega)
  generalize inCentury % 1461 = inFour at hcount hlast ⊢
  generalize inCentury / 1461 = fours at hfours hcount ⊢
  obtain ⟨years, hyears, hthree⟩ : ∃ years, min 3 (inFour / 365) = years ∧ years ≤ 3 :=
    ⟨_, rfl, by omega⟩
  have hyear : inFour - 365 * years < 366 ∧ 365 * years ≤ inFour ∧
      (years < 3 → inFour - 365 * years < 365) := by omega
  rw [hyears, daysBeforeYear_yearOf hmin hfours hthree, daysInYear_yearOf hmin hfours hthree]
  refine ⟨Nat.succ_le_succ (Nat.zero_le _), by omega, ?_⟩
  split_ifs with hleap
  · exact hyear.1
  · omega

/-! ### Stretches of known lengths -/

def locate : List Nat → Nat → Nat × Nat
  | [], k => (0, k)
  | n :: rest, k => if k < n then (0, k) else ((locate rest (k - n)).1 + 1, (locate rest (k - n)).2)

theorem locate_spec {lengths : List Nat} {k : Nat} (hk : k < lengths.sum) :
    (locate lengths k).1 < lengths.length ∧
      (lengths.take (locate lengths k).1).sum + (locate lengths k).2 = k ∧
      (locate lengths k).2 < lengths.getD (locate lengths k).1 0 := by
  induction lengths generalizing k with
  | nil => exact absurd hk (Nat.not_lt_zero k)
  | cons n rest ih =>
      rw [List.sum_cons] at hk
      rw [locate]
      split_ifs with hfirst
      · exact ⟨Nat.succ_pos _, Nat.zero_add k, hfirst⟩
      · obtain ⟨hlt, hsum, hinside⟩ := @ih (k - n) (by omega)
        refine ⟨Nat.succ_lt_succ hlt, ?_, hinside⟩
        rw [List.take_succ_cons, List.sum_cons]
        omega

theorem sum_take_add_le (lengths : List Nat) {i j : Nat} (hij : i < j) :
    (lengths.take i).sum + lengths.getD i 0 ≤ (lengths.take j).sum := by
  induction lengths generalizing i j with
  | nil => simp
  | cons n rest ih =>
      obtain ⟨j, rfl⟩ : ∃ j', j = j' + 1 := ⟨j - 1, by omega⟩
      cases i with
      | zero => simp
      | succ i =>
          have hrest := @ih i j (by omega)
          rw [List.take_succ_cons, List.take_succ_cons, List.sum_cons, List.sum_cons,
            List.getD_cons_succ]
          omega

theorem daysInMonth_le (year month : Nat) : daysInMonth year month ≤ 31 := by
  have hlengths : ∀ leap, ∀ n ∈ monthLengths leap, n ≤ 31 := by decide
  rw [daysInMonth, List.getD_eq_getElem?_getD]
  cases hmonth : (monthLengths (isLeap year))[month - 1]? with
  | none => exact Nat.zero_le _
  | some n => exact hlengths _ n (List.mem_of_getElem? hmonth)

theorem sum_monthLengths (year : Nat) : (monthLengths (isLeap year)).sum = daysInYear year := by
  rw [daysInYear]
  cases isLeap year <;> rfl

/-! ### Dates and days -/

namespace Date

/-- The date so many days after the first one. -/
def ofDays (days : Nat) : Date :=
  have hspec := yearAndDay_spec days
  have hplace := @locate_spec (monthLengths (isLeap (yearAndDay days).1)) (yearAndDay days).2
    (by rw [sum_monthLengths]; exact hspec.2.2)
  let place := locate (monthLengths (isLeap (yearAndDay days).1)) (yearAndDay days).2
  { year := (yearAndDay days).1
    month := place.1 + 1
    day := place.2 + 1
    year_pos := hspec.1
    month_mem := ⟨Nat.succ_le_succ (Nat.zero_le _), hplace.1⟩
    day_mem := ⟨Nat.succ_le_succ (Nat.zero_le _), hplace.2.2⟩ }

theorem toDays_ofDays (days : Nat) : (ofDays days).toDays = days := by
  have hspec := yearAndDay_spec days
  have hplace := @locate_spec (monthLengths (isLeap (yearAndDay days).1)) (yearAndDay days).2
    (by rw [sum_monthLengths]; exact hspec.2.2)
  have hmonth : daysBeforeMonth (ofDays days).year (ofDays days).month + ((ofDays days).day - 1) =
      (yearAndDay days).2 := hplace.2.1
  rw [toDays, Nat.add_assoc, hmonth]
  exact hspec.2.1

theorem daysBeforeMonth_add_day_lt (d : Date) :
    daysBeforeMonth d.year d.month + (d.day - 1) < daysInYear d.year := by
  have hlast := sum_take_add_le (monthLengths (isLeap d.year)) (i := d.month - 1) (j := 12)
    (by have := d.month_mem; omega)
  have hwhole : ((monthLengths (isLeap d.year)).take 12).sum = daysInYear d.year := by
    rw [← sum_monthLengths]
    rfl
  have hday := d.day_mem
  rw [daysInMonth] at hday
  rw [daysBeforeMonth]
  omega

theorem toDays_lt_of_year {a b : Date} (h : a.year < b.year) : a.toDays < b.toDays := by
  have hyears := daysBeforeYear_add_le a.year_pos h
  have hday := a.daysBeforeMonth_add_day_lt
  rw [toDays, toDays]
  omega

theorem toDays_lt_of_month {a b : Date} (hyear : a.year = b.year) (h : a.month < b.month) :
    a.toDays < b.toDays := by
  have hmonths := sum_take_add_le (monthLengths (isLeap b.year)) (i := a.month - 1)
    (j := b.month - 1) (by have := a.month_mem; omega)
  have hday := a.day_mem
  rw [daysInMonth, hyear] at hday
  rw [toDays, toDays, hyear, daysBeforeMonth, daysBeforeMonth]
  omega

theorem toDays_lt_of_day {a b : Date} (hyear : a.year = b.year) (hmonth : a.month = b.month)
    (h : a.day < b.day) : a.toDays < b.toDays := by
  have hday := a.day_mem
  rw [toDays, toDays, hyear, hmonth]
  omega

def Before (a b : Date) : Prop :=
  a.year < b.year ∨ a.year = b.year ∧ (a.month < b.month ∨ a.month = b.month ∧ a.day < b.day)

theorem Before.toDays_lt {a b : Date} (h : a.Before b) : a.toDays < b.toDays := by
  obtain h | ⟨hyear, h | ⟨hmonth, h⟩⟩ := h
  · exact toDays_lt_of_year h
  · exact toDays_lt_of_month hyear h
  · exact toDays_lt_of_day hyear hmonth h

theorem toDays_lt_iff {a b : Date} : a.toDays < b.toDays ↔ a.Before b := by
  constructor
  · intro h
    by_contra hnot
    by_cases hback : b.Before a
    · exact absurd hback.toDays_lt (by omega)
    · have hsame : a = b := by
        rw [Before] at hnot hback
        apply ext_fields <;> omega
      rw [hsame] at h
      exact lt_irrefl _ h
  · exact Before.toDays_lt

theorem toDays_injective {a b : Date} (h : a.toDays = b.toDays) : a = b := by
  have hnot : ¬ a.Before b := fun hab => absurd hab.toDays_lt (by omega)
  have hback : ¬ b.Before a := fun hba => absurd hba.toDays_lt (by omega)
  rw [Before] at hnot hback
  apply ext_fields <;> omega

theorem toDays_inj {a b : Date} : a.toDays = b.toDays ↔ a = b :=
  ⟨toDays_injective, congrArg toDays⟩

theorem ofDays_toDays (d : Date) : ofDays d.toDays = d :=
  toDays_injective (toDays_ofDays d.toDays)

end Date

example : Date.ofDays 738944 = ⟨2024, 2, 29, by decide, by decide, by decide⟩ := by decide +kernel

end OpenStarry.Lib.Calendar
