import OpenStarry.Cron.GrammarContract

/-!
# When the search for the next run ends in time

An expression that matches on some day other than the 29th of February does so in every year, in
good time. One that matches on leap days only may have to wait four or eight years, and the search
gives up a day before four years are over.
-/

namespace OpenStarry.Cron

open Lib Lib.Calendar Lib.Text

/-! ### Unrestricted fields -/

theorem mem_or_isSpace_of_mem {s : Str} {c : Char} (h : c ∈ s) : c ∈ strip s ∨ isSpace c = true := by
  rw [← List.takeWhile_append_dropWhile (p := isSpace) (l := s)] at h
  obtain h | h := List.mem_append.mp h
  · exact Or.inr (List.mem_takeWhile_imp h)
  · have hinner : s.dropWhile isSpace = strip s ++ (lstrip s).rtakeWhile isSpace :=
      List.rdropWhile_append_rtakeWhile.symm
    rw [hinner] at h
    exact (List.mem_append.mp h).imp_right fun h => List.mem_rtakeWhile_imp h

/-- A field is unrestricted only as a bare `*`, which has every value. -/
theorem values_of_unrestricted {field : CronFieldName} {token : Str} {result : CronField}
    (h : parseField field token = .ok result) (hfree : result.restricted = false) {v : Nat} :
    v ∈ result.values ↔ field.lo ≤ v ∧ v ≤ field.hi := by
  have hstar : strip token = ['*'] := by
    obtain ⟨_, -, hresult⟩ := parseField_eq_ok.mp h
    rw [← hresult] at hfree
    simpa using hfree
  have hcomma : ',' ∉ token := by
    intro hmem
    obtain hmem | hspace := mem_or_isSpace_of_mem hmem
    · rw [hstar] at hmem
      exact absurd hmem (by decide)
    · exact absurd hspace (by decide)
  have hparts : partsOf token = [['*']] := by
    rw [partsOf, List.splitOn_eq_singleton hcomma, List.map_singleton, hstar]
  have hresolved : resolveNames field.names ['*'] = ['*'] := by
    cases field <;> decide +kernel
  have hall : Denotes field [] false ['*'] (steppedRange field.lo field.hi 1) := .range .all
  rw [mem_parseField h, hparts]
  simp only [List.mem_singleton, exists_eq_left, hresolved]
  constructor
  · rintro ⟨set, hset, hv⟩
    rw [hset.unique isNameTable_nil hall, steppedRange, Finset.mem_filter, Finset.mem_range] at hv
    omega
  · intro hv
    refine ⟨_, hall, ?_⟩
    rw [steppedRange, Finset.mem_filter, Finset.mem_range]
    omega

theorem exists_tokens {expr : Str} {e : CronExpression} (h : parseCron expr = .ok e) :
    ∃ token : CronFieldName → Str, ∀ field, parseField field (token field) = .ok (e.field field) := by
  unfold parseCron at h
  obtain ⟨text, -, h⟩ := bind_eq_ok.mp h
  split at h
  · rename_i minute hour dom month dow hfields
    obtain ⟨_, hminute, h⟩ := bind_eq_ok.mp h
    obtain ⟨_, hhour, h⟩ := bind_eq_ok.mp h
    obtain ⟨_, hdom, h⟩ := bind_eq_ok.mp h
    obtain ⟨_, hmonth, h⟩ := bind_eq_ok.mp h
    obtain ⟨_, hdow, h⟩ := bind_eq_ok.mp h
    rw [← pure_eq_ok.mp h]
    refine ⟨fun field => CronFieldName.casesOn field minute hour dom month dow, fun field => ?_⟩
    cases field with
    | minute => exact hminute
    | hour => exact hhour
    | dayOfMonth => exact hdom
    | month => exact hmonth
    | dayOfWeek => exact hdow
  · cases h

theorem free_fields {expr : Str} {e : CronExpression} (h : parseCron expr = .ok e) :
    (e.dayOfMonth.restricted = false → ∀ day, 1 ≤ day → day ≤ 31 →
      e.dayOfMonth.matches day = true) ∧
    (e.dayOfWeek.restricted = false → ∀ dow < 7, e.dayOfWeek.matches dow = true) := by
  obtain ⟨token, htoken⟩ := exists_tokens h
  constructor
  · intro hfree day hlow hhigh
    exact decide_eq_true ((values_of_unrestricted (htoken .dayOfMonth) hfree).mpr ⟨hlow, hhigh⟩)
  · intro hfree dow hdow
    exact decide_eq_true ((values_of_unrestricted (htoken .dayOfWeek) hfree).mpr
      ⟨Nat.zero_le _, Nat.le_of_lt_succ hdow⟩)

/-! ### Days of every year -/

def IsLeapDay (date : Date) : Prop := date.month = 2 ∧ date.day = 29

instance (date : Date) : Decidable (IsLeapDay date) := inferInstanceAs (Decidable (_ ∧ _))

theorem le_daysInMonth {date : Date} (h : ¬ IsLeapDay date) (year : Nat) :
    date.day ≤ daysInMonth year date.month := by
  have hfebruary : ∀ leap : Bool, 28 ≤ (monthLengths leap).getD 1 0 ∧
      (monthLengths leap).getD 1 0 ≤ 29 := by decide
  have hothers : ∀ leap leap' : Bool, ∀ k < 12, k ≠ 1 →
      (monthLengths leap).getD k 0 = (monthLengths leap').getD k 0 := by decide
  have hmonth := date.month_mem
  have hday := date.day_mem.2
  rw [daysInMonth] at hday ⊢
  rw [IsLeapDay] at h
  by_cases hsecond : date.month = 2
  · rw [hsecond] at hday ⊢
    have hlength : (monthLengths (isLeap date.year)).getD (2 - 1) 0 ≤ 29 :=
      (hfebruary (isLeap date.year)).2
    have hlength' : 28 ≤ (monthLengths (isLeap year)).getD (2 - 1) 0 :=
      (hfebruary (isLeap year)).1
    omega
  · exact hday.trans (hothers _ _ (date.month - 1) (by omega) (by omega)).le

theorem week_le_daysInMonth (year : Nat) {month : Nat} (h : 1 ≤ month ∧ month ≤ 12) :
    7 ≤ daysInMonth year month := by
  have hall : ∀ leap : Bool, ∀ month < 13, 1 ≤ month →
      7 ≤ (monthLengths leap).getD (month - 1) 0 := by decide
  exact hall (isLeap year) month (by omega) h.1

theorem exists_weekday {year month dow : Nat} (hyear : 1 ≤ year) (hmonth : 1 ≤ month ∧ month ≤ 12)
    (hdow : dow < 7) : ∃ date : Date, date.year = year ∧ date.month = month ∧ date.day ≤ 7 ∧
      (date.weekday + 1) % 7 = dow := by
  have hweek := week_le_daysInMonth year hmonth
  have hfirst : 1 ≤ daysInMonth year month := by omega
  obtain ⟨start, hstart⟩ : ∃ start, daysBeforeYear year + daysBeforeMonth year month = start :=
    ⟨_, rfl⟩
  obtain ⟨k, hk, hsame⟩ : ∃ k < 7, ((start + k) % 7 + 1) % 7 = dow :=
    ⟨(dow + 6 + 6 * start) % 7, Nat.mod_lt _ (by decide), by omega⟩
  refine ⟨⟨year, month, k + 1, hyear, hmonth, by omega, by omega⟩, rfl, rfl, hk, ?_⟩
  rw [Date.weekday, Date.toDays]
  show ((daysBeforeYear year + daysBeforeMonth year month + (k + 1 - 1)) % 7 + 1) % 7 = dow
  rw [hstart, Nat.add_sub_cancel]
  exact hsame

theorem day_le (date : Date) : date.day ≤ 31 :=
  date.day_mem.2.trans (daysInMonth_le date.year date.month)

theorem exists_matching_day {expr : Str} {e : CronExpression} (hparse : parseCron expr = .ok e)
    {date : Date} (hday : e.matchesDay date = true) (hleap : ¬ IsLeapDay date) {year : Nat}
    (hyear : 1 ≤ year) : ∃ other : Date, other.year = year ∧ other.month = date.month ∧
      e.matchesDay other = true := by
  obtain ⟨hdomFree, hdowFree⟩ := free_fields hparse
  -- The same day of the month, when the day of the week does not matter.
  have hsameDay : e.dayOfMonth.matches date.day = true →
      (e.dayOfMonth.restricted = true ∧ e.dayOfWeek.restricted = true ∨
        e.dayOfWeek.restricted = false) → ∃ other : Date, other.year = year ∧
          other.month = date.month ∧ e.matchesDay other = true := by
    intro hdom hrule
    refine ⟨⟨year, date.month, date.day, hyear, date.month_mem, date.day_mem.1,
      le_daysInMonth hleap year⟩, rfl, rfl, ?_⟩
    show (if e.dayOfMonth.restricted && e.dayOfWeek.restricted then
      e.dayOfMonth.matches date.day || e.dayOfWeek.matches _ else
      e.dayOfMonth.matches date.day && e.dayOfWeek.matches _) = true
    rw [hdom]
    obtain ⟨hdomSet, hdowSet⟩ | hfree := hrule
    · rw [hdomSet, hdowSet]
      rfl
    · rw [hdowFree hfree _ (Nat.mod_lt _ (by decide)), hfree, Bool.and_false]
      rfl
  -- A day of the first week, when the day of the month does not matter.
  have hsameDow : e.dayOfWeek.matches ((date.weekday + 1) % 7) = true →
      (e.dayOfMonth.restricted = true ∧ e.dayOfWeek.restricted = true ∨
        e.dayOfMonth.restricted = false) → ∃ other : Date, other.year = year ∧
          other.month = date.month ∧ e.matchesDay other = true := by
    intro hdow hrule
    obtain ⟨other, hotherYear, hmonth, hseven, hweekday⟩ :=
      exists_weekday hyear date.month_mem (Nat.mod_lt (date.weekday + 1) (show 0 < 7 by decide))
    refine ⟨other, hotherYear, hmonth, ?_⟩
    rw [CronExpression.matchesDay, hweekday, hdow]
    obtain ⟨hdomSet, hdowSet⟩ | hfree := hrule
    · rw [hdomSet, hdowSet, Bool.or_true]
      rfl
    · rw [hdomFree hfree _ other.day_mem.1 (day_le other), hfree, Bool.false_and]
      rfl
  rw [CronExpression.matchesDay] at hday
  by_cases hdomSet : e.dayOfMonth.restricted = true
  · by_cases hdowSet : e.dayOfWeek.restricted = true
    · rw [hdomSet, hdowSet, Bool.and_self, if_pos rfl, Bool.or_eq_true] at hday
      obtain hdom | hdow := hday
      · exact hsameDay hdom (Or.inl ⟨hdomSet, hdowSet⟩)
      · exact hsameDow hdow (Or.inl ⟨hdomSet, hdowSet⟩)
    · rw [Bool.not_eq_true] at hdowSet
      rw [hdowSet, Bool.and_false, if_neg nofun, Bool.and_eq_true] at hday
      exact hsameDay hday.1 (Or.inr hdowSet)
  · rw [Bool.not_eq_true] at hdomSet
    rw [hdomSet, Bool.false_and, if_neg nofun, Bool.and_eq_true] at hday
    exact hsameDow hday.2 (Or.inr hdomSet)

/-! ### Waiting for a match -/

def MatchesOrdinaryDay (e : CronExpression) : Prop :=
  ∃ m, e.matchesMinute m = true ∧ ¬ IsLeapDay (Date.ofDays (m / 1440))

theorem matchesMinute_iff {e : CronExpression} {m : Nat} : e.matchesMinute m = true ↔
    e.minute.matches (m % 60) = true ∧ e.hour.matches (m % 1440 / 60) = true ∧
      e.month.matches (Date.ofDays (m / 1440)).month = true ∧
      e.matchesDay (Date.ofDays (m / 1440)) = true := by
  rw [CronExpression.matchesMinute, CronExpression.matchesTime, Bool.and_eq_true, Bool.and_eq_true,
    Bool.and_eq_true, and_assoc, and_assoc]

theorem matchesMinute_of_day {e : CronExpression} {date : Date} {hour minute : Nat}
    (hhour : hour < 24) (hminute : minute < 60) :
    e.matchesMinute (date.toDays * 1440 + hour * 60 + minute) =
      e.matchesTime date hour minute := by
  have hday : (date.toDays * 1440 + hour * 60 + minute) / 1440 = date.toDays := by omega
  have htime : (date.toDays * 1440 + hour * 60 + minute) % 1440 / 60 = hour ∧
      (date.toDays * 1440 + hour * 60 + minute) % 60 = minute := by omega
  rw [CronExpression.matchesMinute, hday, htime.1, htime.2, Date.ofDays_toDays]

theorem toDays_next_year {date next : Date} (h : next.year = date.year + 1) :
    date.toDays < next.toDays ∧ next.toDays ≤ date.toDays + 731 := by
  have hlater : date.toDays < next.toDays := Date.toDays_lt_of_year (by omega)
  have hnext := next.daysBeforeMonth_add_day_lt
  have hyears := daysBeforeYear_succ date.year_pos
  have hlength : daysInYear date.year ≤ 366 ∧ daysInYear next.year ≤ 366 := by
    rw [daysInYear, daysInYear]
    constructor
    · split_ifs <;> omega
    · split_ifs <;> omega
  refine ⟨hlater, ?_⟩
  rw [Date.toDays, Date.toDays, h, hyears] at *
  omega

theorem exists_match_within {expr : Str} {e : CronExpression} (hparse : parseCron expr = .ok e)
    (hordinary : MatchesOrdinaryDay e) (n : Nat) :
    ∃ m, n < m ∧ m ≤ n + searchLimit ∧ e.matchesMinute m = true := by
  obtain ⟨m, hmatch, hleap⟩ := hordinary
  obtain ⟨hminute, hhour, hmonth, hday⟩ := matchesMinute_iff.mp hmatch
  obtain ⟨date, hyear, hsame, hother⟩ := exists_matching_day hparse hday hleap
    (show 1 ≤ (Date.ofDays (n / 1440)).year + 1 by omega)
  obtain ⟨hlater, hnear⟩ := toDays_next_year hyear
  rw [Date.toDays_ofDays] at hlater hnear
  refine ⟨date.toDays * 1440 + m % 1440 / 60 * 60 + m % 60, by omega, ?_, ?_⟩
  · rw [searchLimit]
    omega
  · rw [matchesMinute_of_day (by omega) (by omega), CronExpression.matchesTime, hminute, hhour,
      hsame, hmonth, hother]
    rfl

/-! ### The next run -/

/-- `_next_run` returns the least whole minute after the given one that matches. -/
def ReturnsLeast (expr : Str) (e : CronExpression) (after : Datetime) : Prop :=
  ∃ run, nextCronRun expr after = .ok run ∧ run.OnMinute after.utcoffset ∧
    after.minuteIndex < run.minuteIndex ∧ e.matchesMinute run.minuteIndex = true ∧
    ∀ m, after.minuteIndex < m → m < run.minuteIndex → e.matchesMinute m = false

theorem minuteIndex_wholeMinute (dt : Datetime) : dt.wholeMinute.minuteIndex = dt.minuteIndex := by
  rw [Datetime.minuteIndex, Datetime.minuteIndex]
  rfl

section

variable {expr : Str} {e : CronExpression} (hparse : parseCron expr = .ok e) {after : Datetime}

include hparse

theorem returnsLeast_iff_within : ReturnsLeast expr e after ↔
    ∃ m, after.minuteIndex < m ∧ m ≤ after.minuteIndex + searchLimit ∧ m < minuteLimit ∧
      e.matchesMinute m = true := by
  have hwhole := minuteIndex_wholeMinute after
  have hon := onMinute_wholeMinute after
  constructor
  · intro ⟨run, hrun, _, hlater, hmatch, _⟩
    rw [nextCronRun, hparse, ok_bind] at hrun
    obtain ⟨candidate, hcandidate, hsearch⟩ := bind_eq_ok.mp hrun
    obtain ⟨hindex, honCandidate⟩ := addMinute_eq_ok hon hcandidate
    obtain ⟨k, hk, hfound, -⟩ := searchMinutes_eq_ok honCandidate hsearch
    exact ⟨run.minuteIndex, hlater, by omega, minuteIndex_lt run, hmatch⟩
  · intro ⟨m, hlater, hnear, hlimit, hmatch⟩
    obtain ⟨candidate, hcandidate, hindex, honCandidate⟩ := addMinute_ok hon (by omega)
    have hplace : candidate.minuteIndex + (m - after.minuteIndex - 1) = m := by omega
    obtain ⟨run, hsearch⟩ := searchMinutes_ok honCandidate expr
      (show m - after.minuteIndex - 1 < searchLimit by omega) (by omega) (hplace ▸ hmatch)
    obtain ⟨k, hk, hrun, honRun, hfound, hfirst⟩ := searchMinutes_eq_ok honCandidate hsearch
    refine ⟨run, ?_, honRun, by omega, hrun ▸ hfound, fun j hj hjrun => ?_⟩
    · rw [nextCronRun, hparse, ok_bind, hcandidate, ok_bind, hsearch]
    · have hj : candidate.minuteIndex + (j - candidate.minuteIndex) = j := by omega
      rw [← hj]
      exact hfirst _ (by omega)

end

/-- The next run is the least match exactly when there is one before the end of the calendar, and
the expression has an ordinary day or matches within the search. -/
theorem next_run_least_iff (expr : Str) (e : CronExpression) (hparse : parseCron expr = .ok e)
    (after : Datetime) : ReturnsLeast expr e after ↔
      (∃ m, after.minuteIndex < m ∧ m < minuteLimit ∧ e.matchesMinute m = true) ∧
        (MatchesOrdinaryDay e ∨ ∃ m, after.minuteIndex < m ∧
          m ≤ after.minuteIndex + searchLimit ∧ e.matchesMinute m = true) := by
  rw [returnsLeast_iff_within hparse]
  constructor
  · intro ⟨m, hlater, hnear, hlimit, hmatch⟩
    exact ⟨⟨m, hlater, hlimit, hmatch⟩, Or.inr ⟨m, hlater, hnear, hmatch⟩⟩
  · intro ⟨⟨m, hlater, hlimit, hmatch⟩, hwait⟩
    obtain ⟨m', hlater', hnear, hmatch'⟩ : ∃ m, after.minuteIndex < m ∧
        m ≤ after.minuteIndex + searchLimit ∧ e.matchesMinute m = true :=
      hwait.elim (fun hordinary => exists_match_within hparse hordinary _) id
    obtain hfirst | hfirst := Nat.le_total m m'
    · exact ⟨m, hlater, by omega, hlimit, hmatch⟩
    · exact ⟨m', hlater', hnear, by omega, hmatch'⟩

/-! ### Leap days only -/

/-- `0 0 29 2 *`. -/
def leapDays : CronExpression where
  minute := { values := {0} }
  hour := { values := {0} }
  dayOfMonth := { values := {29} }
  month := { values := {2} }
  dayOfWeek := { values := {0, 1, 2, 3, 4, 5, 6}, restricted := false }
  raw := "0 0 29 2 *".toList

theorem parseCron_leapDays : parseCron "0 0 29 2 *".toList = .ok leapDays := by
  apply toOption_eq_some.mp
  decide +kernel

theorem leapDays_matches_iff {m : Nat} : leapDays.matchesMinute m = true ↔
    m % 60 = 0 ∧ m % 1440 / 60 = 0 ∧ IsLeapDay (Date.ofDays (m / 1440)) := by
  have hdow : leapDays.dayOfWeek.matches (((Date.ofDays (m / 1440)).weekday + 1) % 7) = true := by
    have hall : ∀ dow < 7, leapDays.dayOfWeek.matches dow = true := by decide
    exact hall _ (Nat.mod_lt _ (by decide))
  have hday : leapDays.matchesDay (Date.ofDays (m / 1440)) =
      leapDays.dayOfMonth.matches (Date.ofDays (m / 1440)).day := by
    rw [CronExpression.matchesDay, hdow, Bool.and_true]
    rfl
  rw [matchesMinute_iff, hday, IsLeapDay]
  simp [leapDays, CronField.matches]

theorem leapDays_forever (n : Nat) : ∃ m, n < m ∧ leapDays.matchesMinute m = true := by
  have hleap : isLeap (400 * (n + 1)) = true := by
    have hfour : 400 * (n + 1) % 4 = 0 := by omega
    have hcycle : 400 * (n + 1) % 400 = 0 := by omega
    rw [isLeap, hfour, hcycle]
    simp
  have hlength : 29 ≤ daysInMonth (400 * (n + 1)) 2 := by
    rw [daysInMonth, hleap]
    decide
  let date : Date := ⟨400 * (n + 1), 2, 29, by omega, by decide, by decide, hlength⟩
  refine ⟨date.toDays * 1440 + 0 * 60 + 0, ?_, ?_⟩
  · have hyears : n + 1 ≤ daysBeforeYear (400 * (n + 1)) := by
      rw [daysBeforeYear]
      omega
    have hdays : daysBeforeYear (400 * (n + 1)) ≤ date.toDays := by
      exact (Nat.le_add_right _ _).trans (Nat.le_add_right _ _)
    omega
  · rw [leapDays_matches_iff]
    have hday : (date.toDays * 1440 + 0 * 60 + 0) / 1440 = date.toDays := by omega
    rw [hday, Date.ofDays_toDays]
    exact ⟨by omega, by omega, rfl, rfl⟩

theorem february : 1 ≤ 2 ∧ 2 ≤ 12 := by decide

def leapMidnight (year : Nat) (hyear : 1 ≤ year ∧ year ≤ 9999) (hleap : isLeap year = true) :
    Datetime where
  date := ⟨year, 2, 29, hyear.1, february, by decide, by rw [daysInMonth, hleap]; decide⟩
  hour := 0
  minute := 0
  second := 0
  microsecond := 0
  utcoffset := some 0
  year_le := hyear.2
  hour_lt := Datetime.hour_pos
  minute_lt := Datetime.minute_pos
  second_lt := Datetime.minute_pos
  microsecond_lt := Datetime.second_pos
  utcoffset_lt := Datetime.utc_lt

theorem no_leapDay_within {date : Date} (hleap : IsLeapDay date) (hlater : 738944 < date.toDays) :
    738944 + 1461 ≤ date.toDays := by
  have hstart : (⟨2024, 2, 29, by decide, by decide, by decide⟩ : Date).toDays = 738944 := by
    decide +kernel
  have hnext : (⟨2028, 2, 29, by decide, by decide, by decide⟩ : Date).toDays = 738944 + 1461 := by
    decide +kernel
  have hyear : 2028 ≤ date.year := by
    by_contra hsoon
    have hday := date.day_mem.2
    rw [hleap.1, hleap.2, daysInMonth] at hday
    have hyears : date.year ≤ 2024 ∨ date.year = 2025 ∨ date.year = 2026 ∨ date.year = 2027 := by
      omega
    obtain hpast | hyear | hyear | hyear := hyears
    · rw [← hstart, Date.toDays_lt_iff, Date.Before, hleap.1, hleap.2] at hlater
      dsimp only at hlater
      omega
    · rw [hyear] at hday
      exact absurd hday (by decide)
    · rw [hyear] at hday
      exact absurd hday (by decide)
    · rw [hyear] at hday
      exact absurd hday (by decide)
  rw [← hnext]
  by_contra hbefore
  rw [Nat.not_le, Date.toDays_lt_iff, Date.Before, hleap.1, hleap.2] at hbefore
  dsimp only at hbefore
  omega

/-- `0 0 29 2 *` after midnight of the 29th of February 2024. -/
theorem leap_day_search_gives_up :
    parseCron "0 0 29 2 *".toList = .ok leapDays ∧
      (∀ n, ∃ m, n < m ∧ leapDays.matchesMinute m = true) ∧
      ¬ ReturnsLeast "0 0 29 2 *".toList leapDays
        (leapMidnight 2024 (by decide) (by decide)) := by
  refine ⟨parseCron_leapDays, leapDays_forever, fun hleast => ?_⟩
  obtain ⟨m, hlater, hnear, -, hmatch⟩ := (returnsLeast_iff_within parseCron_leapDays).mp hleast
  obtain ⟨hminute, hhour, hleap⟩ := leapDays_matches_iff.mp hmatch
  have hstart : (leapMidnight 2024 (by decide) (by decide)).minuteIndex = 738944 * 1440 := by
    rw [Datetime.minuteIndex]
    decide +kernel
  have hday := no_leapDay_within hleap
  rw [Date.toDays_ofDays] at hday
  rw [hstart] at hlater hnear
  rw [searchLimit] at hnear
  omega

/-- `30 8 * * *`. -/
def everyMorning : CronExpression where
  minute := { values := {30} }
  hour := { values := {8} }
  dayOfMonth := { values := steppedRange 1 31 1, restricted := false }
  month := { values := steppedRange 1 12 1, restricted := false }
  dayOfWeek := { values := steppedRange 0 6 1, restricted := false }
  raw := "30 8 * * *".toList

theorem next_run_every_morning :
    ReturnsLeast "30 8 * * *".toList everyMorning (leapMidnight 2024 (by decide) (by decide)) := by
  have hmatch : everyMorning.matchesMinute (738944 * 1440 + 510) = true := by decide +kernel
  have hstart : (leapMidnight 2024 (by decide) (by decide)).minuteIndex = 738944 * 1440 := by
    rw [Datetime.minuteIndex]
    decide +kernel
  apply (next_run_least_iff "30 8 * * *".toList everyMorning
    (toOption_eq_some.mp (by decide +kernel)) _).mpr
  rw [hstart]
  refine ⟨⟨738944 * 1440 + 510, by omega, ?_, hmatch⟩, Or.inl ⟨510, ?_, ?_⟩⟩
  · rw [minuteLimit]
    decide
  · decide +kernel
  · decide +kernel

end OpenStarry.Cron
