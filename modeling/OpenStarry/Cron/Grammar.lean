import OpenStarry.Cron.Parser

/-!
# The grammar of a part of a cron field

A part is `*`, a value or a range, each with or without a step. A value is an integer in the field's
range, as `int` reads it, or a name of the field in lower or upper case. The first hyphen of a part
separates the ends of a range. The parser reads a part as this grammar does when no names are left
in it, except that the ends of a stepped range may come in either order.
-/

namespace OpenStarry.Cron

open Lib Lib.Text

section

variable (field : CronFieldName) (names : List (Str × Nat))

inductive IsValue : Str → Nat → Prop where
  | int {s : Str} {v : Nat} (hread : readInt s = some (v : Int)) (hlo : field.lo ≤ v)
      (hhi : v ≤ field.hi) : IsValue s v
  | name {s : Str} {entry : Str × Nat} (hentry : entry ∈ names)
      (hspelled : s = entry.1 ∨ s = upperName entry.1) : IsValue s entry.2

/-- A range and its ends, which are in order when `ordered` is set. -/
inductive IsRange (ordered : Bool) : Str → Nat × Nat → Prop where
  | all : IsRange ordered ['*'] (field.lo, field.hi)
  | ends {a b : Str} {x y : Nat} (hhyphen : '-' ∉ a) (hstart : IsValue field names a x)
      (hstop : IsValue field names b y) (horder : ordered = true → x ≤ y) :
      IsRange ordered (a ++ '-' :: b) (x, y)

/-- A part and the set it denotes. The ends of a stepped range are in order when `ordered` is set,
as they always are without a step. -/
inductive Denotes (ordered : Bool) : Str → Finset Nat → Prop where
  | range {s : Str} {ends : Nat × Nat} (hrange : IsRange field names true s ends) :
      Denotes ordered s (steppedRange ends.1 ends.2 1)
  | value {s : Str} {v : Nat} (hhyphen : '-' ∉ s) (hvalue : IsValue field names s v) :
      Denotes ordered s {v}
  | rangeStep {s t : Str} {ends : Nat × Nat} {step : Nat}
      (hrange : IsRange field names ordered s ends) (hstep : readInt t = some (step : Int))
      (hpos : 0 < step) : Denotes ordered (s ++ '/' :: t) (steppedRange ends.1 ends.2 step)
  | valueStep {s t : Str} {v step : Nat} (hhyphen : '-' ∉ s) (hvalue : IsValue field names s v)
      (hstep : readInt t = some (step : Int)) (hpos : 0 < step) :
      Denotes ordered (s ++ '/' :: t) (steppedRange v field.hi step)

end

/-! ### Reading by the grammar -/

def spells (s : Str) (entry : Str × Nat) : Bool := s = entry.1 || s = upperName entry.1

section

variable (field : CronFieldName) (names : List (Str × Nat))

def valueOf (s : Str) : Option Nat :=
  match names.find? (spells s) with
  | some entry => some entry.2
  | none => ((readInt s).filter fun v => (field.lo : Int) ≤ v ∧ v ≤ field.hi).map Int.toNat

def endsOf (ordered : Bool) (s : Str) : Option (Nat × Nat) := do
  let start ← valueOf field names (beforeFirst '-' s)
  let stop ← valueOf field names (afterFirst '-' s)
  if ordered = true ∧ stop < start then none else return (start, stop)

def stepOf (t : Str) : Option Nat := ((readInt t).filter fun step => 0 < step).map Int.toNat

def boundsOf (ordered : Bool) (s : Str) : Option (Nat × Nat) :=
  if s = ['*'] then some (field.lo, field.hi)
  else if '-' ∈ s then endsOf field names ordered s
  else (valueOf field names s).map fun v => (v, field.hi)

def readPart (ordered : Bool) (part : Str) : Option (Finset Nat) :=
  if '/' ∈ part then do
    let step ← stepOf (afterFirst '/' part)
    let ends ← boundsOf field names ordered (beforeFirst '/' part)
    return steppedRange ends.1 ends.2 step
  else if '-' ∈ part then
    (endsOf field names true part).map fun ends => steppedRange ends.1 ends.2 1
  else if part = ['*'] then some (steppedRange field.lo field.hi 1)
  else (valueOf field names part).map fun v => {v}

end

/-! ### Names -/

/-- A table in which a spelling says which name is meant, and no name is an integer or has a sign
of the grammar in it. -/
structure IsNameTable (names : List (Str × Nat)) : Prop where
  unique : ∀ entry ∈ names, ∀ other ∈ names, ∀ s, spells s entry = true →
    spells s other = true → entry = other
  notInt : ∀ entry ∈ names, ∀ s, spells s entry = true → readInt s = none
  plain : ∀ entry ∈ names, ∀ s, spells s entry = true → '-' ∉ s ∧ '/' ∉ s ∧ '*' ∉ s

theorem isNameTable_nil : IsNameTable [] := ⟨nofun, nofun, nofun⟩

def spellings (entry : Str × Nat) : List Str := [entry.1, upperName entry.1]

theorem mem_spellings {s : Str} {entry : Str × Nat} : s ∈ spellings entry ↔ spells s entry = true := by
  simp [spellings, spells]

theorem isNameTable_names (field : CronFieldName) : IsNameTable field.names := by
  have hdistinct : ∀ entry ∈ field.names, ∀ other ∈ field.names, ∀ s ∈ spellings entry,
      s ∈ spellings other → entry = other := by
    cases field <;> decide +kernel
  have hletters : ∀ entry ∈ field.names, ∀ s ∈ spellings entry,
      (∃ c ∈ s, isIntChar c = false) ∧ '-' ∉ s ∧ '/' ∉ s ∧ '*' ∉ s := by
    cases field <;> decide +kernel
  constructor
  · intro entry hentry other hother s hs hs'
    exact hdistinct entry hentry other hother s (mem_spellings.mpr hs) (mem_spellings.mpr hs')
  · intro entry hentry s hs
    obtain ⟨⟨c, hc, hletter⟩, -⟩ := hletters entry hentry s (mem_spellings.mpr hs)
    cases hread : readInt s with
    | none => rfl
    | some v => exact absurd (isIntChar_of_readInt hread c hc) (by rw [hletter]; exact nofun)
  · intro entry hentry s hs
    exact (hletters entry hentry s (mem_spellings.mpr hs)).2

theorem step_iff {t : Str} {step : Nat} :
    stepOf t = some step ↔ readInt t = some (step : Int) ∧ 0 < step := by
  unfold stepOf
  rw [Option.map_eq_some_iff]
  simp only [Option.filter_eq_some_iff, decide_eq_true_eq]
  constructor
  · intro ⟨value, ⟨hread, hpos⟩, hstep⟩
    have hcast : (step : Int) = value := by omega
    exact ⟨hcast ▸ hread, by omega⟩
  · intro ⟨hread, hpos⟩
    exact ⟨step, ⟨hread, by omega⟩, Int.toNat_natCast step⟩

section

variable {field : CronFieldName} {names : List (Str × Nat)} (htable : IsNameTable names)

include htable

theorem isValue_iff {s : Str} {v : Nat} :
    IsValue field names s v ↔ valueOf field names s = some v := by
  unfold valueOf
  constructor
  · intro h
    cases h with
    | int hread hlo hhi =>
        have hnone : names.find? (spells s) = none := by
          rw [List.find?_eq_none]
          intro entry hentry hspelled
          rw [htable.notInt entry hentry s hspelled] at hread
          exact absurd hread nofun
        rw [hnone, hread]
        simp [hlo, hhi]
    | @name entry hentry hspelled =>
        have hspelled : spells s entry = true := by simpa [spells] using hspelled
        obtain ⟨found, hfound⟩ := Option.isSome_iff_exists.mp
          (List.find?_isSome.mpr ⟨entry, hentry, hspelled⟩)
        rw [hfound, htable.unique found (List.mem_of_find?_eq_some hfound) entry hentry s
          (List.find?_some hfound) hspelled]
  · intro h
    split at h
    · rename_i entry hfound
      obtain rfl := Option.some.inj h
      have hspelled := List.find?_some hfound
      exact .name (List.mem_of_find?_eq_some hfound) (by simpa [spells] using hspelled)
    · obtain ⟨value, hfilter, rfl⟩ := Option.map_eq_some_iff.mp h
      obtain ⟨hread, hrange⟩ := Option.filter_eq_some_iff.mp hfilter
      rw [decide_eq_true_eq] at hrange
      have hcast : (value.toNat : Int) = value := Int.toNat_of_nonneg (by omega)
      exact .int (hcast ▸ hread) (by omega) (by omega)

/-- The text of a value has no `/` and is not `*`. -/
theorem IsValue.plain {s : Str} {v : Nat} (h : IsValue field names s v) : '/' ∉ s ∧ '*' ∉ s := by
  cases h with
  | int hread hlo hhi =>
      have hchars := isIntChar_of_readInt hread
      exact ⟨fun h => absurd (hchars _ h) (by decide), fun h => absurd (hchars _ h) (by decide)⟩
  | name hentry hspelled =>
      exact (htable.plain _ hentry s (by simpa [spells] using hspelled)).2

/-! ### The grammar as a function -/

theorem isRange_ends_iff {ordered : Bool} {s : Str} (hhyphen : '-' ∈ s) {ends : Nat × Nat} :
    IsRange field names ordered s ends ↔ endsOf field names ordered s = some ends := by
  obtain ⟨hcut, hfront⟩ := beforeFirst_append_afterFirst hhyphen
  unfold endsOf
  simp only [Option.bind_eq_bind, Option.bind_eq_some_iff, ← isValue_iff htable]
  constructor
  · intro h
    cases h with
    | all => exact absurd hhyphen (by decide)
    | @ends a b x y ha hstart hstop horder =>
        rw [beforeFirst_append ha, afterFirst_append ha]
        refine ⟨x, hstart, y, hstop, if_neg ?_⟩
        intro ⟨hset, hback⟩
        exact absurd (horder hset) (Nat.not_le.mpr hback)
  · intro ⟨x, hstart, y, hstop, hends⟩
    split_ifs at hends with hback
    obtain rfl := Option.some.inj hends
    rw [← hcut]
    exact .ends hfront hstart hstop fun hset => Nat.not_lt.mp fun h => hback ⟨hset, h⟩

theorem IsRange.slash {ordered : Bool} {s : Str} {ends : Nat × Nat}
    (h : IsRange field names ordered s ends) : '/' ∉ s := by
  cases h with
  | all => decide
  | ends hhyphen hstart hstop horder =>
      rw [List.mem_append, List.mem_cons, not_or, not_or]
      exact ⟨(hstart.plain htable).1, by decide, (hstop.plain htable).1⟩

theorem bounds_iff {ordered : Bool} {s : Str} {ends : Nat × Nat} :
    boundsOf field names ordered s = some ends ↔ IsRange field names ordered s ends ∨
      '-' ∉ s ∧ ∃ v, IsValue field names s v ∧ (v, field.hi) = ends := by
  unfold boundsOf
  by_cases hall : s = ['*']
  · rw [if_pos hall, hall, Option.some.injEq]
    constructor
    · intro h
      exact Or.inl (h ▸ .all)
    · intro h
      obtain h | ⟨-, v, hvalue, -⟩ := h
      · generalize hstar : ['*'] = star at h
        cases h with
        | all => rfl
        | ends => exact absurd (hstar ▸ List.mem_append_right _ List.mem_cons_self :
            '-' ∈ ['*']) (by decide)
      · exact absurd List.mem_cons_self (hvalue.plain htable).2
  · rw [if_neg hall]
    by_cases hhyphen : '-' ∈ s
    · rw [if_pos hhyphen, isRange_ends_iff htable hhyphen]
      exact ⟨Or.inl, fun h => h.elim id fun h => absurd hhyphen h.1⟩
    · rw [if_neg hhyphen, Option.map_eq_some_iff]
      simp only [← isValue_iff htable]
      constructor
      · intro h
        exact Or.inr ⟨hhyphen, h⟩
      · intro h
        obtain h | ⟨-, h⟩ := h
        · cases h with
          | all => exact absurd rfl hall
          | ends => exact absurd (List.mem_append_right _ List.mem_cons_self) hhyphen
        · exact h

theorem denotes_iff {ordered : Bool} {part : Str} {set : Finset Nat} :
    Denotes field names ordered part set ↔ readPart field names ordered part = some set := by
  unfold readPart
  constructor
  · intro h
    cases h with
    | @range s ends hrange =>
        rw [if_neg (hrange.slash htable)]
        by_cases hhyphen : '-' ∈ part
        · rw [if_pos hhyphen, (isRange_ends_iff htable hhyphen).mp hrange]
          rfl
        · rw [if_neg hhyphen]
          cases hrange with
          | all => rfl
          | ends => exact absurd (List.mem_append_right _ List.mem_cons_self) hhyphen
    | value hhyphen hvalue =>
        obtain ⟨hslash, hstar⟩ := hvalue.plain htable
        have hall : part ≠ ['*'] := fun h => hstar (h ▸ List.mem_cons_self)
        rw [if_neg hslash, if_neg hhyphen, if_neg hall, (isValue_iff htable).mp hvalue]
        rfl
    | @rangeStep s t ends step hrange hstep hpos =>
        have hslash := hrange.slash htable
        rw [if_pos (List.mem_append_right _ List.mem_cons_self), beforeFirst_append hslash,
          afterFirst_append hslash, step_iff.mpr ⟨hstep, hpos⟩,
          (bounds_iff htable).mpr (Or.inl hrange)]
        rfl
    | @valueStep s t v step hhyphen hvalue hstep hpos =>
        have hslash := (hvalue.plain htable).1
        rw [if_pos (List.mem_append_right _ List.mem_cons_self), beforeFirst_append hslash,
          afterFirst_append hslash, step_iff.mpr ⟨hstep, hpos⟩,
          (bounds_iff htable).mpr (Or.inr ⟨hhyphen, v, hvalue, rfl⟩)]
        rfl
  · intro h
    by_cases hslash : '/' ∈ part
    · obtain ⟨hcut, -⟩ := beforeFirst_append_afterFirst hslash
      rw [if_pos hslash] at h
      obtain ⟨step, hstep, h⟩ := Option.bind_eq_some_iff.mp h
      obtain ⟨ends, hbounds, h⟩ := Option.bind_eq_some_iff.mp h
      obtain rfl := Option.some.inj h
      obtain ⟨hread, hpos⟩ := step_iff.mp hstep
      rw [← hcut]
      obtain hrange | ⟨hhyphen, v, hvalue, rfl⟩ := (bounds_iff htable).mp hbounds
      · exact .rangeStep hrange hread hpos
      · exact .valueStep hhyphen hvalue hread hpos
    · rw [if_neg hslash] at h
      by_cases hhyphen : '-' ∈ part
      · rw [if_pos hhyphen] at h
        obtain ⟨ends, hends, rfl⟩ := Option.map_eq_some_iff.mp h
        exact .range ((isRange_ends_iff htable hhyphen).mpr hends)
      · rw [if_neg hhyphen] at h
        by_cases hall : part = ['*']
        · rw [if_pos hall] at h
          rw [← Option.some.inj h, hall]
          exact .range .all
        · rw [if_neg hall] at h
          obtain ⟨v, hvalue, rfl⟩ := Option.map_eq_some_iff.mp h
          exact .value hhyphen ((isValue_iff htable).mpr hvalue)

end

/-! ### The parser and the grammar -/

section

variable (field : CronFieldName)

theorem toOption_toInt (s : Str) : (toInt field s).toOption = valueOf field [] s := by
  unfold toInt valueOf
  cases readInt s with
  | none => rfl
  | some v =>
      by_cases hrange : (field.lo : Int) ≤ v ∧ v ≤ field.hi
      · simp [hrange, Except.toOption]
      · simp [hrange, Except.toOption, Option.filter]

theorem toOption_parseStep (t : Str) : (parseStep field t).toOption = stepOf t := by
  unfold parseStep stepOf
  cases readInt t with
  | none => rfl
  | some step =>
      by_cases hpos : step ≤ 0
      · simp [hpos, Except.toOption, Option.filter]
      · simp [hpos, Except.toOption, Option.filter]

theorem toOption_parseSteppedRange (s : Str) :
    (parseSteppedRange field s).toOption = boundsOf field [] false s := by
  unfold parseSteppedRange boundsOf
  by_cases hall : s = ['*']
  · rw [if_pos hall, if_pos hall]
    rfl
  · rw [if_neg hall, if_neg hall]
    by_cases hhyphen : '-' ∈ s
    · rw [if_pos hhyphen, if_pos hhyphen, endsOf, toOption_bind, toOption_toInt]
      simp only [toOption_bind, toOption_toInt]
      rfl
    · rw [if_neg hhyphen, if_neg hhyphen, toOption_map, toOption_toInt]

theorem toOption_parsePart (part : Str) :
    (parsePart field part).toOption = readPart field [] false part := by
  unfold parsePart readPart
  by_cases hslash : '/' ∈ part
  · rw [if_pos hslash, if_pos hslash, toOption_bind, toOption_parseStep]
    simp only [toOption_bind, toOption_parseSteppedRange]
    rfl
  · rw [if_neg hslash, if_neg hslash]
    by_cases hhyphen : '-' ∈ part
    · rw [if_pos hhyphen, if_pos hhyphen, endsOf, toOption_bind, toOption_toInt]
      simp only [toOption_bind, toOption_toInt, Option.bind_eq_bind, Option.map_bind]
      congr 1
      funext start
      rw [Function.comp_apply, Option.map_bind]
      congr 1
      funext stop
      rw [Function.comp_apply]
      by_cases hback : stop < start
      · rw [if_pos hback, if_pos ⟨trivial, hback⟩]
        rfl
      · rw [if_neg hback, if_neg fun h => hback h.2]
        rfl
    · rw [if_neg hhyphen, if_neg hhyphen]
      by_cases hall : part = ['*']
      · rw [if_pos hall, if_pos hall]
        rfl
      · rw [if_neg hall, if_neg hall, toOption_map, toOption_toInt]

end

end OpenStarry.Cron
