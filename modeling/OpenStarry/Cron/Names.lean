import OpenStarry.Cron.Grammar

/-!
# Names in the parts of a cron field

The parser puts names into numbers wherever they occur in a part, and takes two further signs for
the slash and the hyphen. The grammar has a name only as a whole value. In a part of the grammar the
two come to the same.
-/

namespace OpenStarry.Cron

open Lib Lib.Text

def substituteName (names : List (Str × Nat)) (s : Str) : Str :=
  match names.find? (spells s) with
  | some entry => decimal entry.2
  | none => s

def substituteRange (names : List (Str × Nat)) (s : Str) : Str :=
  if '-' ∈ s then
    substituteName names (beforeFirst '-' s) ++ '-' :: substituteName names (afterFirst '-' s)
  else substituteName names s

def substituteValues (names : List (Str × Nat)) (part : Str) : Str :=
  if '/' ∈ part then substituteRange names (beforeFirst '/' part) ++ '/' :: afterFirst '/' part
  else substituteRange names part

section

variable (field : CronFieldName)

theorem readInt_name {entry : Str × Nat} (hentry : entry ∈ field.names) :
    readInt (decimal entry.2) = some (entry.2 : Int) ∧ field.lo ≤ entry.2 ∧
      entry.2 ≤ field.hi := by
  have hall : ∀ entry ∈ field.names, readInt (decimal entry.2) = some (entry.2 : Int) ∧
      field.lo ≤ entry.2 ∧ entry.2 ≤ field.hi := by
    cases field <;> decide +kernel
  exact hall entry hentry

theorem sign_notMem_decimal {c : Char} (hc : c.isDigit = false) (n : Nat) : c ∉ decimal n := by
  intro h
  rw [isDigit_of_mem_decimal h] at hc
  exact absurd hc nofun

theorem valueOf_substituteName (s : Str) :
    valueOf field [] (substituteName field.names s) = valueOf field field.names s := by
  unfold substituteName
  cases hfound : field.names.find? (spells s) with
  | none =>
      unfold valueOf
      rw [hfound]
      rfl
  | some entry =>
      obtain ⟨hread, hlo, hhi⟩ := readInt_name field (List.mem_of_find?_eq_some hfound)
      unfold valueOf
      rw [hfound]
      simp [hread, hlo, hhi]

theorem mem_substituteName {c : Char} (hdigit : c.isDigit = false)
    (hplain : ∀ entry ∈ field.names, ∀ s, spells s entry = true → c ∉ s) {s : Str} :
    c ∈ substituteName field.names s ↔ c ∈ s := by
  unfold substituteName
  cases hfound : field.names.find? (spells s) with
  | none => rfl
  | some entry =>
      have hnot := hplain entry (List.mem_of_find?_eq_some hfound) s (List.find?_some hfound)
      exact ⟨fun h => absurd h (sign_notMem_decimal hdigit _), fun h => absurd h hnot⟩

theorem hyphen_substituteName {s : Str} : '-' ∈ substituteName field.names s ↔ '-' ∈ s :=
  mem_substituteName field rfl fun entry hentry s hs =>
    ((isNameTable_names field).plain entry hentry s hs).1

theorem slash_substituteName {s : Str} : '/' ∈ substituteName field.names s ↔ '/' ∈ s :=
  mem_substituteName field rfl fun entry hentry s hs =>
    ((isNameTable_names field).plain entry hentry s hs).2.1

theorem star_substituteName {s : Str} : substituteName field.names s = ['*'] ↔ s = ['*'] := by
  have hmem : '*' ∈ substituteName field.names s ↔ '*' ∈ s :=
    mem_substituteName field rfl fun entry hentry s hs =>
      ((isNameTable_names field).plain entry hentry s hs).2.2
  have hsame : '*' ∈ s → substituteName field.names s = s := by
    intro hstar
    unfold substituteName
    cases hfound : field.names.find? (spells s) with
    | none => rfl
    | some entry =>
        exact absurd hstar ((isNameTable_names field).plain entry
          (List.mem_of_find?_eq_some hfound) s (List.find?_some hfound)).2.2
  constructor
  · intro h
    rw [← h]
    exact (hsame (hmem.mp (h ▸ List.mem_cons_self))).symm
  · intro h
    rw [hsame (h ▸ List.mem_cons_self), h]

theorem slash_substituteRange {s : Str} : '/' ∈ substituteRange field.names s ↔ '/' ∈ s := by
  unfold substituteRange
  by_cases hhyphen : '-' ∈ s
  · obtain ⟨hcut, -⟩ := beforeFirst_append_afterFirst hhyphen
    rw [if_pos hhyphen]
    conv_rhs => rw [← hcut]
    simp only [List.mem_append, List.mem_cons, slash_substituteName]
  · rw [if_neg hhyphen, slash_substituteName]

theorem endsOf_substituteRange {ordered : Bool} {s : Str} (hhyphen : '-' ∈ s) :
    endsOf field [] ordered (substituteRange field.names s) =
      endsOf field field.names ordered s := by
  have hfront := mt (hyphen_substituteName field).mp (beforeFirst_append_afterFirst hhyphen).2
  rw [substituteRange, if_pos hhyphen, endsOf, endsOf, beforeFirst_append hfront,
    afterFirst_append hfront, valueOf_substituteName, valueOf_substituteName]

theorem hyphen_substituteRange {s : Str} : '-' ∈ substituteRange field.names s ↔ '-' ∈ s := by
  unfold substituteRange
  by_cases hhyphen : '-' ∈ s
  · rw [if_pos hhyphen]
    exact ⟨fun _ => hhyphen, fun _ => List.mem_append_right _ List.mem_cons_self⟩
  · rw [if_neg hhyphen, hyphen_substituteName]

theorem star_substituteRange {s : Str} : substituteRange field.names s = ['*'] ↔ s = ['*'] := by
  by_cases hhyphen : '-' ∈ s
  · have hleft : substituteRange field.names s ≠ ['*'] := fun h => absurd
      (h ▸ (hyphen_substituteRange field).mpr hhyphen) (by decide)
    have hright : s ≠ ['*'] := fun h => absurd (h ▸ hhyphen) (by decide)
    exact ⟨fun h => absurd h hleft, fun h => absurd h hright⟩
  · rw [substituteRange, if_neg hhyphen, star_substituteName]

theorem boundsOf_substituteRange (ordered : Bool) (s : Str) :
    boundsOf field [] ordered (substituteRange field.names s) =
      boundsOf field field.names ordered s := by
  unfold boundsOf
  by_cases hall : s = ['*']
  · rw [if_pos ((star_substituteRange field).mpr hall), if_pos hall]
  · rw [if_neg (mt (star_substituteRange field).mp hall), if_neg hall]
    by_cases hhyphen : '-' ∈ s
    · rw [if_pos ((hyphen_substituteRange field).mpr hhyphen), if_pos hhyphen,
        endsOf_substituteRange field hhyphen]
    · rw [if_neg (mt (hyphen_substituteRange field).mp hhyphen), if_neg hhyphen, substituteRange,
        if_neg hhyphen, valueOf_substituteName]

theorem readPart_substituteValues (ordered : Bool) (part : Str) :
    readPart field [] ordered (substituteValues field.names part) =
      readPart field field.names ordered part := by
  unfold substituteValues
  by_cases hslash : '/' ∈ part
  · have hfront := mt (slash_substituteRange field).mp (beforeFirst_append_afterFirst hslash).2
    rw [if_pos hslash, readPart, if_pos (List.mem_append_right _ List.mem_cons_self), readPart,
      if_pos hslash, beforeFirst_append hfront, afterFirst_append hfront, boundsOf_substituteRange]
  · rw [if_neg hslash, readPart, if_neg (mt (slash_substituteRange field).mp hslash), readPart,
      if_neg hslash]
    by_cases hhyphen : '-' ∈ part
    · rw [if_pos ((hyphen_substituteRange field).mpr hhyphen), if_pos hhyphen,
        endsOf_substituteRange field hhyphen]
    · rw [if_neg (mt (hyphen_substituteRange field).mp hhyphen), if_neg hhyphen]
      by_cases hall : part = ['*']
      · rw [if_pos ((star_substituteRange field).mpr hall), if_pos hall]
      · rw [if_neg (mt (star_substituteRange field).mp hall), if_neg hall, substituteRange,
          if_neg hhyphen, valueOf_substituteName]

/-! ### Names put in wherever they occur -/

theorem name_letters {entry : Str × Nat} (hentry : entry ∈ field.names) {s : Str}
    (hs : s ∈ spellings entry) : s ≠ [] ∧ '§' ∉ s ∧ '¶' ∉ s ∧ (∃ c ∈ s, isIntChar c = false ∧
      c ≠ '§' ∧ c ≠ '¶' ∧ c ≠ '*') := by
  have hall : ∀ entry ∈ field.names, ∀ s ∈ spellings entry, s ≠ [] ∧ '§' ∉ s ∧ '¶' ∉ s ∧
      (∃ c ∈ s, isIntChar c = false ∧ c ≠ '§' ∧ c ≠ '¶' ∧ c ≠ '*') := by
    cases field <;> decide +kernel
  exact hall entry hentry s hs

theorem replaceNames_append {sign : Char} (hsign : sign = '§' ∨ sign = '¶') (a b : Str) :
    replaceNames field.names (a ++ sign :: b) =
      replaceNames field.names a ++ sign :: replaceNames field.names b := by
  have hpart : ∀ names : List (Str × Nat), (∀ entry ∈ names, entry ∈ field.names) → ∀ a b,
      replaceNames names (a ++ sign :: b) =
        replaceNames names a ++ sign :: replaceNames names b := by
    intro names
    induction names with
    | nil => exact fun _ _ _ => rfl
    | cons entry names ih =>
        intro hnames a b
        have hspelling : ∀ s ∈ spellings entry, s ≠ [] ∧ sign ∉ s := by
          intro s hs
          obtain ⟨hne, hslash, hhyphen, -⟩ :=
            name_letters field (hnames entry List.mem_cons_self) hs
          obtain rfl | rfl := hsign
          · exact ⟨hne, hslash⟩
          · exact ⟨hne, hhyphen⟩
        obtain ⟨hlower, hlowerSign⟩ := hspelling entry.1 List.mem_cons_self
        obtain ⟨hupper, hupperSign⟩ :=
          hspelling (upperName entry.1) (List.mem_cons_of_mem _ List.mem_cons_self)
        have hrest := ih fun other hother => hnames other (List.mem_cons_of_mem _ hother)
        rw [replaceNames, List.foldl_cons, replace_append_cons hlower hlowerSign,
          replace_append_cons hupper hupperSign]
        exact hrest _ _
  exact hpart field.names (fun _ h => h) a b

theorem replaceNames_eq_self {s : Str}
    (h : ∀ c ∈ s, isIntChar c = true ∨ c = '§' ∨ c = '¶' ∨ c = '*') :
    replaceNames field.names s = s := by
  have hpart : ∀ names : List (Str × Nat), (∀ entry ∈ names, entry ∈ field.names) →
      replaceNames names s = s := by
    intro names
    induction names with
    | nil => exact fun _ => rfl
    | cons entry names ih =>
        intro hnames
        have hspelling : ∀ spelling ∈ spellings entry, ∀ new, replace spelling new s = s := by
          intro spelling hs new
          obtain ⟨-, -, -, c, hc, hint, hslash, hhyphen, hstar⟩ :=
            name_letters field (hnames entry List.mem_cons_self) hs
          apply replace_eq_self hc
          intro hmem
          obtain hchar | hchar | hchar | hchar := h c hmem
          · rw [hchar] at hint
            exact absurd hint nofun
          · exact hslash hchar
          · exact hhyphen hchar
          · exact hstar hchar
        have hrest := ih fun other hother => hnames other (List.mem_cons_of_mem _ hother)
        rw [replaceNames, List.foldl_cons, hspelling entry.1 List.mem_cons_self,
          hspelling (upperName entry.1) (List.mem_cons_of_mem _ List.mem_cons_self)]
        exact hrest
  exact hpart field.names fun _ h => h

theorem resolveNames_append {sign : Char} (hsign : sign = '/' ∨ sign = '-') (a b : Str) :
    resolveNames field.names (a ++ sign :: b) =
      resolveNames field.names a ++ sign :: resolveNames field.names b := by
  unfold resolveNames
  by_cases hnames : field.names = []
  · rw [if_pos hnames, if_pos hnames, if_pos hnames]
  · rw [if_neg hnames, if_neg hnames, if_neg hnames]
    have hhidden : hideSigns sign = '§' ∨ hideSigns sign = '¶' := by
      obtain rfl | rfl := hsign
      · exact Or.inl rfl
      · exact Or.inr rfl
    have hshown : showSigns (hideSigns sign) = sign := by
      obtain rfl | rfl := hsign
      · rfl
      · rfl
    rw [List.map_append, List.map_cons, replaceNames_append field hhidden, List.map_append,
      List.map_cons, hshown]

theorem resolveNames_eq_self {s : Str} (h : ∀ c ∈ s, isIntChar c = true ∨ c = '*') :
    resolveNames field.names s = s := by
  unfold resolveNames
  split_ifs with hnames
  · rfl
  · have hhidden : ∀ c ∈ s, isIntChar (hideSigns c) = true ∨ hideSigns c = '§' ∨
        hideSigns c = '¶' ∨ hideSigns c = '*' := by
      intro c hc
      unfold hideSigns
      split_ifs with hslash hhyphen
      · exact Or.inr (Or.inl rfl)
      · exact Or.inr (Or.inr (Or.inl rfl))
      · exact (h c hc).imp_right fun hstar => Or.inr (Or.inr hstar)
    have hshown : ∀ c ∈ s, showSigns (hideSigns c) = c := by
      intro c hc
      have hkept : c ≠ '§' ∧ c ≠ '¶' := by
        constructor
        · rintro rfl
          exact absurd (h _ hc) (by decide)
        · rintro rfl
          exact absurd (h _ hc) (by decide)
      unfold hideSigns
      split_ifs with hslash hhyphen
      · exact hslash.symm
      · exact hhyphen.symm
      · rw [showSigns, if_neg hkept.1, if_neg hkept.2]
    rw [replaceNames_eq_self field (List.forall_mem_map.mpr hhidden), List.map_map]
    exact (List.map_congr_left hshown).trans (List.map_id s)

theorem resolveNames_value {s : Str} {v : Nat} (h : IsValue field field.names s v) :
    resolveNames field.names s = substituteName field.names s := by
  unfold substituteName
  cases h with
  | int hread hlo hhi =>
      have hnone : field.names.find? (spells s) = none := by
        rw [List.find?_eq_none]
        intro entry hentry hspelled
        rw [(isNameTable_names field).notInt entry hentry s hspelled] at hread
        exact absurd hread nofun
      rw [hnone]
      exact resolveNames_eq_self field fun c hc => Or.inl (isIntChar_of_readInt hread c hc)
  | @name entry hentry hspelled =>
      have hall : ∀ entry ∈ field.names, ∀ s ∈ spellings entry,
          resolveNames field.names s = decimal entry.2 := by
        cases field <;> decide +kernel
      have hspelled : spells s entry = true := by simpa [spells] using hspelled
      obtain ⟨found, hfound⟩ := Option.isSome_iff_exists.mp
        (List.find?_isSome.mpr ⟨entry, hentry, hspelled⟩)
      rw [hfound, hall entry hentry s (mem_spellings.mpr hspelled),
        (isNameTable_names field).unique found (List.mem_of_find?_eq_some hfound) entry hentry s
          (List.find?_some hfound) hspelled]

theorem resolveNames_range {ordered : Bool} {s : Str} {ends : Nat × Nat}
    (h : IsRange field field.names ordered s ends) :
    resolveNames field.names s = substituteRange field.names s := by
  unfold substituteRange
  cases h with
  | all =>
      have hname := (star_substituteName field).mpr rfl
      rw [if_neg (by decide), hname]
      apply resolveNames_eq_self field
      intro c hc
      exact Or.inr (List.mem_singleton.mp hc)
  | ends hhyphen hstart hstop horder =>
      rw [if_pos (List.mem_append_right _ List.mem_cons_self), beforeFirst_append hhyphen,
        afterFirst_append hhyphen, resolveNames_append field (Or.inr rfl),
        resolveNames_value field hstart, resolveNames_value field hstop]

theorem resolveNames_of_denotes {ordered : Bool} {part : Str} {set : Finset Nat}
    (h : Denotes field field.names ordered part set) :
    resolveNames field.names part = substituteValues field.names part := by
  have htable := isNameTable_names field
  have hstepText : ∀ {t : Str} {step : Nat}, readInt t = some (step : Int) →
      resolveNames field.names t = t := fun hread =>
    resolveNames_eq_self field fun c hc => Or.inl (isIntChar_of_readInt hread c hc)
  unfold substituteValues
  cases h with
  | range hrange =>
      rw [if_neg (hrange.slash htable), resolveNames_range field hrange]
  | value hhyphen hvalue =>
      rw [if_neg (hvalue.plain htable).1, resolveNames_value field hvalue, substituteRange,
        if_neg hhyphen]
  | rangeStep hrange hstep hpos =>
      have hslash := hrange.slash htable
      rw [if_pos (List.mem_append_right _ List.mem_cons_self), beforeFirst_append hslash,
        afterFirst_append hslash, resolveNames_append field (Or.inl rfl), hstepText hstep,
        resolveNames_range field hrange]
  | valueStep hhyphen hvalue hstep hpos =>
      have hslash := (hvalue.plain htable).1
      rw [if_pos (List.mem_append_right _ List.mem_cons_self), beforeFirst_append hslash,
        afterFirst_append hslash, resolveNames_append field (Or.inl rfl), hstepText hstep,
        resolveNames_value field hvalue, substituteRange, if_neg hhyphen]

end

end OpenStarry.Cron
