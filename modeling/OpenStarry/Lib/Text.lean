import Mathlib.Data.List.DropRight

/-!
# Text as lists of characters

The string operations the programs rest on, over `List Char`: whitespace and stripping, line
boundaries, and the two forms of `splitlines`. Character classes are those of the documented
Unicode string methods.
-/

namespace OpenStarry.Lib

abbrev Str := List Char

/-! A condition on the characters of a text is decided on these and not on all there are. -/

instance (priority := 2000) decidableForallMem {α : Type*} (l : List α) (p : α → Prop)
    [DecidablePred p] : Decidable (∀ x ∈ l, p x) := List.decidableBAll p l

instance (priority := 2000) decidableExistsMem {α : Type*} (l : List α) (p : α → Prop)
    [DecidablePred p] : Decidable (∃ x ∈ l, p x) := List.decidableBEx p l

instance (priority := 2000) decidableForallMemOption {α : Type*} (o : Option α) (p : α → Prop)
    [DecidablePred p] : Decidable (∀ x ∈ o, p x) := Option.decidableForallMem o

instance (priority := 2000) decidableExistsMemOption {α : Type*} (o : Option α) (p : α → Prop)
    [DecidablePred p] : Decidable (∃ x ∈ o, p x) := Option.decidableExistsMem o

instance lawfulBEqStr : LawfulBEq Str := inferInstanceAs (LawfulBEq (List Char))

namespace Text

/-- `isspace` of one character. -/
def isSpace (c : Char) : Bool :=
  let n := c.toNat
  (9 ≤ n && n ≤ 13) || (28 ≤ n && n ≤ 32) || n == 0x85 || n == 0xa0 || n == 0x1680 ||
    (0x2000 ≤ n && n ≤ 0x200a) || n == 0x2028 || n == 0x2029 || n == 0x202f || n == 0x205f ||
    n == 0x3000

/-- The characters at which `splitlines` ends a line. -/
def isLineBoundary (c : Char) : Bool :=
  let n := c.toNat
  (10 ≤ n && n ≤ 13) || (28 ≤ n && n ≤ 30) || n == 0x85 || n == 0x2028 || n == 0x2029

theorem map_toLower_ascii (text : Str) (_ : ∀ c ∈ text, c.toNat < 128) :
    text.map Char.toLower = text.map Char.toLower := rfl

def lstrip (s : Str) : Str := s.dropWhile isSpace

def rstrip (s : Str) : Str := s.rdropWhile isSpace

def strip (s : Str) : Str := rstrip (lstrip s)

/-- `splitlines(keepends=True)`: a carriage return and the line feed after it end one line. -/
def splitlinesKeepends : Str → List Str
  | [] => []
  | '\r' :: '\n' :: rest => ['\r', '\n'] :: splitlinesKeepends rest
  | c :: rest =>
      if isLineBoundary c then [c] :: splitlinesKeepends rest
      else
        match splitlinesKeepends rest with
        | [] => [[c]]
        | line :: lines => (c :: line) :: lines

/-- `splitlines()`. -/
def splitlines (s : Str) : List Str :=
  (splitlinesKeepends s).map (List.rdropWhile isLineBoundary)

/-- A string that `splitlines` leaves in one piece. -/
def SingleLine (s : Str) : Prop := ∀ c ∈ s, isLineBoundary c = false

instance (s : Str) : Decidable (SingleLine s) := by unfold SingleLine; infer_instance

@[simp] theorem singleLine_nil : SingleLine [] := by simp [SingleLine]

@[simp] theorem singleLine_cons {c : Char} {s : Str} :
    SingleLine (c :: s) ↔ isLineBoundary c = false ∧ SingleLine s := by
  simp [SingleLine]

@[simp] theorem singleLine_append {s t : Str} :
    SingleLine (s ++ t) ↔ SingleLine s ∧ SingleLine t := by
  simp only [SingleLine, List.mem_append, or_imp, forall_and]

/-! ### Joining and splitting lines -/

/-- `"\n".join(lines)`. -/
def unlines (lines : List Str) : Str := ['\n'].intercalate lines

theorem SingleLine.splitlinesKeepends_append {line : Str} (h : SingleLine line) {stop : Char}
    (hstop : isLineBoundary stop = true) (hreturn : stop ≠ '\r') (rest : Str) :
    splitlinesKeepends (line ++ stop :: rest) = (line ++ [stop]) :: splitlinesKeepends rest := by
  induction line with
  | nil =>
      rw [List.nil_append, splitlinesKeepends, if_pos hstop]
      · rfl
      · rintro rest' rfl
        exact absurd rfl hreturn
  | cons c line ih =>
      obtain ⟨hc, hline⟩ := singleLine_cons.mp h
      rw [List.cons_append, splitlinesKeepends, if_neg (by simp [hc]), ih hline]
      · rfl
      · rintro rest' rfl
        simp [isLineBoundary] at hc

theorem SingleLine.splitlinesKeepends_eq {line : Str} (h : SingleLine line) (hne : line ≠ []) :
    splitlinesKeepends line = [line] := by
  induction line with
  | nil => exact absurd rfl hne
  | cons c line ih =>
      obtain ⟨hc, hline⟩ := singleLine_cons.mp h
      rw [splitlinesKeepends, if_neg (by simp [hc])]
      · cases line with
        | nil => rfl
        | cons d line => rw [ih hline (List.cons_ne_nil _ _)]
      · rintro rest' rfl
        simp [isLineBoundary] at hc

theorem SingleLine.rdropWhile_eq {line : Str} (h : SingleLine line) :
    line.rdropWhile isLineBoundary = line := by
  rw [List.rdropWhile_eq_self_iff]
  intro hne
  simp [h _ (List.getLast_mem hne)]

/-- `splitlines` undoes the join of single lines; the last one must not be blank, for a line
feed at the very end ends no further line. -/
theorem splitlines_unlines {lines : List Str} {last : Str}
    (hlines : ∀ line ∈ lines, SingleLine line) (hlast : SingleLine last) (hne : last ≠ []) :
    splitlines (unlines (lines ++ [last])) = lines ++ [last] := by
  induction lines with
  | nil =>
      simp [unlines, splitlines, hlast.splitlinesKeepends_eq hne, hlast.rdropWhile_eq]
  | cons line lines ih =>
      have hline := hlines line List.mem_cons_self
      have hjoin : unlines (line :: lines ++ [last]) = line ++ '\n' :: unlines (lines ++ [last]) := by
        rw [unlines, unlines, List.cons_append, List.intercalate_cons_of_ne_nil (by simp)]
        simp
      have hend : (line ++ ['\n']).rdropWhile isLineBoundary = line := by
        rw [List.rdropWhile_concat_pos _ _ _ (by decide), hline.rdropWhile_eq]
      rw [hjoin, splitlines, hline.splitlinesKeepends_append (by decide) (by decide), List.map_cons,
        hend, ← splitlines,
        ih fun l hl => hlines l (List.mem_cons_of_mem _ hl)]
      rfl

theorem SingleLine.return_notMem {line : Str} (h : SingleLine line) : '\r' ∉ line := fun hmem => by
  simpa [isLineBoundary] using h _ hmem

theorem splitlinesKeepends_shape (text : Str) : ∀ line ∈ splitlinesKeepends text,
    ∃ inner stops, line = inner ++ stops ∧ SingleLine inner ∧ ∀ c ∈ stops, isLineBoundary c = true := by
  fun_induction splitlinesKeepends text with
  | case1 => simp
  | case2 rest ih =>
      exact List.forall_mem_cons.mpr ⟨⟨[], ['\r', '\n'], rfl, singleLine_nil, by decide⟩, ih⟩
  | case3 c rest hne hboundary ih =>
      exact List.forall_mem_cons.mpr ⟨⟨[], [c], rfl, singleLine_nil, by simpa using hboundary⟩, ih⟩
  | case4 c rest hne hboundary hempty ih =>
      have hline : SingleLine [c] := singleLine_cons.mpr ⟨by simpa using hboundary, singleLine_nil⟩
      exact List.forall_mem_singleton.mpr ⟨[c], [], by simp, hline, by simp⟩
  | case5 c rest hne hboundary line lines hsplit ih =>
      rw [hsplit] at ih
      obtain ⟨⟨inner, stops, rfl, hinner, hstops⟩, hrest⟩ := List.forall_mem_cons.mp ih
      exact List.forall_mem_cons.mpr
        ⟨⟨c :: inner, stops, rfl, singleLine_cons.mpr ⟨by simpa using hboundary, hinner⟩, hstops⟩,
          hrest⟩

theorem singleLine_of_mem_splitlines {text line : Str} (h : line ∈ splitlines text) :
    SingleLine line := by
  obtain ⟨whole, hwhole, rfl⟩ := List.mem_map.mp h
  obtain ⟨inner, stops, rfl, hinner, hstops⟩ := splitlinesKeepends_shape text whole hwhole
  have hdrop : (inner ++ stops).rdropWhile isLineBoundary = inner := by
    rw [List.rdropWhile, List.reverse_append,
      List.dropWhile_append_of_pos fun c hc => hstops c (List.mem_reverse.mp hc), ← List.rdropWhile,
      hinner.rdropWhile_eq]
  rwa [hdrop]

theorem singleLine_of_mem_splitOn {lines : List Str} (h : ∀ line ∈ lines, SingleLine line)
    {line : Str} (hline : line ∈ (unlines lines).splitOn '\n') : SingleLine line := by
  by_cases hne : lines = []
  · subst hne
    simp [unlines] at hline
    simp [hline]
  · have hfeed : ∀ l ∈ lines, '\n' ∉ l := by
      intro l hl hmem
      have := h l hl '\n' hmem
      simp [isLineBoundary] at this
    rw [unlines, List.splitOn_intercalate '\n' hfeed hne] at hline
    exact h line hline

/-! ### Universal newlines -/

def universalNewlines : Str → Str
  | [] => []
  | '\r' :: '\n' :: rest => '\n' :: universalNewlines rest
  | c :: rest => (if c = '\r' then '\n' else c) :: universalNewlines rest

theorem return_notMem_universalNewlines (text : Str) : '\r' ∉ universalNewlines text := by
  fun_induction universalNewlines text with
  | case1 => simp
  | case2 rest ih => simpa using ih
  | case3 c rest hne ih =>
      rw [List.mem_cons, not_or]
      refine ⟨?_, ih⟩
      split_ifs with hc
      · decide
      · exact fun h => hc h.symm

theorem universalNewlines_eq_self {text : Str} (h : '\r' ∉ text) : universalNewlines text = text := by
  fun_induction universalNewlines text with
  | case1 => rfl
  | case2 rest ih => simp at h
  | case3 c rest hne ih =>
      rw [List.mem_cons, not_or] at h
      rw [ih h.2, if_neg fun hc => h.1 hc.symm]

theorem universalNewlines_cons {c : Char} (h : c ≠ '\r') (rest : Str) :
    universalNewlines (c :: rest) = c :: universalNewlines rest := by
  rw [universalNewlines, if_neg h]
  rintro rest' rfl
  exact absurd rfl h

theorem splitlinesKeepends_universalNewlines (text : Str) :
    splitlinesKeepends (universalNewlines text) = (splitlinesKeepends text).map universalNewlines := by
  have hnewline : ∀ rest, splitlinesKeepends ('\n' :: rest) = ['\n'] :: splitlinesKeepends rest :=
    singleLine_nil.splitlinesKeepends_append (by decide) (by decide)
  fun_induction splitlinesKeepends text with
  | case1 => rfl
  | case2 rest ih =>
      rw [universalNewlines, hnewline, ih]
      rfl
  | case3 c rest hne hboundary ih =>
      rw [List.map_cons, ← ih, universalNewlines]
      · split_ifs with hc
        · rw [hnewline, hc]
          rfl
        · have hsplit := singleLine_nil.splitlinesKeepends_append hboundary hc (universalNewlines rest)
          rw [List.nil_append] at hsplit
          rw [hsplit, universalNewlines_cons hc]
          rfl
      · exact hne
  | case4 c rest hne hboundary hempty ih =>
      have hc : c ≠ '\r' := by
        rintro rfl
        exact hboundary rfl
      have hrest : ∀ rest', c = '\r' → universalNewlines rest = '\n' :: rest' → False :=
        fun _ heq => absurd heq hc
      rw [hempty] at ih
      rw [universalNewlines_cons hc, splitlinesKeepends, if_neg hboundary, ih]
      · rw [List.map_cons, universalNewlines_cons hc]
        rfl
      · exact hrest
  | case5 c rest hne hboundary line lines hsplit ih =>
      have hc : c ≠ '\r' := by
        rintro rfl
        exact hboundary rfl
      have hrest : ∀ rest', c = '\r' → universalNewlines rest = '\n' :: rest' → False :=
        fun _ heq => absurd heq hc
      rw [hsplit] at ih
      rw [universalNewlines_cons hc, splitlinesKeepends, if_neg hboundary, ih]
      · rw [List.map_cons, List.map_cons, universalNewlines_cons hc]
      · exact hrest

/-! ### Lines with their ends

The notions are for text without carriage returns, as a file read with universal newlines gives
it: there every boundary is one character, and lines may be put next to each other. -/

def isTerminated (line : Str) : Bool := line.getLast?.any isLineBoundary

structure IsLine (line : Str) : Prop where
  inner : SingleLine line.dropLast
  noReturn : '\r' ∉ line
  ne_nil : line ≠ []

theorem IsLine.of_singleLine {line : Str} (h : SingleLine line) (hne : line ≠ []) : IsLine line :=
  { inner := fun c hc => h c (List.dropLast_subset _ hc)
    noReturn := h.return_notMem
    ne_nil := hne }

theorem IsLine.concat {line : Str} (h : SingleLine line) {stop : Char} (hreturn : stop ≠ '\r') :
    IsLine (line ++ [stop]) :=
  { inner := by rwa [List.dropLast_concat]
    noReturn := by
      rw [List.mem_append, List.mem_singleton]
      rintro (hc | hc)
      · exact h.return_notMem hc
      · exact hreturn hc.symm
    ne_nil := List.concat_ne_nil _ _ }

theorem isTerminated_concat {line : Str} {stop : Char} :
    isTerminated (line ++ [stop]) = isLineBoundary stop := by
  simp [isTerminated]

theorem IsLine.eq_concat {line : Str} (h : IsLine line) (hend : isTerminated line = true) :
    ∃ text stop, line = text ++ [stop] ∧ SingleLine text ∧ isLineBoundary stop = true ∧
      stop ≠ '\r' := by
  have hsplit := List.dropLast_append_getLast h.ne_nil
  refine ⟨line.dropLast, line.getLast h.ne_nil, hsplit.symm, h.inner, ?_, ?_⟩
  · rw [← hsplit, isTerminated_concat] at hend
    exact hend
  · intro heq
    exact h.noReturn (heq ▸ List.getLast_mem h.ne_nil)

theorem IsLine.singleLine {line : Str} (h : IsLine line) (hend : isTerminated line = false) :
    SingleLine line := by
  have hsplit := List.dropLast_append_getLast h.ne_nil
  rw [← hsplit, isTerminated_concat] at hend
  rw [← hsplit, singleLine_append]
  exact ⟨h.inner, by simp [hend]⟩

theorem mem_dropLast_cons_of_mem {α : Type*} {x : α} (first : α) {rest : List α}
    (h : x ∈ rest.dropLast) : x ∈ (first :: rest).dropLast := by
  cases rest with
  | nil => simp at h
  | cons => exact List.mem_cons_of_mem _ h

theorem splitlinesKeepends_flatten {lines : List Str} (hlines : ∀ line ∈ lines, IsLine line)
    (hends : ∀ line ∈ lines.dropLast, isTerminated line = true) :
    splitlinesKeepends lines.flatten = lines := by
  induction lines with
  | nil => rfl
  | cons line rest ih =>
      have hline := hlines line List.mem_cons_self
      by_cases hend : isTerminated line = true
      · obtain ⟨text, stop, rfl, htext, hstop, hreturn⟩ := hline.eq_concat hend
        have hrest := ih (fun l hl => hlines l (List.mem_cons_of_mem _ hl)) fun l hl =>
          hends l (mem_dropLast_cons_of_mem _ hl)
        rw [List.flatten_cons, List.append_assoc, List.singleton_append,
          htext.splitlinesKeepends_append hstop hreturn, hrest]
      · cases rest with
        | nil =>
            rw [List.flatten_singleton,
              (hline.singleLine (by simpa using hend)).splitlinesKeepends_eq hline.ne_nil]
        | cons => exact absurd (hends line List.mem_cons_self) hend

theorem IsLine.cons {c : Char} {line : Str} (hc : isLineBoundary c = false) (h : IsLine line) :
    IsLine (c :: line) :=
  { inner := by
      rw [List.dropLast_cons_of_ne_nil h.ne_nil]
      exact singleLine_cons.mpr ⟨hc, h.inner⟩
    noReturn := by
      rw [List.mem_cons, not_or]
      refine ⟨?_, h.noReturn⟩
      rintro rfl
      simp [isLineBoundary] at hc
    ne_nil := List.cons_ne_nil _ _ }

theorem isTerminated_cons {c : Char} {line : Str} (hne : line ≠ []) :
    isTerminated (c :: line) = isTerminated line := by
  rw [isTerminated, isTerminated, List.getLast?_cons_of_ne_nil hne]

theorem mem_dropLast_cons {α : Type*} {x first : α} {rest : List α}
    (h : x ∈ (first :: rest).dropLast) : x = first ∨ x ∈ rest.dropLast := by
  cases rest with
  | nil => simp at h
  | cons => exact List.mem_cons.mp h

theorem splitlinesKeepends_lines {text : Str} (h : '\r' ∉ text) :
    (∀ line ∈ splitlinesKeepends text, IsLine line) ∧
      ∀ line ∈ (splitlinesKeepends text).dropLast, isTerminated line = true := by
  fun_induction splitlinesKeepends text with
  | case1 => simp
  | case2 rest ih => simp at h
  | case3 c rest hne hboundary ih =>
      rw [List.mem_cons, not_or] at h
      obtain ⟨hlines, hends⟩ := ih h.2
      have hline : IsLine ([] ++ [c]) := .concat singleLine_nil fun hc => h.1 hc.symm
      refine ⟨List.forall_mem_cons.mpr ⟨hline, hlines⟩, fun line hmem => ?_⟩
      rcases mem_dropLast_cons hmem with rfl | hmem
      · simpa [isTerminated] using hboundary
      · exact hends line hmem
  | case4 c rest hne hboundary hempty ih =>
      have hline : SingleLine [c] := singleLine_cons.mpr ⟨by simpa using hboundary, singleLine_nil⟩
      simpa using IsLine.of_singleLine hline (List.cons_ne_nil _ _)
  | case5 c rest hne hboundary line lines hsplit ih =>
      rw [List.mem_cons, not_or] at h
      rw [hsplit] at ih
      obtain ⟨hlines, hends⟩ := ih h.2
      obtain ⟨hfirst, hrest⟩ := List.forall_mem_cons.mp hlines
      refine ⟨List.forall_mem_cons.mpr ⟨.cons (by simpa using hboundary) hfirst, hrest⟩,
        fun other hmem => ?_⟩
      cases lines with
      | nil => simp at hmem
      | cons next lines =>
          rcases List.mem_cons.mp hmem with rfl | hmem
          · rw [isTerminated_cons hfirst.ne_nil]
            exact hends line List.mem_cons_self
          · exact hends other (List.mem_cons_of_mem _ hmem)

/-! ### Stripping -/

theorem strip_cons {c : Char} (h : isSpace c = false) (s : Str) :
    ∃ rest, strip (c :: s) = c :: rest := by
  have hl : lstrip (c :: s) = c :: s := by simp [lstrip, h]
  have hpre : rstrip (c :: s) <+: c :: s := List.rdropWhile_prefix _ _
  have hne : rstrip (c :: s) ≠ [] := by
    rw [rstrip, Ne, List.rdropWhile_eq_nil_iff]
    intro hall
    simp [hall c List.mem_cons_self] at h
  obtain ⟨tail, htail⟩ := hpre
  rw [strip, hl]
  cases hs : rstrip (c :: s) with
  | nil => exact absurd hs hne
  | cons d rest =>
      rw [hs] at htail
      obtain ⟨rfl, -⟩ := List.cons.inj htail
      exact ⟨rest, rfl⟩

theorem strip_strip (s : Str) : strip (strip s) = strip s := by
  have hdone : ∀ t : Str, lstrip (rstrip (lstrip t)) = rstrip (lstrip t) := by
    intro t
    cases ht : lstrip t with
    | nil => rfl
    | cons c rest =>
        have hc : isSpace c = false := by
          have hhead := List.head?_dropWhile_not isSpace t
          rw [show t.dropWhile isSpace = c :: rest from ht] at hhead
          simpa using hhead
        obtain ⟨tail, htail⟩ := strip_cons hc rest
        have hl : lstrip (c :: rest) = c :: rest := by simp [lstrip, hc]
        rw [strip, hl] at htail
        rw [htail]
        simp [lstrip, hc]
  rw [strip, strip, hdone]
  exact List.rdropWhile_idempotent _ _

theorem strip_append {front : Str} (hfront : ∀ c ∈ front, isSpace c = true) (s : Str) :
    strip (front ++ s) = strip s := by
  rw [strip, strip, lstrip, lstrip, List.dropWhile_append_of_pos hfront]

theorem exists_around_strip (line : Str) : ∃ front back : Str,
    line = front ++ (strip line ++ back) ∧ ∀ c ∈ front, isSpace c = true := by
  obtain ⟨back, hback⟩ : strip line <+: lstrip line := List.rdropWhile_prefix _ _
  refine ⟨line.takeWhile isSpace, back, ?_, fun c hc => List.mem_takeWhile_imp hc⟩
  rw [hback]
  exact (List.takeWhile_append_dropWhile).symm

theorem rstrip_append_cons {c : Char} (h : isSpace c = false) (front back : Str) :
    rstrip (front ++ c :: back) = front ++ c :: rstrip back := by
  rw [rstrip, rstrip, List.rdropWhile, List.rdropWhile, List.reverse_append, List.reverse_cons,
    List.append_assoc, List.dropWhile_append]
  split_ifs with hempty
  · rw [List.isEmpty_iff.mp hempty, List.singleton_append,
      List.dropWhile_cons_of_neg (by simp [h]), List.reverse_cons, List.reverse_reverse,
      List.reverse_nil]
  · simp

def Stripped (s : Str) : Prop :=
  (∀ c ∈ s.head?, isSpace c = false) ∧ ∀ c ∈ s.getLast?, isSpace c = false

theorem strip_eq_self_iff {s : Str} : strip s = s ↔ Stripped s := by
  constructor
  · intro h
    constructor
    · intro c hc
      have hhead := List.head?_dropWhile_not isSpace s
      obtain ⟨suffix, hsuffix⟩ : strip s <+: lstrip s := List.rdropWhile_prefix _ _
      rw [h] at hsuffix
      have hfirst : (lstrip s).head? = some c := by
        rw [← hsuffix, List.head?_append, Option.mem_def.mp hc]
        rfl
      rw [show s.dropWhile isSpace = lstrip s from rfl, hfirst] at hhead
      simpa using hhead
    · intro c hc
      cases hs : s with
      | nil => simp [hs] at hc
      | cons d rest =>
          have hne : strip s ≠ [] := by rw [h, hs]; exact List.cons_ne_nil _ _
          have hlast := List.rdropWhile_last_not isSpace (lstrip s) hne
          have hback : (strip s).getLast hne = c := by
            rw [← h, List.getLast?_eq_some_getLast hne] at hc
            exact Option.some.inj hc
          rw [show (List.rdropWhile isSpace (lstrip s)).getLast hne = c from hback] at hlast
          simpa using hlast
  · rintro ⟨hhead, hlast⟩
    have hleft : lstrip s = s := by
      rw [lstrip, List.dropWhile_eq_self_iff]
      intro hpos
      have hmem : s[0] ∈ s.head? := by rw [List.head?_eq_getElem?, List.getElem?_eq_getElem hpos]; rfl
      simpa using hhead _ hmem
    have hright : rstrip s = s := by
      rw [rstrip, List.rdropWhile_eq_self_iff]
      intro hne
      simpa using hlast _ (List.getLast_mem_getLast? hne)
    rw [strip, hleft, hright]

theorem stripped_strip (s : Str) : Stripped (strip s) := strip_eq_self_iff.mp (strip_strip s)

theorem strip_eq_self {s : Str} (h : ∀ c ∈ s, isSpace c = false) : strip s = s := by
  have hleft : lstrip s = s := by
    rw [lstrip, List.dropWhile_eq_self_iff]
    intro hpos
    simpa using h _ (List.getElem_mem hpos)
  have hright : rstrip s = s := by
    rw [rstrip, List.rdropWhile_eq_self_iff]
    intro hne
    simpa using h _ (List.getLast_mem hne)
  rw [strip, hleft, hright]

end Text

end OpenStarry.Lib

/-!
# Text as bytes

A text is written as UTF-8. A file read as text is decoded, and its line ends are translated.
-/

namespace OpenStarry.Lib.Text

/-- `text.encode("utf-8")`. -/
def encode (text : Str) : ByteArray := (String.ofList text).toUTF8

/-- `data.decode("utf-8")`, where it does not raise. -/
def decode (data : ByteArray) : Option Str := data.utf8Decode?.map Array.toList

/-- `path.read_text(encoding="utf-8")` of the bytes of a file. -/
def readText (data : ByteArray) : Option Str := (decode data).map universalNewlines

@[simp] theorem decode_encode (text : Str) : decode (encode text) = some text := by
  have hencode : encode text = text.utf8Encode := String.toByteArray_ofList
  rw [decode, hencode, List.utf8Decode?_utf8Encode, Option.map_some]

theorem readText_encode {text : Str} (h : '\r' ∉ text) : readText (encode text) = some text := by
  rw [readText, decode_encode, Option.map_some, universalNewlines_eq_self h]

end OpenStarry.Lib.Text
