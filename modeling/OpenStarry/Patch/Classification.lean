import OpenStarry.Lib.LinePieces

/-!
# Which patches only add instrumentation

The classifier reads a unified diff line by line and tells its headers from changed lines by their
first characters. It is compared with the diffs that `git` writes for two versions of a file.
-/

namespace OpenStarry.Patch

open Lib Lib.Text

/-! ### The classifier -/

def changedLine (sign : Char) (line : Str) : Option Str :=
  if "+++".toList.isPrefixOf line || "---".toList.isPrefixOf line then none
  else if line.head? = some sign then some line.tail
  else none

def iterPatchLineChanges (patch : Str) : List Str × List Str :=
  ((splitlines patch).filterMap (changedLine '+'), (splitlines patch).filterMap (changedLine '-'))

/-- `instrumentation` is the match of the regular expression at the start of a line. -/
def isInstrumentationOnlyPatch (instrumentation : Str → Bool) (patch : Str) : Bool :=
  if strip patch = [] then false
  else
    let (added, removed) := iterPatchLineChanges patch
    if removed ≠ [] then false
    else
      let contentLines := (added.map strip).filter (· ≠ [])
      if contentLines = [] then false else contentLines.all instrumentation

/-! ### The diff of two versions -/

/-- A line of a hunk. -/
inductive Change where
  | keep (line : Str)
  | remove (line : Str)
  | insert (line : Str)
  | noNewline

namespace Change

def shown : Change → Str
  | keep line => ' ' :: line
  | remove line => '-' :: line
  | insert line => '+' :: line
  | noNewline => "\\ No newline at end of file".toList

def old : Change → Option Str
  | keep line => some line
  | remove line => some line
  | insert _ => none
  | noNewline => none

def new : Change → Option Str
  | keep line => some line
  | remove _ => none
  | insert line => some line
  | noNewline => none

def removed : Change → Option Str
  | remove line => some line
  | _ => none

def inserted : Change → Option Str
  | insert line => some line
  | _ => none

end Change

/-- A hunk, with the unchanged lines before it that the diff leaves out. -/
structure DiffHunk where
  before : List Str
  header : Str
  changes : List Change

/-- A diff that leads from one list of lines to another. -/
structure UnifiedDiff (old new : List Str) where
  headers : List Str
  hunks : List DiffHunk
  behind : List Str
  old_eq : old = hunks.flatMap (fun h => h.before ++ h.changes.filterMap Change.old) ++ behind
  new_eq : new = hunks.flatMap (fun h => h.before ++ h.changes.filterMap Change.new) ++ behind
  noFeed : ∀ line ∈ old ++ new, '\n' ∉ line

namespace UnifiedDiff

variable {old new : List Str} (d : UnifiedDiff old new)

def changes : List Change := d.hunks.flatMap DiffHunk.changes

def removed : List Str := d.changes.filterMap Change.removed

def inserted : List Str := d.changes.filterMap Change.inserted

def lines : List Str := d.headers ++ d.hunks.flatMap fun h => h.header :: h.changes.map Change.shown

def text : Str := unlines (d.lines ++ [[]])

end UnifiedDiff

/-! ### What is promised -/

def RemovedSeen (line : Str) : Prop :=
  (line.takeWhile fun c => !isLineBoundary c) ∈ (iterPatchLineChanges ('-' :: line)).2

def InsertedSeen (line : Str) : Prop :=
  strip line ∈ (iterPatchLineChanges ('+' :: line)).1.map strip

structure Conservative (instrumentation : Str → Bool) {old new : List Str} (d : UnifiedDiff old new) :
    Prop where
  onlyInserts : isInstrumentationOnlyPatch instrumentation d.text = true →
    old.Sublist new ∧ d.removed = [] ∧
      ∀ line ∈ d.inserted, strip line ≠ [] → instrumentation (strip line) = true
  removedSeen : ∀ line ∈ d.removed, RemovedSeen line
  insertedSeen : ∀ line ∈ d.inserted, strip line ≠ [] → InsertedSeen line

/-! ### The pieces of one line -/

section

variable {line : Str} {sign : Char}

theorem rdropWhile_append_of_pos {p : Char → Bool} {front back : Str}
    (hback : ∀ c ∈ back, p c = true) : (front ++ back).rdropWhile p = front.rdropWhile p := by
  rw [List.rdropWhile, List.rdropWhile, List.reverse_append, List.dropWhile_append_of_pos]
  exact fun c hc => hback c (List.mem_reverse.1 hc)

theorem firstPiece_spec (text : Str) (hne : text ≠ []) :
    ∃ rest others, text = (text.takeWhile fun c => !isLineBoundary c) ++ rest ∧
      splitlines text = (text.takeWhile fun c => !isLineBoundary c) :: others ∧
      (∀ p ∈ others, p.Sublist rest) ∧ (rest = [] ∨ ∃ c ∈ rest.head?, isLineBoundary c = true) := by
  have hsingle : SingleLine (text.takeWhile fun c => !isLineBoundary c) := by
    intro c hc
    simpa using List.mem_takeWhile_imp hc
  have hsplit : text = (text.takeWhile fun c => !isLineBoundary c) ++
      text.dropWhile fun c => !isLineBoundary c := List.takeWhile_append_dropWhile.symm
  generalize (text.takeWhile fun c => !isLineBoundary c) = first at hsingle hsplit ⊢
  cases hrest : text.dropWhile fun c => !isLineBoundary c with
  | nil =>
      rw [hrest, List.append_nil] at hsplit
      refine ⟨[], [], by rw [hsplit, List.append_nil], ?_, by simp, Or.inl rfl⟩
      rw [splitlines, hsplit, hsingle.splitlinesKeepends_eq (hsplit ▸ hne), List.map_singleton,
        hsingle.rdropWhile_eq]
  | cons c rest =>
      have hc : isLineBoundary c = true := by
        have hhead := List.head?_dropWhile_not (fun c => !isLineBoundary c) text
        rw [hrest] at hhead
        simpa using hhead
      rw [hrest] at hsplit
      obtain ⟨stop, lines, hpieces, hstop, hflat⟩ : ∃ stop lines,
          splitlinesKeepends (c :: rest) = stop :: lines ∧ (∀ x ∈ stop, isLineBoundary x = true) ∧
            c :: rest = stop ++ lines.flatten := by
        by_cases hmerges : c = '\r' ∧ rest.head? = some '\n'
        · obtain ⟨rfl, hfeed⟩ := hmerges
          obtain ⟨tail, rfl⟩ : ∃ tail, rest = '\n' :: tail := by
            cases rest with
            | nil => cases hfeed
            | cons x tail =>
                cases hfeed
                exact ⟨tail, rfl⟩
          refine ⟨['\r', '\n'], splitlinesKeepends tail, rfl, by decide, ?_⟩
          rw [flatten_splitlinesKeepends]
          rfl
        · refine ⟨[c], splitlinesKeepends rest, splitlinesKeepends_boundary hc hmerges, ?_, ?_⟩
          · simpa using hc
          · rw [flatten_splitlinesKeepends]
            rfl
      refine ⟨c :: rest, lines.map (List.rdropWhile isLineBoundary), hsplit, ?_, ?_,
        Or.inr ⟨c, rfl, hc⟩⟩
      · rw [splitlines, hsplit, hsingle.splitlinesKeepends_prepend hpieces, List.map_cons]
        rw [rdropWhile_append_of_pos hstop, hsingle.rdropWhile_eq]
      · intro p hp
        obtain ⟨piece, hpiece, rfl⟩ := List.mem_map.1 hp
        rw [hflat]
        exact (List.rdropWhile_prefix _ _).sublist.trans
          ((List.sublist_flatten_of_mem hpiece).trans (List.sublist_append_right _ _))

theorem changedLine_eq_some {piece content : Str} :
    changedLine sign piece = some content ↔
      piece = sign :: content ∧ ¬ "+++".toList <+: piece ∧ ¬ "---".toList <+: piece := by
  unfold changedLine
  rw [← List.isPrefixOf_iff_prefix, ← List.isPrefixOf_iff_prefix]
  cases piece with
  | nil => simp
  | cons c rest =>
      by_cases hheader : "+++".toList.isPrefixOf (c :: rest) || "---".toList.isPrefixOf (c :: rest)
      · rw [if_pos hheader]
        rw [Bool.or_eq_true] at hheader
        simp only [reduceCtorEq, false_iff, not_and, not_not]
        exact fun _ hplus => hheader.resolve_left hplus
      · rw [if_neg hheader]
        rw [Bool.or_eq_true, not_or] at hheader
        simp only [List.head?_cons, Option.some.injEq, List.tail_cons, hheader.1, hheader.2,
          List.cons.injEq]
        split_ifs with hsign
        · simp [hsign]
        · simp [hsign]

theorem pieces_of_changed (hsign : isLineBoundary sign = false) (line : Str) :
    ∃ rest others, line = (line.takeWhile fun c => !isLineBoundary c) ++ rest ∧
      splitlines (sign :: line) = (sign :: line.takeWhile fun c => !isLineBoundary c) :: others ∧
      ∀ p ∈ others, p.Sublist rest := by
  obtain ⟨rest, others, hline, hpieces, hothers, -⟩ :=
    firstPiece_spec (sign :: line) (List.cons_ne_nil _ _)
  rw [List.takeWhile_cons_of_pos (by simp [hsign])] at hline hpieces
  exact ⟨rest, others, List.cons.inj hline |>.2, hpieces, hothers⟩

theorem double_prefix_firstPiece (hsign : isLineBoundary sign = false) :
    [sign, sign] <+: (line.takeWhile fun c => !isLineBoundary c) ↔ [sign, sign] <+: line := by
  constructor
  · exact fun h => h.trans (List.takeWhile_prefix _)
  · rintro ⟨rest, rfl⟩
    refine ⟨rest.takeWhile fun c => !isLineBoundary c, ?_⟩
    simp [hsign]

theorem removedSeen_iff : RemovedSeen line ↔ ¬ "--".toList <+: line := by
  obtain ⟨rest, others, -, hpieces, -⟩ := @pieces_of_changed '-' (by decide) line
  have hdouble : "--".toList <+: (line.takeWhile fun c => !isLineBoundary c) ↔
      "--".toList <+: line := double_prefix_firstPiece (by decide)
  rw [← hdouble]
  unfold RemovedSeen iterPatchLineChanges
  generalize (line.takeWhile fun c => !isLineBoundary c) = first at hpieces ⊢
  constructor
  · intro hseen hdouble
    obtain ⟨piece, -, hpiece⟩ := List.mem_filterMap.1 hseen
    obtain ⟨rfl, -, hheader⟩ := changedLine_eq_some.1 hpiece
    exact hheader (List.cons_prefix_cons.2 ⟨rfl, hdouble⟩)
  · intro hdouble
    refine List.mem_filterMap.2 ⟨'-' :: first, ?_, changedLine_eq_some.2 ⟨rfl, ?_, ?_⟩⟩
    · rw [hpieces]
      exact List.mem_cons_self
    · exact fun hheader => absurd (List.cons_prefix_cons.1 hheader).1 (by decide)
    · exact fun hheader => hdouble (List.cons_prefix_cons.1 hheader).2

/-! ### Spaces at the ends -/

def weight (s : Str) : Nat := s.countP fun c => !isSpace c

theorem weight_eq_zero {s : Str} : weight s = 0 ↔ ∀ c ∈ s, isSpace c = true := by
  rw [weight, List.countP_eq_zero]
  simp

theorem weight_append (s t : Str) : weight (s ++ t) = weight s + weight t := List.countP_append

theorem weight_lstrip (s : Str) : weight (lstrip s) = weight s := by
  have hspaces : weight (s.takeWhile isSpace) = 0 :=
    weight_eq_zero.2 fun c hc => List.mem_takeWhile_imp hc
  have hsplit : s.takeWhile isSpace ++ lstrip s = s := List.takeWhile_append_dropWhile
  conv_rhs => rw [← hsplit, weight_append, hspaces, Nat.zero_add]

theorem weight_rstrip (s : Str) : weight (rstrip s) = weight s := by
  have hreverse := weight_lstrip s.reverse
  unfold weight at hreverse ⊢
  rw [List.countP_reverse] at hreverse
  rw [rstrip, List.rdropWhile, List.countP_reverse]
  exact hreverse

theorem weight_strip (s : Str) : weight (strip s) = weight s := by
  rw [strip, weight_rstrip, weight_lstrip]

theorem strip_append_spaces (s : Str) {back : Str} (hback : ∀ c ∈ back, isSpace c = true) :
    strip (s ++ back) = strip s := by
  rw [strip, strip, lstrip, lstrip, List.dropWhile_append]
  split_ifs with hempty
  · rw [List.isEmpty_iff.1 hempty, List.dropWhile_eq_nil_iff.2 hback]
  · exact rdropWhile_append_of_pos hback

theorem exists_rstrip (s : Str) :
    ∃ back, s = rstrip s ++ back ∧ ∀ c ∈ back, isSpace c = true := by
  obtain ⟨back, hback⟩ : rstrip s <+: s := List.rdropWhile_prefix _ _
  refine ⟨back, hback.symm, weight_eq_zero.1 ?_⟩
  have hparts := congrArg weight hback
  rw [weight_append, weight_rstrip] at hparts
  omega

theorem isSpace_of_isLineBoundary {c : Char} (h : isLineBoundary c = true) : isSpace c = true := by
  unfold isLineBoundary at h
  unfold isSpace
  simp only [Bool.or_eq_true, Bool.and_eq_true, decide_eq_true_eq, beq_iff_eq] at h ⊢
  omega

theorem singleLine_rstrip_of_prefix {first rest : Str} (hfirst : SingleLine first)
    (hrest : ∀ c ∈ rest, isSpace c = true) : SingleLine (rstrip (first ++ rest)) := by
  rw [rstrip, rdropWhile_append_of_pos hrest]
  intro c hc
  exact hfirst c ((List.rdropWhile_prefix _ _).subset hc)

theorem insertedSeen_iff : InsertedSeen line ↔
    ¬ "++".toList <+: line ∧ SingleLine (rstrip line) := by
  obtain ⟨rest, others, hline, hpieces, hothers⟩ :=
    @pieces_of_changed '+' (by decide) line
  have hdouble : "++".toList <+: (line.takeWhile fun c => !isLineBoundary c) ↔
      "++".toList <+: line := double_prefix_firstPiece (by decide)
  have hfirst : SingleLine (line.takeWhile fun c => !isLineBoundary c) := by
    intro c hc
    simpa using List.mem_takeWhile_imp hc
  rw [← hdouble]
  unfold InsertedSeen iterPatchLineChanges
  rw [hpieces]
  constructor
  · intro hseen
    obtain ⟨content, hcontent, hsame⟩ := List.mem_map.1 hseen
    obtain ⟨piece, hpiece, hchanged⟩ := List.mem_filterMap.1 hcontent
    obtain ⟨rfl, hheader, -⟩ := changedLine_eq_some.1 hchanged
    have hweight : weight content = weight line := by
      rw [← weight_strip content, hsame, weight_strip]
    have hparts := congrArg weight hline
    rw [weight_append] at hparts
    obtain hpiece | hpiece := List.mem_cons.1 hpiece
    · rw [(List.cons.inj hpiece).2] at hheader hweight
      refine ⟨fun h => hheader (List.cons_prefix_cons.2 ⟨rfl, h⟩), ?_⟩
      rw [hline]
      apply singleLine_rstrip_of_prefix hfirst
      apply weight_eq_zero.1
      omega
    · have hless : weight ('+' :: content) ≤ weight rest := (hothers _ hpiece).countP_le
      have hcons : weight ('+' :: content) = weight content + 1 :=
        List.countP_cons_of_pos (by decide)
      omega
  · rintro ⟨hnot, hsingle⟩
    refine List.mem_map.2 ⟨line.takeWhile fun c => !isLineBoundary c, ?_, ?_⟩
    · refine List.mem_filterMap.2 ⟨_, List.mem_cons_self, changedLine_eq_some.2 ⟨rfl, ?_, ?_⟩⟩
      · exact fun hheader => hnot (List.cons_prefix_cons.1 hheader).2
      · exact fun hheader => absurd (List.cons_prefix_cons.1 hheader).1 (by decide)
    · obtain ⟨back, hsplit, hback⟩ := exists_rstrip line
      have htake : (line.takeWhile fun c => !isLineBoundary c) =
          rstrip line ++ back.takeWhile fun c => !isLineBoundary c := by
        conv_lhs => rw [hsplit]
        rw [List.takeWhile_append_of_pos]
        intro c hc
        simp [hsingle c hc]
      rw [htake, strip_append_spaces _ fun c hc => hback c ((List.takeWhile_prefix _).subset hc)]
      conv_rhs => rw [hsplit]
      exact (strip_append_spaces _ hback).symm

end

/-! ### The whole diff -/

namespace UnifiedDiff

variable {old new : List Str} (d : UnifiedDiff old new)

theorem changed_text (sign : Char) :
    (splitlines d.text).filterMap (changedLine sign) =
      d.lines.flatMap fun line => (splitlines line).filterMap (changedLine sign) := by
  have hblank : (splitlines []).filterMap (changedLine sign) = [] := rfl
  rw [text, filterMap_splitlines_unlines rfl, List.flatMap_append, List.flatMap_singleton, hblank,
    List.append_nil]

theorem shown_mem_lines {change : Change} (h : change ∈ d.changes) : change.shown ∈ d.lines := by
  obtain ⟨hunk, hhunk, hchange⟩ := List.mem_flatMap.1 h
  refine List.mem_append_right _ (List.mem_flatMap.2 ⟨hunk, hhunk, ?_⟩)
  exact List.mem_cons_of_mem _ (List.mem_map_of_mem hchange)

theorem mem_removed {line : Str} : line ∈ d.removed ↔ Change.remove line ∈ d.changes := by
  rw [removed, List.mem_filterMap]
  constructor
  · rintro ⟨change, hchange, hline⟩
    cases change with
    | remove line =>
        cases hline
        exact hchange
    | keep => cases hline
    | insert => cases hline
    | noNewline => cases hline
  · exact fun h => ⟨_, h, rfl⟩

theorem mem_inserted {line : Str} : line ∈ d.inserted ↔ Change.insert line ∈ d.changes := by
  rw [inserted, List.mem_filterMap]
  constructor
  · rintro ⟨change, hchange, hline⟩
    cases change with
    | insert line =>
        cases hline
        exact hchange
    | keep => cases hline
    | remove => cases hline
    | noNewline => cases hline
  · exact fun h => ⟨_, h, rfl⟩

theorem sublist_flatMap {α : Type} {l : List α} {f g : α → List Str}
    (h : ∀ x ∈ l, (f x).Sublist (g x)) : (l.flatMap f).Sublist (l.flatMap g) := by
  induction l with
  | nil => exact List.Sublist.refl _
  | cons x rest ih =>
      obtain ⟨hx, hrest⟩ := List.forall_mem_cons.1 h
      exact hx.append (ih hrest)

theorem sublist_of_removed (h : d.removed = []) : old.Sublist new := by
  have hkept : ∀ change ∈ d.changes, change.old.toList.Sublist change.new.toList := by
    intro change hchange
    cases change with
    | keep line => exact List.Sublist.refl _
    | remove line =>
        have hline := d.mem_removed.2 hchange
        rw [h] at hline
        cases hline
    | insert line => exact List.nil_sublist _
    | noNewline => exact List.Sublist.refl _
  have hchanges : ∀ changes : List Change,
      (∀ change ∈ changes, change.old.toList.Sublist change.new.toList) →
        (changes.filterMap Change.old).Sublist (changes.filterMap Change.new) := by
    intro changes hall
    rw [List.filterMap_eq_flatMap_toList, List.filterMap_eq_flatMap_toList]
    exact sublist_flatMap hall
  have hlists := (sublist_flatMap fun hunk hhunk => List.Sublist.append_left
    (hchanges hunk.changes fun change hchange => hkept change
      (List.mem_flatMap.2 ⟨hunk, hhunk, hchange⟩)) hunk.before).append_right d.behind
  rwa [← d.old_eq, ← d.new_eq] at hlists

end UnifiedDiff

theorem isInstrumentationOnlyPatch_spec {instrumentation : Str → Bool} {patch : Str}
    (h : isInstrumentationOnlyPatch instrumentation patch = true) :
    (iterPatchLineChanges patch).2 = [] ∧ ∀ content ∈ (iterPatchLineChanges patch).1.map strip,
      content ≠ [] → instrumentation content = true := by
  unfold isInstrumentationOnlyPatch at h
  dsimp only at h
  split_ifs at h with hblank hremoved hcontent
  refine ⟨not_not.1 hremoved, fun content hmem hne => ?_⟩
  exact List.all_eq_true.1 h content (List.mem_filter.2 ⟨hmem, by simpa using hne⟩)

/-- The classifier is conservative on a diff exactly when no removed line begins with two minus signs
and no inserted one that is not blank begins with two plus signs or has a separator before its end. -/
theorem conservative_iff (instrumentation : Str → Bool) {old new : List Str}
    (d : UnifiedDiff old new) :
    Conservative instrumentation d ↔ (∀ line ∈ d.removed, ¬ "--".toList <+: line) ∧
      ∀ line ∈ d.inserted, strip line ≠ [] →
        ¬ "++".toList <+: line ∧ SingleLine (rstrip line) := by
  constructor
  · intro h
    exact ⟨fun line hline => removedSeen_iff.1 (h.removedSeen line hline),
      fun line hline hblank => insertedSeen_iff.1 (h.insertedSeen line hline hblank)⟩
  · rintro ⟨hremoved, hinserted⟩
    refine ⟨fun honly => ?_, fun line hline => removedSeen_iff.2 (hremoved line hline),
      fun line hline hblank => insertedSeen_iff.2 (hinserted line hline hblank)⟩
    obtain ⟨hnone, hall⟩ := isInstrumentationOnlyPatch_spec honly
    have hnothing : d.removed = [] := by
      refine List.eq_nil_iff_forall_not_mem.2 fun line hline => ?_
      have hseen := removedSeen_iff.2 (hremoved line hline)
      have hshown := d.shown_mem_lines (d.mem_removed.1 hline)
      rw [iterPatchLineChanges, d.changed_text '-'] at hnone
      have hempty : (iterPatchLineChanges ('-' :: line)).2 = [] :=
        List.flatMap_eq_nil_iff.1 hnone _ hshown
      rw [RemovedSeen, hempty] at hseen
      cases hseen
    refine ⟨d.sublist_of_removed hnothing, hnothing, fun line hline hblank => ?_⟩
    obtain ⟨content, hcontent, hsame⟩ :=
      List.mem_map.1 (insertedSeen_iff.2 (hinserted line hline hblank))
    have hshown := d.shown_mem_lines (d.mem_inserted.1 hline)
    refine hall _ (List.mem_map.2 ⟨content, ?_, hsame⟩) hblank
    rw [iterPatchLineChanges, d.changed_text '+']
    exact List.mem_flatMap.2 ⟨_, hshown, hcontent⟩

/-- A statement is inserted that begins with two plus signs, before a call of `printf`. -/
def countedUp : UnifiedDiff ["int n;".toList] ["int n;".toList, "++n;".toList, "printf(".toList] where
  headers := ["--- a/n.c".toList, "+++ b/n.c".toList]
  hunks := [⟨[], "@@ -1 +1,3 @@".toList,
    [.keep "int n;".toList, .insert "++n;".toList, .insert "printf(".toList]⟩]
  behind := []
  old_eq := rfl
  new_eq := rfl
  noFeed := by decide

/-- The line reads as a header of the file, and the patch as instrumentation only. -/
theorem not_conservative_countedUp :
    isInstrumentationOnlyPatch ("printf(".toList).isPrefixOf countedUp.text = true ∧
      ¬ Conservative ("printf(".toList).isPrefixOf countedUp := by
  have honly : isInstrumentationOnlyPatch ("printf(".toList).isPrefixOf countedUp.text = true := by
    decide +kernel
  refine ⟨honly, fun h => ?_⟩
  exact absurd ((h.onlyInserts honly).2.2 "++n;".toList (by decide) (by decide)) (by decide)

end OpenStarry.Patch
