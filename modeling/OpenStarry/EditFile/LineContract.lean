import OpenStarry.EditFile.LineEdits

/-!
# Which lines an edit by line numbers replaces

The lines of the edited text ought to be the lines of the original with each range replaced by the
lines of its replacement. The code puts the lines back next to each other, so this is the case as
long as none of them runs into the next one.
-/

namespace OpenStarry.EditFile

open Lib Lib.Text
open scoped List

/-! ### What the edits mean -/

/-- Lines of the original, counted from one, and the text that is to stand in their place. -/
structure Region where
  start : Nat
  stop : Nat
  text : Str
  deriving DecidableEq, Repr

namespace Region

def item (r : Region) : LineEditItem := .object ⟨.int r.start, .int r.stop, .str r.text⟩

def InBounds (lineCount : Nat) (r : Region) : Prop :=
  1 ≤ r.start ∧ r.start ≤ r.stop ∧ r.stop ≤ lineCount

instance (lineCount : Nat) (r : Region) : Decidable (r.InBounds lineCount) :=
  inferInstanceAs (Decidable (_ ∧ _))

def Disjoint (a b : Region) : Prop := a.stop < b.start ∨ b.stop < a.start

instance (a b : Region) : Decidable (a.Disjoint b) := inferInstanceAs (Decidable (_ ∨ _))

def span (lines : Str → List Str) (r : Region) : Span Str Unit :=
  ⟨r.start - 1, r.stop, lines r.text, ()⟩

def lines (original : Str) (r : Region) : List Str :=
  ((splitlines original).take r.stop).drop (r.start - 1)

end Region

/-- The edits are regions in bounds that do not meet. -/
structure Accepted (original : Str) (edits : LineEditsArgument) (regions : List Region) : Prop where
  items : edits = .array (regions.map Region.item)
  ne_nil : regions ≠ []
  inBounds : ∀ r ∈ regions, r.InBounds (splitlines original).length
  disjoint : regions.Pairwise Region.Disjoint

def inOrder (spans : List (Span Str Unit)) : List (Span Str Unit) :=
  spans.insertionSort fun a b => a.start ≤ b.start

def replacedLines (original : Str) (regions : List Region) : List Str :=
  Span.splice (splitlines original) 0 (inOrder (regions.map (Region.span splitlines)))

def ReadBack (original : Str) (regions : List Region) : Prop :=
  ∀ r ∈ regions, ∀ revision path receipt,
    buildLineReceipt revision original r.start (some r.stop) path = .ok receipt →
      r.text = unlines (receipt.lines.map Prod.snd)

/-- What edits by line numbers promise. -/
structure LineEditsContract (original : Str) (edits : LineEditsArgument) : Prop where
  accepts : (∃ updated, applyLineEdits original edits = .ok updated) ↔
    ∃ regions, Accepted original edits regions
  replaces : ∀ regions updated, Accepted original edits regions →
    applyLineEdits original edits = .ok updated →
      splitlines updated = replacedLines original regions
  readBack : ∀ regions updated, Accepted original edits regions →
    applyLineEdits original edits = .ok updated → ReadBack original regions →
      splitlines updated = splitlines original

def replacedPieces (original : Str) (regions : List Region) : List Str :=
  Span.splice (splitlinesKeepends original) 0
    (inOrder (regions.map (Region.span splitlinesKeepends)))

def KeepsApart (original : Str) (edits : LineEditsArgument) : Prop :=
  ∀ regions, Accepted original edits regions →
    Apart (replacedPieces original regions) ∧
      (ReadBack original regions → ∀ r ∈ regions, (r.lines original).getLast? ≠ some [])

/-! ### Normalised edits -/

namespace Region

def normalized (r : Region) : NormalizedEdit := ⟨r.start, r.stop, splitlinesKeepends r.text⟩

end Region

theorem lineCount_eq (text : Str) : lineCount text = (splitlines text).length := by
  rw [lineCount]
  split_ifs with hempty
  · rw [hempty]
    rfl
  · rfl

theorem validateLineRange_eq_ok {startLine endLine : FieldValue} {count : Nat} {range : Nat × Nat} :
    validateLineRange startLine endLine count = .ok range ↔
      startLine = .int range.1 ∧ endLine = .int range.2 ∧
        1 ≤ range.1 ∧ range.1 ≤ range.2 ∧ range.2 ≤ count := by
  obtain ⟨start, stop⟩ := range
  unfold validateLineRange
  split
  · rename_i s e
    rw [FieldValue.int.injEq, FieldValue.int.injEq]
    split_ifs with hpositive hreversed hbeyond
    · exact iff_of_false (by simp) (by omega)
    · exact iff_of_false (by simp) (by omega)
    · exact iff_of_false (by simp) (by omega)
    · rw [Except.ok.injEq, Prod.mk.injEq]
      omega
  · rename_i hne
    apply iff_of_false (by simp)
    rintro ⟨rfl, rfl, -⟩
    exact hne _ _ rfl rfl

theorem normalizedEdit_eq_ok {count index : Nat} {item : LineEditItem} {edit : NormalizedEdit} :
    normalizedEdit count index item = .ok edit ↔
      ∃ r : Region, item = r.item ∧ r.InBounds count ∧ edit = r.normalized := by
  constructor
  · intro h
    cases item with
    | other => exact absurd h (by simp [normalizedEdit])
    | object e =>
        obtain ⟨startLine, endLine, replacement⟩ := e
        obtain ⟨range, hrange, hrest⟩ := bind_eq_ok.mp h
        obtain ⟨hstart, hstop, hbounds⟩ := validateLineRange_eq_ok.mp hrange
        obtain ⟨lines, hlines, hwhole⟩ := bind_eq_ok.mp hrest
        cases replacement with
        | str s =>
            refine ⟨⟨range.1, range.2, s⟩, ?_, hbounds, ?_⟩
            · dsimp only at hstart hstop
              rw [hstart, hstop, Region.item]
            · obtain rfl : splitlinesKeepends s = lines := Except.ok.inj hlines
              exact (pure_eq_ok.mp hwhole).symm
        | int _ | bool _ | other => exact absurd hlines (by simp [replacementLines])
  · rintro ⟨r, rfl, hbounds, rfl⟩
    have hrange : validateLineRange (.int r.start) (.int r.stop) count = .ok (r.start, r.stop) :=
      validateLineRange_eq_ok.mpr ⟨rfl, rfl, hbounds⟩
    rw [Region.item, normalizedEdit, hrange]
    rfl

theorem mapM_normalizedEdit {count : Nat} {items : List LineEditItem} {index : Nat}
    {edits : List NormalizedEdit} :
    ((items.zipIdx index).mapM fun p => normalizedEdit count p.2 p.1) = .ok edits ↔
      ∃ regions : List Region, items = regions.map Region.item ∧
        (∀ r ∈ regions, r.InBounds count) ∧ edits = regions.map Region.normalized := by
  induction items generalizing index edits with
  | nil =>
      rw [List.zipIdx_nil, List.mapM_nil, pure_eq_ok]
      constructor
      · rintro rfl
        exact ⟨[], rfl, fun r hr => absurd hr List.not_mem_nil, rfl⟩
      · rintro ⟨regions, hitems, -, rfl⟩
        rw [List.map_eq_nil_iff.mp hitems.symm]
        rfl
  | cons item rest ih =>
      rw [List.zipIdx_cons, List.mapM_cons]
      constructor
      · intro h
        obtain ⟨edit, hedit, htail⟩ := bind_eq_ok.mp h
        obtain ⟨others, hothers, hwhole⟩ := bind_eq_ok.mp htail
        obtain ⟨r, rfl, hr, hnormalized⟩ := normalizedEdit_eq_ok.mp hedit
        obtain ⟨regions, hitems, hbounds, hrest⟩ := ih.mp hothers
        refine ⟨r :: regions, ?_, List.forall_mem_cons.mpr ⟨hr, hbounds⟩, ?_⟩
        · rw [hitems, List.map_cons]
        · rw [← pure_eq_ok.mp hwhole, hnormalized, hrest, List.map_cons]
      · rintro ⟨regions, hitems, hbounds, rfl⟩
        cases regions with
        | nil => exact absurd hitems (List.cons_ne_nil _ _)
        | cons r regions =>
            obtain ⟨hr, hbounds⟩ := List.forall_mem_cons.mp hbounds
            rw [List.map_cons, List.cons.injEq] at hitems
            have hedit := (@normalizedEdit_eq_ok count index item _).mpr ⟨r, hitems.1, hr, rfl⟩
            have hothers := (@ih (index + 1) _).mpr ⟨regions, hitems.2, hbounds, rfl⟩
            rw [hedit, ok_bind, hothers]
            rfl

/-! ### Order and overlap -/

namespace NormalizedEdit

def span (e : NormalizedEdit) : Span Str Unit := ⟨e.start - 1, e.stop, e.replacement, ()⟩

def InBounds (count : Nat) (e : NormalizedEdit) : Prop :=
  1 ≤ e.start ∧ e.start ≤ e.stop ∧ e.stop ≤ count

end NormalizedEdit

theorem checkEditsOverlap_eq_ok {count previous : Nat} {edits : List NormalizedEdit}
    (hbounds : ∀ e ∈ edits, e.InBounds count) (hprevious : previous ≤ count) :
    checkEditsOverlap previous edits = .ok () ↔
      Span.Laid count previous (edits.map NormalizedEdit.span) := by
  induction edits generalizing previous with
  | nil => exact iff_of_true rfl hprevious
  | cons e rest ih =>
      obtain ⟨⟨hstart, hspan, hstop⟩, hrest⟩ := List.forall_mem_cons.mp hbounds
      rw [checkEditsOverlap, List.map_cons, Span.Laid, NormalizedEdit.span]
      dsimp only
      split_ifs with hoverlap
      · exact iff_of_false (by simp) (by omega)
      · rw [ih hrest hstop]
        constructor
        · exact fun h => ⟨by omega, by omega, h⟩
        · exact fun h => h.2.2

section

variable {original : Str} {edits : LineEditsArgument} {regions : List Region}

theorem length_splitlinesKeepends (text : Str) :
    (splitlinesKeepends text).length = (splitlines text).length := by
  rw [splitlines, List.length_map]

theorem inOrder_perm (spans : List (Span Str Unit)) : (inOrder spans).Perm spans :=
  List.perm_insertionSort _ spans

theorem inOrder_sorted (spans : List (Span Str Unit)) :
    (inOrder spans).Pairwise fun a b => a.start ≤ b.start := by
  have : Std.Total fun a b : Span Str Unit => a.start ≤ b.start := ⟨fun a b => Nat.le_total _ _⟩
  have : IsTrans (Span Str Unit) fun a b => a.start ≤ b.start := ⟨fun a b c => Nat.le_trans⟩
  exact List.pairwise_insertionSort _ spans

theorem span_bounds {lines : Str → List Str} {count : Nat}
    (hbounds : ∀ r ∈ regions, r.InBounds count) :
    ∀ s ∈ inOrder (regions.map (Region.span lines)), s.start < s.stop ∧ s.stop ≤ count := by
  intro s hs
  obtain ⟨r, hr, rfl⟩ := List.mem_map.mp ((inOrder_perm _).mem_iff.mp hs)
  obtain ⟨hstart, hspan, hstop⟩ := hbounds r hr
  rw [Region.span]
  dsimp only
  omega

theorem pairwise_span_iff {lines : Str → List Str} {count : Nat}
    (hbounds : ∀ r ∈ regions, r.InBounds count) :
    (inOrder (regions.map (Region.span lines))).Pairwise Span.Disjoint ↔
      regions.Pairwise Region.Disjoint := by
  rw [(inOrder_perm _).pairwise_iff Span.Disjoint.symm, List.pairwise_map]
  apply List.Pairwise.iff_of_mem
  intro a b ha hb
  have hstarta := (hbounds a ha).1
  have hstartb := (hbounds b hb).1
  rw [Span.Disjoint, Region.span, Region.span, Region.Disjoint]
  dsimp only
  omega

theorem laid_iff {lines : Str → List Str} {count : Nat}
    (hbounds : ∀ r ∈ regions, r.InBounds count) :
    Span.Laid count 0 (inOrder (regions.map (Region.span lines))) ↔
      regions.Pairwise Region.Disjoint := by
  rw [← pairwise_span_iff hbounds]
  constructor
  · intro h
    exact h.pairwise.imp fun hab => Or.inl hab
  · exact Span.laid_of_disjoint (inOrder_sorted _) (fun s _ => Nat.zero_le _) (Nat.zero_le _)
      (span_bounds hbounds)

theorem map_span_normalized (regions : List Region) :
    (regions.map Region.normalized).map NormalizedEdit.span =
      regions.map (Region.span splitlinesKeepends) := by
  rw [List.map_map]
  rfl

theorem map_span_sortEdits {count : Nat} (hbounds : ∀ r ∈ regions, r.InBounds count) :
    (sortEdits (regions.map Region.normalized)).map NormalizedEdit.span =
      inOrder (regions.map (Region.span splitlinesKeepends)) := by
  rw [sortEdits, inOrder, ← map_span_normalized]
  apply List.map_insertionSort
  intro a ha b hb
  obtain ⟨r, hr, rfl⟩ := List.mem_map.mp ha
  obtain ⟨r', hr', rfl⟩ := List.mem_map.mp hb
  have hstart := (hbounds r hr).1
  have hstart' := (hbounds r' hr').1
  rw [NormalizedEdit.span, NormalizedEdit.span, Region.normalized, Region.normalized]
  dsimp only
  omega

theorem checkEditsOverlap_sortEdits {count : Nat} (hbounds : ∀ r ∈ regions, r.InBounds count) :
    checkEditsOverlap 0 (sortEdits (regions.map Region.normalized)) = .ok () ↔
      regions.Pairwise Region.Disjoint := by
  have hedits : ∀ e ∈ sortEdits (regions.map Region.normalized), e.InBounds count := by
    intro e he
    obtain ⟨r, hr, rfl⟩ := List.mem_map.mp ((List.perm_insertionSort _ _).mem_iff.mp he)
    exact hbounds r hr
  rw [checkEditsOverlap_eq_ok hedits (Nat.zero_le _), map_span_sortEdits hbounds, laid_iff hbounds]

theorem normalizedEdits_eq_ok {normalized : List NormalizedEdit} :
    normalizedEdits original edits = .ok normalized ↔
      ∃ regions, Accepted original edits regions ∧ normalized = regions.map Region.normalized := by
  cases edits with
  | other =>
      apply iff_of_false (by simp [normalizedEdits])
      rintro ⟨regions, haccepted, -⟩
      exact absurd haccepted.items (by simp)
  | array items =>
      rw [normalizedEdits, lineCount_eq]
      constructor
      · intro h
        obtain ⟨_, hne, hrest⟩ := bind_eq_ok.mp h
        obtain ⟨edits, hedits, htail⟩ := bind_eq_ok.mp hrest
        obtain ⟨_, hoverlap, hwhole⟩ := bind_eq_ok.mp htail
        obtain ⟨regions, hitems, hbounds, rfl⟩ := mapM_normalizedEdit.mp hedits
        refine ⟨regions, ⟨by rw [hitems], ?_, hbounds, ?_⟩, (pure_eq_ok.mp hwhole).symm⟩
        · rintro rfl
          exact require_eq_ok.mp hne hitems
        · exact (checkEditsOverlap_sortEdits hbounds).mp hoverlap
      · rintro ⟨regions, haccepted, rfl⟩
        obtain rfl := LineEditsArgument.array.inj haccepted.items
        have hne : regions.map Region.item ≠ [] := by simpa using haccepted.ne_nil
        have hedits := (@mapM_normalizedEdit _ _ 0 _).mpr ⟨regions, rfl, haccepted.inBounds, rfl⟩
        have hoverlap := (checkEditsOverlap_sortEdits haccepted.inBounds).mpr haccepted.disjoint
        rw [require_of hne, ok_bind, hedits, ok_bind, hoverlap, ok_bind]
        rfl

/-! ### What is written -/

theorem Accepted.laid (haccepted : Accepted original edits regions) {lines : Str → List Str} :
    Span.Laid (splitlines original).length 0 (inOrder (regions.map (Region.span lines))) :=
  (laid_iff haccepted.inBounds).mpr haccepted.disjoint

theorem sortEditsReverse_sorted (edits : List NormalizedEdit) :
    (sortEditsReverse edits).Pairwise fun a b => b.start ≤ a.start := by
  have : Std.Total fun a b : NormalizedEdit => b.start ≤ a.start := ⟨fun a b => Nat.le_total _ _⟩
  have : IsTrans NormalizedEdit fun a b => b.start ≤ a.start :=
    ⟨fun a b c hab hbc => Nat.le_trans hbc hab⟩
  exact List.pairwise_insertionSort _ edits

theorem map_span_sortEditsReverse (haccepted : Accepted original edits regions) :
    (sortEditsReverse (regions.map Region.normalized)).map NormalizedEdit.span =
      (inOrder (regions.map (Region.span splitlinesKeepends))).reverse := by
  have hsame : (sortEditsReverse (regions.map Region.normalized)).map NormalizedEdit.span ~
      regions.map (Region.span splitlinesKeepends) := by
    rw [← map_span_normalized]
    exact (List.perm_insertionSort _ _).map _
  have hperm : ((sortEditsReverse (regions.map Region.normalized)).map
      NormalizedEdit.span).reverse ~ inOrder (regions.map (Region.span splitlinesKeepends)) :=
    (List.reverse_perm _).trans (hsame.trans (inOrder_perm _).symm)
  have hbounds : ∀ s ∈ ((sortEditsReverse (regions.map Region.normalized)).map
      NormalizedEdit.span).reverse, s.start < s.stop ∧ s.stop ≤ (splitlines original).length :=
    fun s hs => span_bounds haccepted.inBounds s (hperm.mem_iff.mp hs)
  have hsorted : ((sortEditsReverse (regions.map Region.normalized)).map
      NormalizedEdit.span).reverse.Pairwise fun a b => a.start ≤ b.start := by
    rw [List.pairwise_reverse, List.pairwise_map]
    apply (sortEditsReverse_sorted _).imp
    intro a b hab
    exact Nat.sub_le_sub_right hab 1
  have hdisjoint : ((sortEditsReverse (regions.map Region.normalized)).map
      NormalizedEdit.span).reverse.Pairwise Span.Disjoint := by
    rw [hperm.pairwise_iff Span.Disjoint.symm, pairwise_span_iff haccepted.inBounds]
    exact haccepted.disjoint
  have hlaid := Span.laid_of_disjoint hsorted (fun s _ => Nat.zero_le _) (Nat.zero_le _) hbounds
    hdisjoint
  have hlaid' := @Accepted.laid _ _ _ haccepted splitlinesKeepends
  rw [← List.reverse_eq_iff]
  exact Span.eq_of_perm hperm (fun s hs => (hbounds s hs).1) hlaid.pairwise hlaid'.pairwise

theorem applyLineEdits_eq_ok (haccepted : Accepted original edits regions) :
    applyLineEdits original edits = .ok (replacedPieces original regions).flatten := by
  have hnormalized := normalizedEdits_eq_ok.mpr ⟨regions, haccepted, rfl⟩
  have hlaid := @Accepted.laid _ _ _ haccepted splitlinesKeepends
  rw [← length_splitlinesKeepends] at hlaid
  have hreplaced := Span.foldl_replace_reverse hlaid
  rw [← map_span_sortEditsReverse haccepted, List.foldl_map, List.take_zero,
    List.nil_append] at hreplaced
  have hedited : (sortEditsReverse (regions.map Region.normalized)).foldl replaceLines
      (splitlinesKeepends original) = replacedPieces original regions := hreplaced
  rw [applyLineEdits, hnormalized, Except.map, hedited]

theorem exists_updated_iff (original : Str) (edits : LineEditsArgument) :
    (∃ updated, applyLineEdits original edits = .ok updated) ↔
      ∃ regions, Accepted original edits regions := by
  constructor
  · rintro ⟨updated, h⟩
    obtain ⟨normalized, hnormalized, -⟩ := map_eq_ok.mp h
    obtain ⟨regions, haccepted, -⟩ := normalizedEdits_eq_ok.mp hnormalized
    exact ⟨regions, haccepted⟩
  · rintro ⟨regions, haccepted⟩
    exact ⟨_, applyLineEdits_eq_ok haccepted⟩

/-! ### The lines of what is written -/

theorem isPiece_replacedPieces (original : Str) (regions : List Region) :
    ∀ p ∈ replacedPieces original regions, IsPiece p := by
  apply Span.forall_mem_splice (isPiece_of_mem_splitlinesKeepends original)
  intro s hs
  obtain ⟨r, -, rfl⟩ := List.mem_map.mp ((inOrder_perm _).mem_iff.mp hs)
  exact isPiece_of_mem_splitlinesKeepends r.text

theorem map_replacedPieces (original : Str) (regions : List Region) :
    (replacedPieces original regions).map (List.rdropWhile isLineBoundary) =
      replacedLines original regions := by
  have hspans : (inOrder (regions.map (Region.span splitlinesKeepends))).map
      (Span.map (List.rdropWhile isLineBoundary)) = inOrder (regions.map (Region.span splitlines)) := by
    have hmap : (regions.map (Region.span splitlinesKeepends)).map
        (Span.map (List.rdropWhile isLineBoundary)) = regions.map (Region.span splitlines) := by
      rw [List.map_map]
      rfl
    rw [inOrder, inOrder, ← hmap]
    apply List.map_insertionSort
    intro a _ b _
    exact Iff.rfl
  rw [replacedPieces, Span.map_splice, hspans]
  rfl

theorem splitlines_updated_iff (original : Str) (regions : List Region) :
    splitlines (replacedPieces original regions).flatten = replacedLines original regions ↔
      Apart (replacedPieces original regions) := by
  rw [← map_replacedPieces]
  exact splitlines_flatten_iff (isPiece_replacedPieces original regions)

/-! ### Writing back what was read -/

theorem Region.length_lines {r : Region} (hbounds : r.InBounds (splitlines original).length) :
    (r.lines original).length = r.stop - (r.start - 1) := by
  obtain ⟨-, -, hstop⟩ := hbounds
  rw [Region.lines, List.length_drop, List.length_take, min_eq_left hstop]

theorem Region.singleLine_lines (r : Region) : ∀ line ∈ r.lines original, SingleLine line := by
  intro line hline
  apply singleLine_of_mem_splitlines
  exact List.mem_of_mem_take (List.mem_of_mem_drop hline)

theorem buildLineReceipt_lines {r : Region} (hbounds : r.InBounds (splitlines original).length)
    (revision path : Str) :
    ∃ receipt, buildLineReceipt revision original r.start (some r.stop) path = .ok receipt ∧
      receipt.lines.map Prod.snd = r.lines original := by
  have hrange : validateLineRange (.int r.start) (.int r.stop) (splitlines original).length =
      .ok (r.start, r.stop) := validateLineRange_eq_ok.mpr ⟨rfl, rfl, hbounds⟩
  refine ⟨⟨path, revision, (r.start, r.stop), (splitlines original).length,
    (((splitlines original).zipIdx.take r.stop).drop (r.start - 1)).map
      fun p => (p.2 + 1, p.1)⟩, ?_, ?_⟩
  · rw [buildLineReceipt, Option.getD_some, hrange]
    rfl
  · have htexts : (Prod.snd ∘ fun p : Str × Nat => (p.2 + 1, p.1)) = Prod.fst := rfl
    rw [List.map_map, htexts, List.map_drop, List.map_take, List.zipIdx_map_fst, Region.lines]

theorem readBack_iff (haccepted : Accepted original edits regions) :
    ReadBack original regions ↔ ∀ r ∈ regions, r.text = unlines (r.lines original) := by
  constructor
  · intro h r hr
    obtain ⟨receipt, hreceipt, hlines⟩ := buildLineReceipt_lines (haccepted.inBounds r hr) [] []
    rw [← hlines]
    exact h r hr [] [] receipt hreceipt
  · intro h r hr revision path receipt hreceipt
    obtain ⟨receipt', hreceipt', hlines⟩ :=
      buildLineReceipt_lines (haccepted.inBounds r hr) revision path
    obtain rfl := Except.ok.inj (hreceipt.symm.trans hreceipt')
    rw [hlines]
    exact h r hr

theorem Region.splitlines_unlines {r : Region} (hbounds : r.InBounds (splitlines original).length) :
    ((r.lines original).getLast? ≠ some [] →
        splitlines (unlines (r.lines original)) = r.lines original) ∧
      ((r.lines original).getLast? = some [] →
        (splitlines (unlines (r.lines original))).length + 1 = (r.lines original).length) := by
  have hne : r.lines original ≠ [] := by
    rw [← List.length_pos_iff, Region.length_lines hbounds]
    have hspan := hbounds.2.1
    have hstart := hbounds.1
    omega
  have hsingle := @Region.singleLine_lines original r
  obtain ⟨front, last, hsplit⟩ : ∃ front last, r.lines original = front ++ [last] :=
    ⟨_, _, (List.dropLast_append_getLast hne).symm⟩
  rw [hsplit, List.forall_mem_append, List.forall_mem_singleton] at hsingle
  rw [hsplit, List.getLast?_concat]
  constructor
  · intro hlast
    apply Text.splitlines_unlines hsingle.1 hsingle.2
    rintro rfl
    exact hlast rfl
  · intro hlast
    obtain rfl := Option.some_inj.mp hlast
    rw [length_splitlines_unlines_concat_nil hsingle.1, List.length_append, List.length_singleton]

theorem replacedLines_readBack (haccepted : Accepted original edits regions)
    (hread : ∀ r ∈ regions, r.text = unlines (r.lines original)) :
    replacedLines original regions = splitlines original ↔
      ∀ r ∈ regions, (r.lines original).getLast? ≠ some [] := by
  have hlaid := @Accepted.laid _ _ _ haccepted splitlines
  have hspan : ∀ s ∈ inOrder (regions.map (Region.span splitlines)), ∃ r ∈ regions,
      s = r.span splitlines := by
    intro s hs
    obtain ⟨r, hr, rfl⟩ := List.mem_map.mp ((inOrder_perm _).mem_iff.mp hs)
    exact ⟨r, hr, rfl⟩
  constructor
  · intro hsame r hr hlast
    have hfew : ∀ s ∈ inOrder (regions.map (Region.span splitlines)),
        s.new.length ≤ s.stop - s.start := by
      intro s hs
      obtain ⟨r', hr', rfl⟩ := hspan s hs
      have hbounds := haccepted.inBounds r' hr'
      obtain ⟨hkept, hlost⟩ := Region.splitlines_unlines hbounds
      rw [Region.span, hread r' hr']
      dsimp only
      rw [← Region.length_lines hbounds]
      by_cases hempty : (r'.lines original).getLast? = some []
      · have := hlost hempty
        omega
      · rw [hkept hempty]
    have hlength := congrArg List.length hsame
    have hmem : r.span splitlines ∈ inOrder (regions.map (Region.span splitlines)) :=
      (inOrder_perm _).mem_iff.mpr (List.mem_map_of_mem hr)
    have hexact := (Span.length_splice_le hlaid hfew).2 hlength _ hmem
    have hbounds := haccepted.inBounds r hr
    have hlost := (Region.splitlines_unlines hbounds).2 hlast
    rw [Region.span, hread r hr] at hexact
    dsimp only at hexact
    rw [← Region.length_lines hbounds] at hexact
    omega
  · intro hlast
    apply Span.splice_self hlaid
    intro s hs
    obtain ⟨r, hr, rfl⟩ := hspan s hs
    rw [Region.span, hread r hr]
    exact (Region.splitlines_unlines (haccepted.inBounds r hr)).1 (hlast r hr)

/-- The edits do what they promise just when no two lines run together. -/
theorem line_edits_replace_ranges (original : Str) (edits : LineEditsArgument) :
    LineEditsContract original edits ↔ KeepsApart original edits := by
  constructor
  · intro hcontract regions haccepted
    have hupdated := applyLineEdits_eq_ok haccepted
    have hreplaced := hcontract.replaces regions _ haccepted hupdated
    refine ⟨(splitlines_updated_iff original regions).mp hreplaced, ?_⟩
    intro hread
    have hsame := hcontract.readBack regions _ haccepted hupdated hread
    rw [hreplaced] at hsame
    exact (replacedLines_readBack haccepted ((readBack_iff haccepted).mp hread)).mp hsame
  · intro hkeeps
    have hreplaces : ∀ regions updated, Accepted original edits regions →
        applyLineEdits original edits = .ok updated →
          splitlines updated = replacedLines original regions := by
      intro regions updated haccepted hupdated
      rw [applyLineEdits_eq_ok haccepted] at hupdated
      rw [← Except.ok.inj hupdated]
      exact (splitlines_updated_iff original regions).mpr (hkeeps regions haccepted).1
    refine ⟨exists_updated_iff original edits, hreplaces, ?_⟩
    intro regions updated haccepted hupdated hread
    rw [hreplaces regions updated haccepted hupdated,
      replacedLines_readBack haccepted ((readBack_iff haccepted).mp hread)]
    exact (hkeeps regions haccepted).2 hread

end

/-- A replacement without a line end takes up the line behind it. -/
theorem open_replacement_glues :
    ¬ LineEditsContract "a\nb\n".toList (.array [.object ⟨.int 1, .int 1, .str "x".toList⟩]) := by
  intro hcontract
  have haccepted : Accepted "a\nb\n".toList (.array [.object ⟨.int 1, .int 1, .str "x".toList⟩])
      [⟨1, 1, "x".toList⟩] :=
    ⟨rfl, List.cons_ne_nil _ _, by decide, List.pairwise_singleton _ _⟩
  have hlines := hcontract.replaces _ _ haccepted (applyLineEdits_eq_ok haccepted)
  exact absurd hlines (by decide)

example : applyLineEdits "a\nb\n".toList (.array [.object ⟨.int 1, .int 1, .str "x".toList⟩]) =
    .ok "xb\n".toList := by decide

end OpenStarry.EditFile
