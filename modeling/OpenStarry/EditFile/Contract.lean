import OpenStarry.EditFile.Replacements

/-!
# When an edit may be applied

An old text is to stand at exactly one position, whether or not its occurrences overlap, and the
edits of one call are to touch disjoint pieces of the text. The code counts occurrences from the
left and goes on behind each match, so an old text that occurs again within its own first match is
counted once and the first match is edited.
-/

namespace OpenStarry.EditFile

open Lib Lib.Text

def OccursOnce (original : Str) (r : EditReplacement) : Prop := ∃! i, OccursAt r.oldText original i

def DisjointIn (original : Str) (a b : EditReplacement) : Prop :=
  ∀ i j, OccursAt a.oldText original i → OccursAt b.oldText original j →
    i + a.oldText.length ≤ j ∨ j + b.oldText.length ≤ i

def Editable (original : Str) (reps : List EditReplacement) : Prop :=
  (∀ r ∈ reps, OccursOnce original r) ∧ reps.Pairwise (DisjointIn original)

def Spliced (original result : Str) (reps : List EditReplacement) : Prop :=
  ∃ (gaps : List (Str × EditReplacement)) (tail : Str), (gaps.map Prod.snd).Perm reps ∧
    original = gaps.flatMap (fun gap => gap.1 ++ gap.2.oldText) ++ tail ∧
    result = gaps.flatMap (fun gap => gap.1 ++ gap.2.newText) ++ tail

/-- What is asked of an edit of a text that shows every old text. -/
structure EditContract (recover : Str → EditReplacement → Option (Nat × Nat × Str))
    (hint : Str → Str → Str) (call : EditCall) (original : Str)
    (reps : List EditReplacement) : Prop where
  succeeds_iff :
    (∃ result, applyEditReplacements recover hint call.path original reps = .ok result) ↔
      Editable original reps
  spliced : ∀ result, applyEditReplacements recover hint call.path original reps = .ok result →
    Spliced original result reps
  order : ∀ reps', reps'.Perm reps →
    ∀ result, applyEditReplacements recover hint call.path original reps = .ok result →
      applyEditReplacements recover hint call.path original reps' = .ok result
  untouched : ¬ Editable original reps → ∀ fs : FileSystem,
    fs.readText call.resolved = .ok original →
      ∃ error, editFile recover hint call fs = (fs, .error error)
  written : ∀ result, applyEditReplacements recover hint call.path original reps = .ok result →
    ∀ fs : FileSystem, fs.readText call.resolved = .ok original →
      ∃ fs' message, editFile recover hint call fs = (fs', .ok message) ∧
        fs'.node = Function.update fs.node call.resolved (some (.file (.text result)))

def FoundDisjoint (original : Str) (a b : EditReplacement) : Prop :=
  ∀ i j, find a.oldText original = some i → find b.oldText original = some j →
    i + a.oldText.length ≤ j ∨ j + b.oldText.length ≤ i

def PassesTests (original : Str) (reps : List EditReplacement) : Prop :=
  (∀ r ∈ reps, count r.oldText original = 1) ∧ reps.Pairwise (FoundDisjoint original)

/-! ### Normalised replacements -/

theorem checkReplacement_ok {r : EditReplacement} (h : checkReplacement r = .ok ()) :
    r.oldText ≠ [] ∧ r.oldText ≠ r.newText := by
  unfold checkReplacement at h
  split_ifs at h with hempty hsame
  exact ⟨hempty, hsame⟩

theorem normalizeEditReplacements_ok {path : Str} {oldText newText : Option Str}
    {edits : Option EditsArgument} {reps : List EditReplacement}
    (h : normalizeEditReplacements path oldText newText edits = .ok reps) :
    reps ≠ [] ∧ ∀ r ∈ reps, r.oldText ≠ [] ∧ r.oldText ≠ r.newText := by
  unfold normalizeEditReplacements at h
  obtain ⟨listed, -, h⟩ := bind_eq_ok.mp h
  obtain ⟨single, -, h⟩ := bind_eq_ok.mp h
  by_cases hempty : listed ++ single = []
  · rw [if_pos hempty] at h
    exact absurd h throw_ne_ok
  · rw [if_neg hempty] at h
    obtain ⟨⟨⟩, hchecks, h⟩ := bind_eq_ok.mp h
    obtain rfl := pure_eq_ok.mp h
    exact ⟨hempty, fun r hr => checkReplacement_ok (forM_eq_ok.mp hchecks r hr)⟩

/-! ### The spans -/

section

variable {recover : Str → EditReplacement → Option (Nat × Nat × Str)} {hint : Str → Str → Str}
  {path original : Str} {r : EditReplacement} {reps : List EditReplacement}

def foundSpan (original : Str) (r : EditReplacement) : Span Char EditReplacement :=
  let start := (find r.oldText original).getD 0
  ⟨start, start + r.oldText.length, r.newText, r⟩

theorem exists_find (hne : r.oldText ≠ []) (hoccurs : ∃ i, OccursAt r.oldText original i) :
    ∃ i, find r.oldText original = some i := by
  obtain ⟨i, hi⟩ := hoccurs
  cases hfind : find r.oldText original with
  | some i => exact ⟨i, rfl⟩
  | none => exact absurd hi ((find_eq_none_iff hne).mp hfind i)

theorem replacementSpan_ok_iff (hne : r.oldText ≠ [])
    (hoccurs : ∃ i, OccursAt r.oldText original i) {span : Span Char EditReplacement} :
    replacementSpan recover hint path original r = .ok span ↔
      count r.oldText original = 1 ∧ span = foundSpan original r := by
  obtain ⟨start, hstart⟩ := exists_find hne hoccurs
  have hcount : count r.oldText original ≠ 0 := by
    rw [count_of_find hne hstart]
    exact Nat.succ_ne_zero _
  unfold replacementSpan
  simp only [if_neg hcount, hstart]
  split_ifs with hmany
  · exact iff_of_false id fun h => absurd h.1 (by omega)
  · rw [pure_eq_ok, foundSpan, hstart, Option.getD_some, eq_comm]
    exact ⟨fun h => ⟨by omega, h⟩, fun h => h.2⟩

theorem foundSpan_bounds (hne : r.oldText ≠ []) (hoccurs : ∃ i, OccursAt r.oldText original i) :
    (foundSpan original r).start < (foundSpan original r).stop ∧
      (foundSpan original r).stop ≤ original.length := by
  obtain ⟨start, hstart⟩ := exists_find hne hoccurs
  have hat := ((find_eq_some_iff hne).mp hstart).1
  have hpos := List.length_pos_iff.mpr hne
  rw [foundSpan, hstart, Option.getD_some]
  exact ⟨Nat.lt_add_of_pos_right hpos, hat.add_length_le hne⟩

theorem foundSpan_piece (hne : r.oldText ≠ []) (hoccurs : ∃ i, OccursAt r.oldText original i) :
    (foundSpan original r).piece original = r.oldText := by
  obtain ⟨start, hstart⟩ := exists_find hne hoccurs
  have hat := ((find_eq_some_iff hne).mp hstart).1
  rw [foundSpan, hstart, Option.getD_some, Span.piece, List.drop_take, Nat.add_sub_cancel_left,
    hat.drop_eq, List.take_left]

theorem foundSpan_disjoint_iff {a b : EditReplacement} (ha : a.oldText ≠ []) (hb : b.oldText ≠ [])
    (hoccursa : ∃ i, OccursAt a.oldText original i)
    (hoccursb : ∃ i, OccursAt b.oldText original i) :
    (foundSpan original a).Disjoint (foundSpan original b) ↔ FoundDisjoint original a b := by
  obtain ⟨i, hi⟩ := exists_find ha hoccursa
  obtain ⟨j, hj⟩ := exists_find hb hoccursb
  simp [foundSpan, Span.Disjoint, FoundDisjoint, hi, hj]

/-! ### Sorting and checking -/

theorem sortSpans_perm (spans : List (Span Char EditReplacement)) : (sortSpans spans).Perm spans :=
  List.perm_insertionSort _ spans

theorem sortSpans_sorted (spans : List (Span Char EditReplacement)) :
    (sortSpans spans).Pairwise fun a b => a.start ≤ b.start := by
  have : Std.Total fun a b : Span Char EditReplacement => a.start ≤ b.start :=
    ⟨fun a b => Nat.le_total _ _⟩
  have : IsTrans (Span Char EditReplacement) fun a b => a.start ≤ b.start :=
    ⟨fun a b c => Nat.le_trans⟩
  exact List.pairwise_insertionSort _ spans

theorem checkOverlaps_ok_iff {length cursor : Nat} {spans : List (Span Char EditReplacement)}
    (hspan : ∀ s ∈ spans, s.start < s.stop ∧ s.stop ≤ length) (hcursor : cursor ≤ length) :
    checkOverlaps path cursor spans = .ok () ↔ Span.Laid length cursor spans := by
  induction spans generalizing cursor with
  | nil => exact iff_of_true rfl hcursor
  | cons s rest ih =>
      obtain ⟨hne, hstop⟩ := hspan s List.mem_cons_self
      rw [checkOverlaps, Span.Laid]
      split_ifs with hlt
      · exact iff_of_false id fun h => absurd h.1 (by omega)
      · rw [ih (fun t ht => hspan t (List.mem_cons_of_mem s ht)) hstop]
        exact ⟨fun h => ⟨by omega, hne.le, h⟩, fun h => h.2.2⟩

theorem checkOverlaps_neg_one (path : Str) (spans : List (Span Char EditReplacement)) :
    checkOverlaps path (-1) spans = checkOverlaps path (0 : Nat) spans := by
  cases spans with
  | nil => rfl
  | cons s rest => rw [checkOverlaps, checkOverlaps, if_neg (by omega), if_neg (by omega)]

theorem checkOverlaps_sortSpans {spans : List (Span Char EditReplacement)}
    (hspan : ∀ s ∈ spans, s.start < s.stop ∧ s.stop ≤ original.length) :
    checkOverlaps path (-1) (sortSpans spans) = .ok () ↔ spans.Pairwise Span.Disjoint := by
  have hperm := sortSpans_perm spans
  have hspan' : ∀ s ∈ sortSpans spans, s.start < s.stop ∧ s.stop ≤ original.length :=
    fun s hs => hspan s (hperm.mem_iff.mp hs)
  rw [checkOverlaps_neg_one path, checkOverlaps_ok_iff hspan' (Nat.zero_le _),
    ← hperm.pairwise_iff Span.Disjoint.symm]
  constructor
  · exact fun h => h.pairwise.imp fun hab => .inl hab
  · exact Span.laid_of_disjoint (sortSpans_sorted spans) (fun s _ => Nat.zero_le _)
      (Nat.zero_le _) hspan'

/-! ### The outcome of the whole edit -/

def Shown (original : Str) (reps : List EditReplacement) : Prop :=
  ∀ r ∈ reps, r.oldText ≠ [] ∧ ∃ i, OccursAt r.oldText original i

theorem Shown.perm {reps' : List EditReplacement} (h : Shown original reps)
    (hperm : reps'.Perm reps) : Shown original reps' :=
  fun r hr => h r (hperm.mem_iff.mp hr)

theorem Shown.bounds (h : Shown original reps) :
    ∀ s ∈ reps.map (foundSpan original), s.start < s.stop ∧ s.stop ≤ original.length := by
  rintro s hs
  obtain ⟨r, hr, rfl⟩ := List.mem_map.mp hs
  exact foundSpan_bounds (h r hr).1 (h r hr).2

theorem Shown.pairwise_iff (h : Shown original reps) :
    (reps.map (foundSpan original)).Pairwise Span.Disjoint ↔
      reps.Pairwise (FoundDisjoint original) := by
  rw [List.pairwise_map]
  refine List.Pairwise.iff_of_mem fun {a b} ha hb => ?_
  exact foundSpan_disjoint_iff (h a ha).1 (h b hb).1 (h a ha).2 (h b hb).2

theorem applyEditReplacements_ok_iff (h : Shown original reps) {result : Str} :
    applyEditReplacements recover hint path original reps = .ok result ↔
      PassesTests original reps ∧
        result = Span.splice original 0 (sortSpans (reps.map (foundSpan original))) := by
  unfold applyEditReplacements
  rw [bind_eq_ok]
  simp only [mapM_eq_ok fun r hr _ => replacementSpan_ok_iff (h r hr).1 (h r hr).2, bind_eq_ok,
    pure_eq_ok]
  constructor
  · rintro ⟨_, ⟨hcount, rfl⟩, ⟨⟩, hcheck, rfl⟩
    exact ⟨⟨hcount, h.pairwise_iff.mp ((checkOverlaps_sortSpans h.bounds).mp hcheck)⟩, rfl⟩
  · rintro ⟨⟨hcount, hdisjoint⟩, rfl⟩
    exact ⟨_, ⟨hcount, rfl⟩, (),
      (checkOverlaps_sortSpans h.bounds).mpr (h.pairwise_iff.mpr hdisjoint), rfl⟩

theorem spliced_foundSpans (h : Shown original reps) (htests : PassesTests original reps) :
    Spliced original (Span.splice original 0 (sortSpans (reps.map (foundSpan original)))) reps := by
  have hperm := sortSpans_perm (reps.map (foundSpan original))
  have hlaid : Span.Laid original.length 0 (sortSpans (reps.map (foundSpan original))) := by
    refine Span.laid_of_disjoint (sortSpans_sorted _) (fun s _ => Nat.zero_le _) (Nat.zero_le _)
      (fun s hs => h.bounds s (hperm.mem_iff.mp hs)) ?_
    exact (hperm.pairwise_iff Span.Disjoint.symm).mpr (h.pairwise_iff.mpr htests.2)
  obtain ⟨gaps, tail, hgaps, hold, hnew⟩ := Span.splice_pieces hlaid
  have hsource : ∀ gap ∈ gaps, gap.2.piece original = gap.2.source.oldText ∧
      gap.2.new = gap.2.source.newText := by
    intro gap hgap
    have hmem : gap.2 ∈ reps.map (foundSpan original) :=
      hperm.mem_iff.mp (hgaps ▸ List.mem_map_of_mem hgap)
    obtain ⟨r, hr, heq⟩ := List.mem_map.mp hmem
    rw [← heq]
    exact ⟨foundSpan_piece (h r hr).1 (h r hr).2, rfl⟩
  refine ⟨gaps.map fun gap => (gap.1, gap.2.source), tail, ?_, ?_, ?_⟩
  · have hsources : (reps.map (foundSpan original)).map Span.source = reps := by
      rw [List.map_map]
      exact List.map_id reps
    rw [List.map_map, ← hsources]
    refine (List.Perm.of_eq ?_).trans (hperm.map Span.source)
    rw [← hgaps, List.map_map]
    rfl
  · rw [List.flatMap_map, ← List.drop_zero (l := original), hold]
    exact congrArg (· ++ tail)
      (List.flatMap_congr fun gap hgap => by rw [(hsource gap hgap).1])
  · rw [List.flatMap_map, hnew]
    exact congrArg (· ++ tail)
      (List.flatMap_congr fun gap hgap => by rw [(hsource gap hgap).2])

theorem PassesTests.perm {reps' : List EditReplacement} (h : PassesTests original reps)
    (hperm : reps'.Perm reps) : PassesTests original reps' := by
  refine ⟨fun r hr => h.1 r (hperm.mem_iff.mp hr), (hperm.pairwise_iff ?_).mpr h.2⟩
  exact fun hab i j hi hj => (hab j i hj hi).symm

theorem sortSpans_foundSpans_perm {reps' : List EditReplacement} (h : Shown original reps)
    (htests : PassesTests original reps) (hperm : reps'.Perm reps) :
    sortSpans (reps'.map (foundSpan original)) = sortSpans (reps.map (foundSpan original)) := by
  have hlaid : ∀ reps : List EditReplacement, Shown original reps → PassesTests original reps →
      (sortSpans (reps.map (foundSpan original))).Pairwise fun a b => a.stop ≤ b.start := by
    intro reps h htests
    have hsorted := sortSpans_perm (reps.map (foundSpan original))
    exact Span.Laid.pairwise ((checkOverlaps_ok_iff
      (fun s hs => h.bounds s (hsorted.mem_iff.mp hs)) (Nat.zero_le _)).mp
        ((checkOverlaps_neg_one [] _).symm.trans
          ((checkOverlaps_sortSpans h.bounds).mpr (h.pairwise_iff.mpr htests.2))))
  have h' := h.perm hperm
  have hsorted := sortSpans_perm (reps'.map (foundSpan original))
  refine Span.eq_of_perm ?_ (fun s hs => (h'.bounds s (hsorted.mem_iff.mp hs)).1)
    (hlaid reps' h' (htests.perm hperm)) (hlaid reps h htests)
  exact hsorted.trans ((hperm.map _).trans (sortSpans_perm _).symm)

/-! ### Editable texts -/

theorem count_of_occursOnce (hne : r.oldText ≠ []) (h : OccursOnce original r) :
    count r.oldText original = 1 := by
  obtain ⟨i, hi, hunique⟩ := h
  have hfind : find r.oldText original = some i :=
    (find_eq_some_iff hne).mpr ⟨hi, fun j hj hat => absurd (hunique j hat) hj.ne⟩
  refine (count_eq_one_iff hne).mpr ⟨i, hfind, fun j hj => ?_⟩
  rw [hunique j hj]
  exact Nat.lt_add_of_pos_right (List.length_pos_iff.mpr hne)

theorem Editable.passesTests (h : Shown original reps) (heditable : Editable original reps) :
    PassesTests original reps := by
  refine ⟨fun r hr => count_of_occursOnce (h r hr).1 (heditable.1 r hr),
    heditable.2.imp_of_mem fun {a b} ha hb hab i j hi hj => ?_⟩
  exact hab i j ((find_eq_some_iff (h a ha).1).mp hi).1 ((find_eq_some_iff (h b hb).1).mp hj).1

theorem PassesTests.editable (h : Shown original reps) (htests : PassesTests original reps)
    (honce : ∀ r ∈ reps, OccursOnce original r) : Editable original reps := by
  have hfind : ∀ r ∈ reps, ∀ i, OccursAt r.oldText original i →
      find r.oldText original = some i := by
    intro r hr i hi
    obtain ⟨k, hk⟩ := exists_find (h r hr).1 (h r hr).2
    have hat := ((find_eq_some_iff (h r hr).1).mp hk).1
    rw [hk, (honce r hr).unique hat hi]
  refine ⟨honce, htests.2.imp_of_mem fun {a b} ha hb hab i j hi hj => ?_⟩
  exact hab i j (hfind a ha i hi) (hfind b hb j hj)

end

/-! ### The edit of a file -/

section

variable {recover : Str → EditReplacement → Option (Nat × Nat × Str)} {hint : Str → Str → Str}
  {call : EditCall} {original : Str} {reps : List EditReplacement} {fs : FileSystem}

theorem exists_of_readText {path : AbsPath} {text : Str} (h : fs.readText path = .ok text) :
    fs.Exists path = true := by
  obtain ⟨⟨stored, hnode⟩, -⟩ := FileSystem.node_of_readText h
  rw [FileSystem.Exists, hnode, Option.isSome_some]

theorem editFile_error {error : EditError}
    (hnormal : normalizeEditReplacements call.path call.oldText call.newText call.edits = .ok reps)
    (hread : fs.readText call.resolved = .ok original)
    (h : applyEditReplacements recover hint call.path original reps = .error error) :
    editFile recover hint call fs = (fs, .error error) := by
  simp only [editFile, hnormal, exists_of_readText hread, hread, h, Bool.not_true,
    Bool.false_eq_true, if_false]

theorem editFile_ok {result : Str}
    (hnormal : normalizeEditReplacements call.path call.oldText call.newText call.edits = .ok reps)
    (hread : fs.readText call.resolved = .ok original)
    (h : applyEditReplacements recover hint call.path original reps = .ok result) :
    ∃ fs', editFile recover hint call fs =
        (fs', .ok (editedMessage call.shown call.scopeSuffix reps)) ∧
      fs'.node = Function.update fs.node call.resolved (some (.file (.text result))) := by
  obtain ⟨⟨stored, hnode⟩, -⟩ := FileSystem.node_of_readText hread
  have hparent : fs.node call.resolved.parent = some .dir := by
    refine fs.parent_dir _ (fun hroot => ?_) (by rw [hnode, Option.isSome_some])
    rw [hroot, fs.root] at hnode
    simp at hnode
  obtain ⟨fs', hfs', hupdate⟩ := FileSystem.writeText_ok (by simp [hnode]) hparent result
  refine ⟨fs', ?_, hupdate⟩
  simp only [editFile, hnormal, exists_of_readText hread, hread, h, hfs', Bool.not_true,
    Bool.false_eq_true, if_false]

/-- The edit keeps its contract exactly when no list that passes the tests holds an old text with a
second occurrence. -/
theorem editContract_iff
    (hnormal : normalizeEditReplacements call.path call.oldText call.newText call.edits = .ok reps)
    (hoccurs : ∀ r ∈ reps, ∃ i, OccursAt r.oldText original i) :
    EditContract recover hint call original reps ↔
      (PassesTests original reps → ∀ r ∈ reps, OccursOnce original r) := by
  have h : Shown original reps := fun r hr =>
    ⟨((normalizeEditReplacements_ok hnormal).2 r hr).1, hoccurs r hr⟩
  constructor
  · intro hcontract htests
    exact (hcontract.succeeds_iff.mp
      ⟨_, (applyEditReplacements_ok_iff h).mpr ⟨htests, rfl⟩⟩).1
  · intro honce
    have hsucceeds : (∃ result,
        applyEditReplacements recover hint call.path original reps = .ok result) ↔
          Editable original reps := by
      constructor
      · rintro ⟨result, hresult⟩
        have htests := ((applyEditReplacements_ok_iff h).mp hresult).1
        exact htests.editable h (honce htests)
      · exact fun heditable =>
          ⟨_, (applyEditReplacements_ok_iff h).mpr ⟨heditable.passesTests h, rfl⟩⟩
    refine ⟨hsucceeds, fun result hresult => ?_, fun reps' hperm result hresult => ?_,
      fun hnot fs hread => ?_, fun result hresult fs hread => ?_⟩
    · obtain ⟨htests, rfl⟩ := (applyEditReplacements_ok_iff h).mp hresult
      exact spliced_foundSpans h htests
    · obtain ⟨htests, rfl⟩ := (applyEditReplacements_ok_iff h).mp hresult
      refine (applyEditReplacements_ok_iff (h.perm hperm)).mpr ⟨htests.perm hperm, ?_⟩
      rw [sortSpans_foundSpans_perm h htests hperm]
    · cases hresult : applyEditReplacements recover hint call.path original reps with
      | ok result => exact absurd (hsucceeds.mp ⟨result, hresult⟩) hnot
      | error error => exact ⟨error, editFile_error hnormal hread hresult⟩
    · obtain ⟨fs', hedited, hupdate⟩ := editFile_ok hnormal hread hresult
      exact ⟨fs', _, hedited, hupdate⟩

def fileCall (oldText newText : String) : EditCall :=
  { path := "f".toList, resolved := ["f"], shown := "/f".toList, scopeSuffix := []
    oldText := some oldText.toList, newText := some newText.toList, edits := none }

/-- In "aab" the text "aa" stands once. -/
theorem editContract_aab : EditContract (fun _ _ => none) (fun _ _ => []) (fileCall "aa" "b")
    "aab".toList [⟨"aa".toList, "b".toList, "old_text".toList⟩] :=
  (editContract_iff rfl (by simp only [List.forall_mem_singleton]; exact ⟨0, by decide⟩)).mpr
    fun _ => by
      simp only [List.forall_mem_singleton]
      refine ⟨0, by decide, fun i hi => ?_⟩
      have hle := OccursAt.add_length_le hi (by decide)
      rcases Nat.le_one_iff_eq_zero_or_eq_one.mp (Nat.le_of_add_le_add_right hle) with rfl | rfl
      · rfl
      · exact absurd hi (by decide)

/-- In "aaa" the text "aa" stands twice, and its first occurrence is edited. -/
theorem overlapping_occurrence_edited :
    ¬ EditContract (fun _ _ => none) (fun _ _ => []) (fileCall "aa" "b") "aaa".toList
      [⟨"aa".toList, "b".toList, "old_text".toList⟩] := by
  intro hcontract
  have hresult : applyEditReplacements (fun _ _ => none) (fun _ _ => [])
      (fileCall "aa" "b").path "aaa".toList [⟨"aa".toList, "b".toList, "old_text".toList⟩] =
        .ok "ba".toList := by decide
  have honce := (hcontract.succeeds_iff.mp ⟨_, hresult⟩).1 _ List.mem_cons_self
  have hfirst : OccursAt "aa".toList "aaa".toList 0 := by decide
  have hsecond : OccursAt "aa".toList "aaa".toList 1 := by decide
  exact absurd (honce.unique hfirst hsecond) (by decide)

end

end OpenStarry.EditFile
