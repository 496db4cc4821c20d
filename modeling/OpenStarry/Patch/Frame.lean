import OpenStarry.Patch.Refinement

/-!
# The lines that no hunk names

An update reads the file with universal newlines and writes what it has read. A line that no hunk
names is unchanged when the splices leave it where it is and its own end is no carriage return; a
carriage return is never written back.
-/

namespace OpenStarry.Patch

open Lib Lib.Text

/-! ### Naming lines -/

/-- A hunk names the lines it lists, as context or as deleted, from its start line on; `i` counts
from zero. -/
def Hunk.Names (hunk : Hunk) (i : Nat) : Prop :=
  hunk.oldStart ≤ i + 1 ∧ i + 1 < hunk.oldStart + hunk.walked

instance (hunk : Hunk) (i : Nat) : Decidable (hunk.Names i) := inferInstanceAs (Decidable (_ ∧ _))

def unnamed (hunks : List Hunk) (length : Nat) : List Nat :=
  (List.range length).filter fun i => ∀ hunk ∈ hunks, ¬ hunk.Names i

def unnamedLines (hunks : List Hunk) (lines : List Str) : List Str :=
  (unnamed hunks lines.length).filterMap (lines[·]?)

def KeepsUnnamed (hunks : List Hunk) (before after : Str) : Prop :=
  (unnamedLines hunks (splitlinesKeepends before)).Sublist (splitlinesKeepends after)

instance (hunks : List Hunk) (before after : Str) : Decidable (KeepsUnnamed hunks before after) :=
  inferInstanceAs (Decidable (List.Sublist _ _))

/-! ### Splices on numbered lines -/

section Shape

variable {α β : Type}

def rebuildFrom (fresh : Str → α) (items : List α) : Int → List Str → List α
  | _, [] => []
  | pos, [] :: raws => rebuildFrom fresh items pos raws
  | pos, (mark :: content) :: raws =>
      if mark = ' ' then (item? items pos).toList ++ rebuildFrom fresh items (pos + 1) raws
      else if mark = '-' then rebuildFrom fresh items (pos + 1) raws
      else if mark = '+' then fresh content :: rebuildFrom fresh items pos raws
      else rebuildFrom fresh items pos raws

def Hunk.overlay (fresh : Str → α) (items : List α) (hunk : Hunk) : List α :=
  sliceTo items hunk.pos ++ rebuildFrom fresh items hunk.pos hunk.lines ++
    sliceFrom items (hunk.pos + hunk.oldCount)

theorem item?_map (f : α → β) (items : List α) (i : Int) :
    item? (items.map f) i = (item? items i).map f := by
  unfold item?
  rw [List.length_map]
  split_ifs
  · rfl
  · rw [List.getElem?_map]

theorem map_rebuildFrom (f : α → β) (fresh : Str → α) (items : List α) (pos : Int)
    (raws : List Str) :
    (rebuildFrom fresh items pos raws).map f = rebuildFrom (f ∘ fresh) (items.map f) pos raws := by
  fun_induction rebuildFrom fresh items pos raws with
  | case1 => rfl
  | case2 pos raws ih => rw [rebuildFrom, ih]
  | case3 pos content raws ih =>
      rw [rebuildFrom, if_pos rfl, List.map_append, ih, item?_map]
      cases item? items pos <;> rfl
  | case4 pos content raws _ ih => rw [rebuildFrom, if_neg (by decide), if_pos rfl, ih]
  | case5 pos content raws _ _ ih =>
      rw [rebuildFrom, if_neg (by decide), if_neg (by decide), if_pos rfl, List.map_cons, ih]
      rfl
  | case6 pos mark content raws hspace hminus hplus ih =>
      rw [rebuildFrom, if_neg hspace, if_neg hminus, if_neg hplus, ih]

theorem Hunk.map_overlay (f : α → β) (fresh : Str → α) (items : List α) (hunk : Hunk) :
    (hunk.overlay fresh items).map f = hunk.overlay (f ∘ fresh) (items.map f) := by
  unfold Hunk.overlay sliceTo sliceFrom
  rw [List.map_append, List.map_append, map_rebuildFrom, List.map_take, List.map_drop,
    List.length_map]

theorem map_overlays (f : α → β) (fresh : Str → α) (hunks : List Hunk) (items : List α) :
    (hunks.foldl (Hunk.overlay fresh) items).map f =
      hunks.foldl (Hunk.overlay (f ∘ fresh)) (items.map f) := by
  induction hunks generalizing items with
  | nil => rfl
  | cons hunk hunks ih =>
      rw [List.foldl_cons, ih, hunk.map_overlay]
      rfl

theorem forall_mem_rebuildFrom {p : α → Prop} {fresh : Str → α} {items : List α} {pos : Int}
    {raws : List Str} (hitems : ∀ item ∈ items, p item)
    (hfresh : ∀ content ∈ markedWith '+' raws, p (fresh content)) :
    ∀ item ∈ rebuildFrom fresh items pos raws, p item := by
  fun_induction rebuildFrom fresh items pos raws with
  | case1 => exact fun _ h => nomatch h
  | case2 pos raws ih => exact ih hfresh
  | case3 pos content raws ih =>
      rw [markedWith_cons_ne (by decide)] at hfresh
      intro item hitem
      obtain hitem | hitem := List.mem_append.mp hitem
      · exact hitems item (mem_of_item? (Option.mem_toList.mp hitem))
      · exact ih hfresh item hitem
  | case4 pos content raws _ ih =>
      rw [markedWith_cons_ne (by decide)] at hfresh
      exact ih hfresh
  | case5 pos content raws _ _ ih =>
      rw [markedWith_cons_self] at hfresh
      intro item hitem
      obtain rfl | hitem := List.mem_cons.mp hitem
      · exact hfresh content List.mem_cons_self
      · exact ih (fun other hother => hfresh other (List.mem_cons_of_mem _ hother)) item hitem
  | case6 pos mark content raws _ _ hplus ih =>
      rw [markedWith_cons_ne hplus] at hfresh
      exact ih hfresh

theorem forall_mem_overlays {p : α → Prop} {fresh : Str → α} {hunks : List Hunk} {items : List α}
    (hitems : ∀ item ∈ items, p item)
    (hfresh : ∀ hunk ∈ hunks, ∀ content ∈ markedWith '+' hunk.lines, p (fresh content)) :
    ∀ item ∈ hunks.foldl (Hunk.overlay fresh) items, p item := by
  induction hunks generalizing items with
  | nil => exact hitems
  | cons hunk hunks ih =>
      apply ih _ fun other hother => hfresh other (List.mem_cons_of_mem _ hother)
      intro item hitem
      obtain hitem | hitem := List.mem_append.mp hitem
      · obtain hitem | hitem := List.mem_append.mp hitem
        · exact hitems item (List.mem_of_mem_take hitem)
        · exact forall_mem_rebuildFrom hitems (hfresh hunk List.mem_cons_self) item hitem
      · exact hitems item (List.mem_of_mem_drop hitem)

end Shape

theorem newLines_eq_rebuildFrom {lines new : List Str} {start : Int} {raws : List Str}
    (h : newLines lines start raws = .ok new) : new = rebuildFrom addedText lines start raws := by
  fun_induction rebuildFrom addedText lines start raws generalizing new with
  | case1 => exact (Except.ok.inj h).symm
  | case2 pos raws ih => exact ih h
  | case3 pos content raws ih =>
      rw [newLines, if_pos rfl] at h
      cases hitem : item? lines pos with
      | none =>
          rw [hitem] at h
          cases h
      | some line =>
          rw [hitem] at h
          obtain ⟨rest, hrest, rfl⟩ := map_eq_ok.mp h
          rw [ih hrest]
          rfl
  | case4 pos content raws _ ih =>
      rw [newLines, if_neg (by decide), if_pos rfl] at h
      exact ih h
  | case5 pos content raws _ _ ih =>
      rw [newLines, if_neg (by decide), if_neg (by decide), if_pos rfl] at h
      obtain ⟨rest, hrest, rfl⟩ := map_eq_ok.mp h
      rw [ih hrest]
  | case6 pos mark content raws hspace hminus hplus ih =>
      rw [newLines, if_neg hspace, if_neg hminus, if_neg hplus] at h
      exact ih h

theorem applyHunks_eq_overlays {lines lines' : List Str} {hunks : List Hunk}
    (h : applyHunks lines hunks = .ok lines') :
    lines' = hunks.foldl (Hunk.overlay addedText) lines := by
  induction hunks generalizing lines with
  | nil => exact (Except.ok.inj h).symm
  | cons hunk hunks ih =>
      obtain ⟨middle, hmiddle, hrest⟩ := applyHunks_cons h
      obtain ⟨-, new, hnew, rfl⟩ := applyHunk_ok hmiddle
      rw [ih hrest, newLines_eq_rebuildFrom hnew]
      rfl

/-! ### Lines that survive being joined -/

/-- The items whose line stands alone once all lines are joined: a line without an end runs into
the line after it. `joined` says that the line before runs into this one. -/
def intact {α : Type} (isOpen : α → Bool) : Bool → List α → List α
  | _, [] => []
  | joined, item :: rest =>
      let runsOn := isOpen item && !rest.isEmpty
      if joined || runsOn then intact isOpen runsOn rest else item :: intact isOpen runsOn rest

theorem map_intact {α β : Type} (f : α → β) (isOpen : β → Bool) (joined : Bool) (items : List α) :
    (intact (isOpen ∘ f) joined items).map f = intact isOpen joined (items.map f) := by
  induction items generalizing joined with
  | nil => rfl
  | cons item rest ih =>
      unfold intact
      simp only [List.map_cons, Function.comp_apply, List.isEmpty_map]
      split_ifs
      · exact ih _
      · rw [List.map_cons, ih]

theorem intact_congr {α : Type} {isOpen isOpen' : α → Bool} {items : List α}
    (h : ∀ item ∈ items, isOpen item = isOpen' item) (joined : Bool) :
    intact isOpen joined items = intact isOpen' joined items := by
  induction items generalizing joined with
  | nil => rfl
  | cons item rest ih =>
      have hrest := ih fun other hother => h other (List.mem_cons_of_mem _ hother)
      unfold intact
      simp only [h item List.mem_cons_self, hrest]

theorem intact_subset {α : Type} {isOpen : α → Bool} {joined : Bool} {items : List α} :
    intact isOpen joined items ⊆ items := by
  induction items generalizing joined with
  | nil => exact fun _ h => h
  | cons item rest ih =>
      unfold intact
      dsimp only
      split_ifs
      · exact List.subset_cons_of_subset _ ih
      · exact List.cons_subset_cons _ ih

theorem intact_sublist {lines : List Str} (hlines : ∀ line ∈ lines, IsLine line) {head : Str}
    (hhead : SingleLine head) :
    (intact (fun line => !isTerminated line) (!head.isEmpty) lines).Sublist
      (splitlinesKeepends (head ++ lines.flatten)) := by
  induction lines generalizing head with
  | nil => exact List.nil_sublist _
  | cons line rest ih =>
      have hline := hlines line List.mem_cons_self
      have hrest : ∀ other ∈ rest, IsLine other := fun other hother =>
        hlines other (List.mem_cons_of_mem _ hother)
      unfold intact
      dsimp only
      cases hend : isTerminated line with
      | true =>
          obtain ⟨text, stop, rfl, htext, hstop, hreturn⟩ := hline.eq_concat hend
          have hsplit : splitlinesKeepends (head ++ ((text ++ [stop]) :: rest).flatten) =
              (head ++ text ++ [stop]) :: splitlinesKeepends rest.flatten := by
            have hsingle : SingleLine (head ++ text) := singleLine_append.mpr ⟨hhead, htext⟩
            rw [← hsingle.splitlinesKeepends_append hstop hreturn]
            simp
          have hih := ih hrest singleLine_nil
          rw [hsplit]
          cases head with
          | nil => exact hih.cons_cons _
          | cons => exact hih.cons _
      | false =>
          have hsingle := hline.singleLine hend
          cases rest with
          | nil =>
              cases head with
              | nil =>
                  show [line].Sublist (splitlinesKeepends (line ++ []))
                  rw [List.append_nil, hsingle.splitlinesKeepends_eq hline.ne_nil]
              | cons => exact List.nil_sublist _
          | cons other rest =>
              have hih := ih hrest (singleLine_append.mpr ⟨hhead, hsingle⟩)
              have hne : (head ++ line).isEmpty = false := by
                cases head with
                | nil => exact List.isEmpty_eq_false_iff.mpr hline.ne_nil
                | cons => rfl
              rw [hne, List.append_assoc] at hih
              rw [if_pos (by simp)]
              exact hih

/-! ### The unnamed lines behind the splices -/

section Numbered

variable (hunks : List Hunk) (lines : List Str)

def sources : List (Option Nat) :=
  (applicationOrder hunks).foldl (Hunk.overlay fun _ => none) ((List.range lines.length).map some)

def isOpenSource (source : Option Nat) : Bool :=
  (source.bind (lines[·]?)).any fun line => !isTerminated line

def SplicesKeepUnnamed : Prop :=
  ((unnamed hunks lines.length).map some).Sublist
    (intact (isOpenSource lines) false (sources hunks lines))

instance : Decidable (SplicesKeepUnnamed hunks lines) :=
  inferInstanceAs (Decidable (List.Sublist _ _))

end Numbered

/-- A line of the new text, with its source. -/
structure SourcedLine (lines : List Str) (item : Str × Option Nat) : Prop where
  isLine : IsLine item.1
  source : ∀ i, item.2 = some i → lines[i]? = some item.1
  fresh : item.2 = none → isTerminated item.1 = true

theorem SourcedLine.isOpen {lines : List Str} {item : Str × Option Nat}
    (h : SourcedLine lines item) : isOpenSource lines item.2 = !isTerminated item.1 := by
  unfold isOpenSource
  cases hsource : item.2 with
  | none =>
      rw [h.fresh hsource]
      rfl
  | some i =>
      rw [Option.bind_some, h.source i hsource]
      rfl

theorem texts_of_numbers {lines : List Str} {numbers : List Nat} {kept : List (Str × Option Nat)}
    (hnumbers : numbers.map some = kept.map Prod.snd)
    (hkept : ∀ item ∈ kept, SourcedLine lines item) :
    numbers.filterMap (lines[·]?) = kept.map Prod.fst := by
  induction kept generalizing numbers with
  | nil =>
      rw [List.map_nil, List.map_eq_nil_iff] at hnumbers
      rw [hnumbers]
      rfl
  | cons item kept ih =>
      cases numbers with
      | nil => cases hnumbers
      | cons i numbers =>
          rw [List.map_cons, List.map_cons, List.cons.injEq] at hnumbers
          have hline := (hkept item List.mem_cons_self).source i hnumbers.1.symm
          rw [List.filterMap_cons_some hline, List.map_cons,
            ih hnumbers.2 fun other hother => hkept other (List.mem_cons_of_mem _ hother)]

variable {hunks : List Hunk} {content result : Str}

theorem exists_sourced (hread : '\r' ∉ content)
    (hlines : ∀ hunk ∈ hunks, ∀ line ∈ hunk.lines, SingleLine line)
    (h : applyUpdateContent content hunks = .ok result) :
    ∃ items : List (Str × Option Nat), result = (items.map Prod.fst).flatten ∧
      items.map Prod.snd = sources hunks (splitlinesKeepends content) ∧
      ∀ item ∈ items, SourcedLine (splitlinesKeepends content) item := by
  obtain ⟨lines', hlines', rfl⟩ := applyUpdateContent_ok h
  have hold := (splitlinesKeepends_lines hread).1
  have hperm := applicationOrder_perm hunks
  let start := (splitlinesKeepends content).zip ((List.range (splitlinesKeepends content).length).map some)
  have hlength : (splitlinesKeepends content).length =
      ((List.range (splitlinesKeepends content).length).map some).length := by simp
  have hfst : start.map Prod.fst = splitlinesKeepends content := List.map_fst_zip hlength.le
  have hsnd : start.map Prod.snd = (List.range (splitlinesKeepends content).length).map some :=
    List.map_snd_zip hlength.ge
  refine ⟨(applicationOrder hunks).foldl (Hunk.overlay fun added => (addedText added, none)) start,
    ?_, ?_, ?_⟩
  · rw [map_overlays, hfst, applyHunks_eq_overlays hlines']
    rfl
  · rw [map_overlays, hsnd]
    rfl
  · apply forall_mem_overlays
    · intro item hitem
      obtain ⟨i, hi⟩ := List.mem_iff_getElem?.mp hitem
      obtain ⟨hline, hnumber⟩ := List.getElem?_zip_eq_some.mp hi
      rw [List.getElem?_map, List.getElem?_range, Option.map_some, Option.some.injEq] at hnumber
      · refine ⟨hold _ (List.mem_of_getElem? hline), ?_, ?_⟩
        · intro j hj
          rw [← hnumber, Option.some.injEq] at hj
          rw [← hj, hline]
        · intro hnone
          rw [← hnumber] at hnone
          cases hnone
      · exact (List.getElem?_eq_some_iff.mp hline).1
    · intro hunk hhunk added hadded
      have hmem : addedText added ∈ hunk.addedLines := List.mem_map_of_mem hadded
      obtain ⟨hline, hended⟩ := addedLines_line (hlines hunk (hperm.mem_iff.mp hhunk)) hmem
      exact ⟨hline, fun i hi => (nomatch hi), fun _ => hended⟩

theorem keepsUnnamed_of_splices (hread : '\r' ∉ content)
    (hlines : ∀ hunk ∈ hunks, ∀ line ∈ hunk.lines, SingleLine line)
    (h : applyUpdateContent content hunks = .ok result)
    (hsplices : SplicesKeepUnnamed hunks (splitlinesKeepends content)) :
    KeepsUnnamed hunks content result := by
  obtain ⟨items, rfl, hsources, hitems⟩ := exists_sourced hread hlines h
  have hopen : intact (isOpenSource (splitlinesKeepends content) ∘ Prod.snd) false items =
      intact ((fun line => !isTerminated line) ∘ Prod.fst) false items :=
    intact_congr (fun item hitem => (hitems item hitem).isOpen) false
  have hall : ∀ line ∈ items.map Prod.fst, IsLine line :=
    List.forall_mem_map.mpr fun item hitem => (hitems item hitem).isLine
  have hintact := intact_sublist hall singleLine_nil
  rw [List.nil_append, show (!List.isEmpty ([] : Str)) = false from rfl, ← map_intact, ← hopen] at hintact
  unfold SplicesKeepUnnamed at hsplices
  rw [← hsources, ← map_intact] at hsplices
  obtain ⟨kept, hkept, hunnamed⟩ := List.sublist_map_iff.mp hsplices
  refine List.Sublist.trans ?_ hintact
  have htexts : unnamedLines hunks (splitlinesKeepends content) = kept.map Prod.fst :=
    texts_of_numbers hunnamed fun item hitem => hitems item (intact_subset (hkept.subset hitem))
  rw [htexts]
  exact hkept.map Prod.fst

/-! ### The file on disk -/

theorem unnamedLines_map (f : Str → Str) (hunks : List Hunk) (lines : List Str) :
    unnamedLines hunks (lines.map f) = (unnamedLines hunks lines).map f := by
  unfold unnamedLines
  rw [List.length_map, List.map_filterMap]
  congr 1
  funext i
  rw [List.getElem?_map]

theorem updated_file_keeps_unnamed {raw : Str}
    (hlines : ∀ hunk ∈ hunks, ∀ line ∈ hunk.lines, SingleLine line)
    (h : applyUpdateContent (universalNewlines raw) hunks = .ok result) :
    (KeepsUnnamed hunks raw result →
      ∀ line ∈ unnamedLines hunks (splitlinesKeepends raw), '\r' ∉ line) ∧
    ((∀ line ∈ unnamedLines hunks (splitlinesKeepends raw), '\r' ∉ line) →
      SplicesKeepUnnamed hunks (splitlinesKeepends (universalNewlines raw)) →
      KeepsUnnamed hunks raw result) := by
  have hread := return_notMem_universalNewlines raw
  constructor
  · intro hkeeps line hline hreturn
    have hresult : '\r' ∉ result := applyUpdateContent_noReturn h hread fun hunk hhunk raw hraw =>
      (hlines hunk hhunk raw hraw).return_notMem
    exact ((splitlinesKeepends_lines hresult).1 line (hkeeps.subset hline)).noReturn hreturn
  · intro hreturn hsplices
    have hkeeps := keepsUnnamed_of_splices hread hlines h hsplices
    unfold KeepsUnnamed at hkeeps ⊢
    rw [splitlinesKeepends_universalNewlines, unnamedLines_map] at hkeeps
    have hsame : (unnamedLines hunks (splitlinesKeepends raw)).map universalNewlines =
        unnamedLines hunks (splitlinesKeepends raw) :=
      (List.map_congr_left fun line hline => universalNewlines_eq_self (hreturn line hline)).trans
        (List.map_id _)
    rwa [hsame] at hkeeps

theorem planUpdate_ok {ε : Type} {validatePath : Str → Except ε AbsPath} {fs : FileSystem} {path : Str}
    {item : PlannedPatchWrite} (h : planUpdate validatePath fs path hunks = .ok item) :
    ∃ raw after, fs.node item.resolved = some (.file (.text raw)) ∧
      applyUpdateContent (universalNewlines raw) hunks = .ok after ∧ item.afterContent = some after := by
  unfold planUpdate at h
  obtain ⟨resolved, -, h⟩ := bind_eq_ok.mp h
  split at h
  · exact absurd h throw_ne_ok
  · obtain ⟨text, htext, h⟩ := bind_eq_ok.mp h
    obtain ⟨after, hafter, h⟩ := bind_eq_ok.mp h
    rw [pure_eq_ok] at h
    rw [mapError_eq_ok] at htext hafter
    obtain ⟨⟨raw, hraw⟩, -⟩ := FileSystem.node_of_readText htext
    have hread : text = universalNewlines raw := by
      unfold FileSystem.readText at htext
      rw [hraw] at htext
      exact (Except.ok.inj htext).symm
    subst h
    exact ⟨raw, after, hraw, hread ▸ hafter, rfl⟩

theorem commitItem_ok {fs fs' : FileSystem} {item : PlannedPatchWrite} {after : Str}
    (hafter : item.afterContent = some after) (h : commitItem fs item = (fs', .ok ())) :
    fs'.node item.resolved = some (.file (.text after)) := by
  unfold commitItem at h
  rw [hafter] at h
  dsimp only at h
  split at h
  · cases h
  · split at h
    · cases h
    · rename_i hwrite
      obtain ⟨rfl, -⟩ := Prod.mk.inj h
      unfold FileSystem.writeText at hwrite
      split_ifs at hwrite
      cases hwrite
      exact Function.update_self ..

/-- An accepted update that is read, planned and written leaves the lines that no hunk names as they
are only if none of them has a carriage return; and then it does so when its splices neither take one
of them away nor join one to another line. -/
theorem update_keeps_unnamed_lines {ε : Type} {validatePath : Str → Except ε AbsPath} {text path : Str}
    {ops : List PatchOp} {fs fs' fs'' : FileSystem} {item : PlannedPatchWrite}
    (hparse : parsePatch text = .ok ops) (hop : .updateFile path hunks ∈ ops)
    (hplan : planUpdate validatePath fs path hunks = .ok item)
    (hcommit : commitItem fs' item = (fs'', .ok ())) :
    ∃ raw after, fs.node item.resolved = some (.file (.text raw)) ∧
      fs''.node item.resolved = some (.file (.text after)) ∧
      (KeepsUnnamed hunks raw after →
        ∀ line ∈ unnamedLines hunks (splitlinesKeepends raw), '\r' ∉ line) ∧
      ((∀ line ∈ unnamedLines hunks (splitlinesKeepends raw), '\r' ∉ line) →
        SplicesKeepUnnamed hunks (splitlinesKeepends (universalNewlines raw)) →
        KeepsUnnamed hunks raw after) := by
  obtain ⟨raw, after, hraw, happly, hafter⟩ := planUpdate_ok hplan
  obtain ⟨hreturn, hkeeps⟩ := updated_file_keeps_unnamed (parsePatch_singleLine hparse hop) happly
  exact ⟨raw, after, hraw, commitItem_ok hafter hcommit, hreturn, hkeeps⟩

def oneFile (text : Str) : FileSystem where
  node := fun path =>
    if path = [] then some .dir else if path = ["a"] then some (.file (.text text)) else none
  root := rfl
  parent_dir := by
    intro path hne h
    rw [if_neg hne] at h
    split_ifs at h with hpath
    · rw [hpath]
      rfl
    · cases h

def secondLineHunk : Hunk :=
  { oldStart := 2
    oldCount := 1
    newStart := 2
    newCount := 1
    lines := ["-b".toList, "+c".toList] }

def secondLinePatch : Str :=
  "*** Begin Patch\n*** Update File: a\n@@ -2,1 +2,1 @@\n-b\n+c\n*** End Patch".toList

def secondLineItem : PlannedPatchWrite where
  path := "a".toList
  resolved := ["a"]
  afterContent := some "a\nc\n".toList
  operation := .update

theorem commit_second_line (text : Str) (h : (commitItem (oneFile text) secondLineItem).2 = .ok ()) :
    ∃ fs, commitItem (oneFile text) secondLineItem = (fs, .ok ()) := ⟨_, Prod.ext rfl h⟩

theorem second_line_update : ∃ fs after,
    commitItem (oneFile "a\nb\r\n".toList) secondLineItem = (fs, .ok ()) ∧
    fs.node ["a"] = some (.file (.text after)) ∧
    KeepsUnnamed [secondLineHunk] "a\nb\r\n".toList after := by
  obtain ⟨fs, hcommit⟩ := commit_second_line "a\nb\r\n".toList (by decide +kernel)
  obtain ⟨raw, after, hraw, hafter, -, hkeeps⟩ := update_keeps_unnamed_lines
    (show parsePatch secondLinePatch = .ok [.updateFile "a".toList [secondLineHunk]] by decide +kernel)
    List.mem_cons_self
    (show planUpdate splitPath (oneFile "a\nb\r\n".toList) "a".toList [secondLineHunk] =
      .ok secondLineItem by decide +kernel)
    hcommit
  have hnode : (oneFile "a\nb\r\n".toList).node ["a"] = some (.file (.text "a\nb\r\n".toList)) := rfl
  rw [show secondLineItem.resolved = ["a"] from rfl, hnode, Option.some.injEq, Node.file.injEq,
    FileContent.text.injEq] at hraw
  subst hraw
  exact ⟨fs, after, hcommit, hafter, hkeeps (by decide +kernel) (by decide +kernel)⟩

/-- The first line ends in CRLF and is not named; it is written back with LF. -/
theorem crlf_is_rewritten : ¬ ∀ (text path : Str) (hunks : List Hunk) (ops : List PatchOp)
    (fs fs' fs'' : FileSystem) (item : PlannedPatchWrite), parsePatch text = .ok ops →
    .updateFile path hunks ∈ ops → planUpdate splitPath fs path hunks = .ok item →
    commitItem fs' item = (fs'', .ok ()) → ∃ raw after,
      fs.node item.resolved = some (.file (.text raw)) ∧
      fs''.node item.resolved = some (.file (.text after)) ∧ KeepsUnnamed hunks raw after := by
  intro hclaim
  obtain ⟨fs, hcommit⟩ := commit_second_line "a\r\nb\r\n".toList (by decide +kernel)
  obtain ⟨raw, after, hraw, hafter, hkeeps⟩ := hclaim secondLinePatch "a".toList [secondLineHunk]
    [.updateFile "a".toList [secondLineHunk]] (oneFile "a\r\nb\r\n".toList)
    (oneFile "a\r\nb\r\n".toList) fs secondLineItem (by decide +kernel) List.mem_cons_self
    (by decide +kernel) hcommit
  have hnode : (oneFile "a\r\nb\r\n".toList).node ["a"] =
      some (.file (.text "a\r\nb\r\n".toList)) := rfl
  rw [show secondLineItem.resolved = ["a"] from rfl, hnode, Option.some.injEq, Node.file.injEq,
    FileContent.text.injEq] at hraw
  rw [commitItem_ok rfl hcommit, Option.some.injEq, Node.file.injEq, FileContent.text.injEq] at hafter
  subst hraw hafter
  exact absurd hkeeps (by decide +kernel)

end OpenStarry.Patch
