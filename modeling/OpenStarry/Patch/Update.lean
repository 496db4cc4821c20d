import Mathlib.Data.List.Count
import OpenStarry.Patch.Parser

/-!
# What an update does to the lines of a file

An update is exact when an edit script leads from the old lines to the new ones that deletes
exactly the lines the hunks delete and inserts exactly the lines they add. The code splices each
hunk over as many lines as its header counts, wherever its start line points to, and joins the
lines at the end; it is exact when every splice covers the lines its hunk has walked, no hunk
deletes a line that another one added, and nothing comes to stand behind a last line without a
line end. For one hunk on a file whose last line is ended, the first of these is also necessary.
-/

namespace OpenStarry.Patch

open Lib Lib.Text

/-! ### Edit scripts -/

inductive Edit where
  | keep (line : Str)
  /-- The old line and the text of the `-` line that names it. -/
  | delete (line named : Str)
  | insert (line : Str)
  deriving DecidableEq, Repr

namespace Edit

def source? : Edit → Option Str
  | .keep line => some line
  | .delete line _ => some line
  | .insert _ => none

def target? : Edit → Option Str
  | .keep line => some line
  | .delete _ _ => none
  | .insert line => some line

def deleted? : Edit → Option Str
  | .delete _ named => some named
  | _ => none

def inserted? : Edit → Option Str
  | .insert line => some line
  | _ => none

/-- A deleted line is one that its `-` line matches. -/
def Matched : Edit → Prop
  | .delete line named => matchLine line named = true
  | _ => True

end Edit

/-- The texts of the hunk lines with the prefix `mark`. -/
def markedWith (mark : Char) (raws : List Str) : List Str :=
  raws.filterMap fun raw =>
    match raw with
    | [] => none
    | first :: content => if first = mark then some content else none

@[simp] theorem markedWith_nil_cons (mark : Char) (raws : List Str) :
    markedWith mark ([] :: raws) = markedWith mark raws := rfl

@[simp] theorem markedWith_cons_self (mark : Char) (content : Str) (raws : List Str) :
    markedWith mark ((mark :: content) :: raws) = content :: markedWith mark raws := by
  simp [markedWith]

theorem markedWith_cons_ne {mark first : Char} (h : first ≠ mark) (content : Str)
    (raws : List Str) : markedWith mark ((first :: content) :: raws) = markedWith mark raws := by
  simp [markedWith, h]

def Hunk.deletedLines (hunk : Hunk) : List Str := markedWith '-' hunk.lines

def Hunk.addedLines (hunk : Hunk) : List Str := (markedWith '+' hunk.lines).map addedText

/-- The lines `after` come from the lines `before` by exactly the edits the hunks name. -/
def ExactUpdate (hunks : List Hunk) (before after : List Str) : Prop :=
  ∃ script : List Edit,
    script.filterMap Edit.source? = before ∧
    script.filterMap Edit.target? = after ∧
    (script.filterMap Edit.deleted?).Perm (hunks.flatMap Hunk.deletedLines) ∧
    (script.filterMap Edit.inserted?).Perm (hunks.flatMap Hunk.addedLines) ∧
    ∀ edit ∈ script, edit.Matched

/-! ### When a splice covers what it walks -/

def isWalked : Str → Bool
  | [] => false
  | mark :: _ => mark == ' ' || mark == '-'

def Hunk.walked (hunk : Hunk) : Nat := hunk.lines.countP isWalked

/-- The lines the splice keeps before and behind it, and the lines the hunk walks, make up a file
of `length` lines. -/
def Hunk.Consistent (hunk : Hunk) (length : Nat) : Prop :=
  min (cutAt length hunk.pos) length + hunk.walked +
    (length - cutAt length (hunk.pos + hunk.oldCount)) = length

instance (hunk : Hunk) (length : Nat) : Decidable (hunk.Consistent length) := by
  unfold Hunk.Consistent; infer_instance

section Shape

variable {α β : Type}

def rebuild (fresh : Str → α) : List Str → List α → List α
  | [], _ => []
  | [] :: raws, walked => rebuild fresh raws walked
  | (mark :: content) :: raws, walked =>
      if mark = ' ' then walked.head?.toList ++ rebuild fresh raws walked.tail
      else if mark = '-' then rebuild fresh raws walked.tail
      else if mark = '+' then fresh content :: rebuild fresh raws walked
      else rebuild fresh raws walked

/-- The walked lines that stand at a `-` line. -/
def walkedDeletions : List Str → List α → List α
  | [], _ => []
  | [] :: raws, walked => walkedDeletions raws walked
  | (mark :: _) :: raws, walked =>
      if mark = ' ' then walkedDeletions raws walked.tail
      else if mark = '-' then walked.head?.toList ++ walkedDeletions raws walked.tail
      else walkedDeletions raws walked

/-- The lines a hunk walks in `items`. -/
def Hunk.segment (hunk : Hunk) (items : List α) : List α :=
  (items.drop (cutAt items.length hunk.pos)).take hunk.walked

def Hunk.splice (fresh : Str → α) (hunk : Hunk) (items : List α) : List α :=
  sliceTo items hunk.pos ++ rebuild fresh hunk.lines (hunk.segment items) ++
    sliceFrom items (hunk.pos + hunk.oldCount)

end Shape

/-- Where a line of the file comes from. -/
inductive Origin where
  | original
  /-- The last line of the old file, when it has no line end. -/
  | unterminated
  | added
  deriving DecidableEq, Repr

def lineOrigin (line : Str) : Origin := if isTerminated line then .original else .unterminated

/-- No splice goes wrong, from lines of the given origins on: each one covers the lines its hunk
walks, no `-` line hits an added line, and at the end nothing stands behind the unterminated one. -/
def SplicesCover : List Origin → List Hunk → Prop
  | origins, [] => ∀ origin ∈ origins.dropLast, origin ≠ .unterminated
  | origins, hunk :: rest =>
      hunk.Consistent origins.length ∧
      (∀ origin ∈ walkedDeletions hunk.lines (hunk.segment origins), origin ≠ .added) ∧
      SplicesCover (hunk.splice (fun _ => .added) origins) rest

instance : (origins : List Origin) → (hunks : List Hunk) → Decidable (SplicesCover origins hunks)
  | _, [] => by unfold SplicesCover; infer_instance
  | origins, hunk :: rest =>
      have := instDecidableSplicesCover (hunk.splice (fun _ => .added) origins) rest
      by unfold SplicesCover; infer_instance

/-! ### What a splice leaves as it is -/

section Shape

variable {α β : Type}

theorem map_rebuild (f : α → β) (fresh : Str → α) (raws : List Str) (walked : List α) :
    (rebuild fresh raws walked).map f = rebuild (f ∘ fresh) raws (walked.map f) := by
  fun_induction rebuild fresh raws walked with
  | case1 => rfl
  | case2 raws walked ih => rw [rebuild, ih]
  | case3 content raws walked ih =>
      rw [rebuild, if_pos rfl, List.map_append, ih, List.map_tail]
      cases walked <;> rfl
  | case4 content raws walked _ ih => rw [rebuild, if_neg (by decide), if_pos rfl, ih, List.map_tail]
  | case5 content raws walked _ _ ih =>
      rw [rebuild, if_neg (by decide), if_neg (by decide), if_pos rfl, List.map_cons, ih]
      rfl
  | case6 mark content raws walked hspace hminus hplus ih =>
      rw [rebuild, if_neg hspace, if_neg hminus, if_neg hplus, ih]

theorem map_walkedDeletions (f : α → β) (raws : List Str) (walked : List α) :
    (walkedDeletions raws walked).map f = walkedDeletions raws (walked.map f) := by
  fun_induction walkedDeletions raws walked with
  | case1 => rfl
  | case2 raws walked ih => rw [walkedDeletions, ih]
  | case3 content raws walked ih => rw [walkedDeletions, if_pos rfl, ih, List.map_tail]
  | case4 content raws walked _ ih =>
      rw [walkedDeletions, if_neg (by decide), if_pos rfl, List.map_append, ih, List.map_tail]
      cases walked <;> rfl
  | case5 mark content raws walked hspace hminus ih =>
      rw [walkedDeletions, if_neg hspace, if_neg hminus, ih]

theorem Hunk.map_segment (f : α → β) (hunk : Hunk) (items : List α) :
    (hunk.segment items).map f = hunk.segment (items.map f) := by
  rw [segment, segment, List.map_take, List.map_drop, List.length_map]

theorem Hunk.map_splice (f : α → β) (fresh : Str → α) (hunk : Hunk) (items : List α) :
    (hunk.splice fresh items).map f = hunk.splice (f ∘ fresh) (items.map f) := by
  simp only [splice, List.map_append, map_rebuild, hunk.map_segment, sliceTo, sliceFrom,
    List.map_take, List.map_drop, List.length_map]

namespace Hunk.Consistent

variable {hunk : Hunk} {items : List α}

theorem split (h : hunk.Consistent items.length) :
    sliceTo items hunk.pos ++ hunk.segment items ++ sliceFrom items (hunk.pos + hunk.oldCount) =
      items := by
  unfold Hunk.Consistent at h
  have hrest : sliceFrom items (hunk.pos + hunk.oldCount) =
      items.drop (cutAt items.length hunk.pos + hunk.walked) := by
    rw [sliceFrom, List.drop_eq_drop_min]
    conv_rhs => rw [List.drop_eq_drop_min]
    congr 1
    omega
  rw [hrest, sliceTo, segment, List.append_assoc, ← List.drop_drop, List.take_append_drop,
    List.take_append_drop]

theorem length_segment (h : hunk.Consistent items.length) :
    (hunk.segment items).length = hunk.walked := by
  unfold Hunk.Consistent at h
  rw [segment, List.length_take, List.length_drop]
  omega

theorem item?_eq (h : hunk.Consistent items.length) {j : Nat} (hj : j < hunk.walked) :
    item? items (hunk.pos + j) = (hunk.segment items)[j]? := by
  rw [segment, List.getElem?_take_of_lt hj, List.getElem?_drop]
  unfold Hunk.Consistent at h
  by_cases hzero : hunk.oldStart = 0
  · have hpos : hunk.pos = -1 := by rw [pos, hzero]; rfl
    have hne : items ≠ [] := by
      rintro rfl
      simp at h
      omega
    have hlength := List.length_pos_iff.mpr hne
    have hcut : cutAt items.length (-1) = items.length - 1 := by
      rw [cutAt, if_pos (by omega)]
      omega
    rw [hpos, hcut] at h
    obtain rfl : j = 0 := by omega
    rw [hpos, hcut]
    simpa using item?_neg_one hne
  · have hpos : 0 ≤ hunk.pos := by rw [pos]; omega
    rw [item?_of_nonneg _ (by omega), cutAt_of_nonneg _ hpos]
    congr 1
    omega

end Hunk.Consistent

end Shape

/-! ### What one hunk does -/

/-- The lines at the positions from `start` on are the ones in `walked`. -/
def StandAt (lines : List Str) (start : Int) (walked : List Str) : Prop :=
  ∀ j, j < walked.length → item? lines (start + j) = walked[j]?

theorem StandAt.head {lines : List Str} {start : Int} {line : Str} {walked : List Str}
    (h : StandAt lines start (line :: walked)) : item? lines start = some line := by
  simpa using h 0 (by simp)

theorem StandAt.tail {lines : List Str} {start : Int} {line : Str} {walked : List Str}
    (h : StandAt lines start (line :: walked)) : StandAt lines (start + 1) walked := by
  intro j hj
  have := h (j + 1) (by simpa using hj)
  rw [List.getElem?_cons_succ] at this
  rw [← this]
  congr 1
  push_cast
  omega

theorem newLines_eq {lines : List Str} (raws : List Str) {start : Int} {walked : List Str}
    (hstand : StandAt lines start walked) (hlength : walked.length = raws.countP isWalked) :
    newLines lines start raws = .ok (rebuild addedText raws walked) := by
  fun_induction rebuild addedText raws walked generalizing start with
  | case1 => rfl
  | case2 raws walked ih => exact ih hstand (by simpa [isWalked] using hlength)
  | case3 content raws walked ih =>
      cases walked with
      | nil => simp [isWalked] at hlength
      | cons line walked =>
          rw [newLines, if_pos rfl, hstand.head]
          simp only
          rw [List.tail_cons, ih hstand.tail (by simpa [isWalked] using hlength)]
          rfl
  | case4 content raws walked _ ih =>
      cases walked with
      | nil => simp [isWalked] at hlength
      | cons line walked =>
          rw [newLines, if_neg (by decide), if_pos rfl]
          exact ih hstand.tail (by simpa [isWalked] using hlength)
  | case5 content raws walked _ _ ih =>
      rw [newLines, if_neg (by decide), if_neg (by decide), if_pos rfl,
        ih hstand (by simpa [isWalked] using hlength)]
      rfl
  | case6 mark content raws walked hspace hminus hplus ih =>
      rw [newLines, if_neg hspace, if_neg hminus, if_neg hplus]
      exact ih hstand (by simpa [isWalked, hspace, hminus] using hlength)

/-- The lines at the `-` lines of a verified hunk are the ones these name. -/
theorem deletions_match {lines : List Str} (raws : List Str) {start : Int} {walked : List Str}
    (hstand : StandAt lines start walked) (hlength : walked.length = raws.countP isWalked)
    (hverify : verifyLines lines start raws = .ok ()) :
    List.Forall₂ (fun line named => matchLine line named = true) (walkedDeletions raws walked)
      (markedWith '-' raws) := by
  fun_induction walkedDeletions raws walked generalizing start with
  | case1 => exact .nil
  | case2 raws walked ih => exact ih hstand (by simpa [isWalked] using hlength) hverify
  | case3 content raws walked ih =>
      cases walked with
      | nil => simp [isWalked] at hlength
      | cons line walked =>
          rw [verifyLines, if_pos (.inl rfl), hstand.head] at hverify
          simp only at hverify
          split_ifs at hverify with hend hmatch
          exact ih hstand.tail (by simpa [isWalked] using hlength) hverify
  | case4 content raws walked _ ih =>
      cases walked with
      | nil => simp [isWalked] at hlength
      | cons line walked =>
          rw [verifyLines, if_pos (.inr rfl), hstand.head] at hverify
          simp only at hverify
          split_ifs at hverify with hend hmatch
          exact .cons hmatch (ih hstand.tail (by simpa [isWalked] using hlength) hverify)
  | case5 mark content raws walked hspace hminus ih =>
      rw [verifyLines, if_neg (by simp [hspace, hminus])] at hverify
      rw [markedWith_cons_ne hminus]
      exact ih hstand (by simpa [isWalked, hspace, hminus] using hlength) hverify

theorem applyHunk_ok {lines lines' : List Str} {hunk : Hunk} (h : applyHunk lines hunk = .ok lines') :
    verifyLines lines hunk.pos hunk.lines = .ok () ∧ ∃ new,
      newLines lines hunk.pos hunk.lines = .ok new ∧
      lines' = sliceTo lines hunk.pos ++ new ++ sliceFrom lines (hunk.pos + hunk.oldCount) := by
  rw [applyHunk] at h
  cases hverify : verifyLines lines hunk.pos hunk.lines with
  | error e => simp [hverify, bind, Except.bind] at h
  | ok =>
      cases hnew : newLines lines hunk.pos hunk.lines with
      | error e => simp [hverify, hnew, bind, Except.bind] at h
      | ok new =>
          simp only [hverify, hnew, bind, Except.bind, pure, Except.pure, Except.ok.injEq] at h
          exact ⟨rfl, new, rfl, h.symm⟩

theorem applyHunk_splice {lines lines' : List Str} {hunk : Hunk}
    (h : applyHunk lines hunk = .ok lines') (hconsistent : hunk.Consistent lines.length) :
    lines' = hunk.splice addedText lines ∧
      List.Forall₂ (fun line named => matchLine line named = true)
        (walkedDeletions hunk.lines (hunk.segment lines)) hunk.deletedLines := by
  obtain ⟨hverify, new, hnew, rfl⟩ := applyHunk_ok h
  have hlength := hconsistent.length_segment
  have hstand : StandAt lines hunk.pos (hunk.segment lines) := fun j hj =>
    hconsistent.item?_eq (hlength ▸ hj)
  rw [newLines_eq hunk.lines hstand hlength, Except.ok.injEq] at hnew
  exact ⟨hnew ▸ rfl, deletions_match hunk.lines hstand hlength hverify⟩

/-! ### Amending a script -/

namespace Edit

def isTarget : Edit → Bool
  | .delete _ _ => false
  | _ => true

def line : Edit → Str
  | .keep line => line
  | .delete line _ => line
  | .insert line => line

def origin : Edit → Origin
  | .insert _ => .added
  | edit => lineOrigin edit.line

end Edit

/-- The new script edits the same old lines; it deletes and inserts the given ones besides. -/
structure Amends (deleted inserted : List Str) (script script' : List Edit) : Prop where
  source : script'.filterMap Edit.source? = script.filterMap Edit.source?
  deletedCount : ∀ text, (script'.filterMap Edit.deleted?).count text =
    (script.filterMap Edit.deleted?).count text + deleted.count text
  insertedCount : ∀ text, (script'.filterMap Edit.inserted?).count text =
    (script.filterMap Edit.inserted?).count text + inserted.count text
  matched : (∀ edit ∈ script, edit.Matched) → ∀ edit ∈ script', edit.Matched

namespace Amends

variable {deleted deleted' inserted inserted' : List Str} {script script' script'' : List Edit}

theorem refl (script : List Edit) : Amends [] [] script script :=
  { source := rfl
    deletedCount := fun _ => rfl
    insertedCount := fun _ => rfl
    matched := id }

theorem trans (h : Amends deleted inserted script script')
    (h' : Amends deleted' inserted' script' script'') :
    Amends (deleted ++ deleted') (inserted ++ inserted') script script'' :=
  { source := h'.source.trans h.source
    deletedCount := fun text => by
      rw [h'.deletedCount, h.deletedCount, List.count_append, Nat.add_assoc]
    insertedCount := fun text => by
      rw [h'.insertedCount, h.insertedCount, List.count_append, Nat.add_assoc]
    matched := h'.matched ∘ h.matched }

theorem within (h : Amends deleted inserted script script') (before behind : List Edit) :
    Amends deleted inserted (before ++ script ++ behind) (before ++ script' ++ behind) :=
  { source := by simp only [List.filterMap_append, h.source]
    deletedCount := fun text => by
      simp only [List.filterMap_append, List.count_append, h.deletedCount]
      omega
    insertedCount := fun text => by
      simp only [List.filterMap_append, List.count_append, h.insertedCount]
      omega
    matched := fun hall edit hedit => by
      simp only [List.mem_append] at hall hedit
      rcases hedit with (hedit | hedit) | hedit
      · exact hall edit (.inl (.inl hedit))
      · exact h.matched (fun other hother => hall other (.inl (.inr hother))) edit hedit
      · exact hall edit (.inr hedit) }

theorem behind (h : Amends deleted inserted script script') (before : List Edit) (edit : Edit) :
    Amends deleted inserted (before ++ edit :: script) (before ++ edit :: script') := by
  have hwithin := h.within (before ++ [edit]) []
  rwa [List.append_nil, List.append_nil, List.append_assoc, List.append_assoc] at hwithin

theorem keep_delete {line named : Str} (h : matchLine line named = true) :
    Amends [named] [] [.keep line] [.delete line named] :=
  { source := rfl
    deletedCount := fun text => by simp [Edit.deleted?, List.filterMap_cons]
    insertedCount := fun text => by simp [Edit.inserted?, List.filterMap_cons]
    matched := fun _ => List.forall_mem_singleton.mpr h }

theorem nil_insert (line : Str) : Amends [] [line] [] [.insert line] :=
  { source := rfl
    deletedCount := fun text => by simp [Edit.deleted?, List.filterMap_cons]
    insertedCount := fun text => by simp [Edit.inserted?]
    matched := fun _ => List.forall_mem_singleton.mpr trivial }

end Amends

/-- The hunk lines amend the part of the script they walk; a `-` line may only hit a line of the
old file. -/
theorem exists_amended (raws : List Str) {walked script : List Edit}
    (hscript : script.filter Edit.isTarget = walked)
    (hlength : walked.length = raws.countP isWalked)
    (horigin : ∀ edit ∈ walkedDeletions raws walked, edit.origin ≠ .added)
    (hmatch : List.Forall₂ (fun edit named => matchLine (Edit.line edit) named = true)
      (walkedDeletions raws walked) (markedWith '-' raws)) :
    ∃ script', script'.filter Edit.isTarget =
        rebuild (fun content => .insert (addedText content)) raws walked ∧
      Amends (markedWith '-' raws) ((markedWith '+' raws).map addedText) script script' := by
  fun_induction walkedDeletions raws walked generalizing script with
  | case1 walked =>
      obtain rfl := List.length_eq_zero_iff.mp hlength
      exact ⟨script, hscript, .refl script⟩
  | case2 raws walked ih => exact ih hscript (by simpa [isWalked] using hlength) horigin hmatch
  | case3 content raws walked ih =>
      cases walked with
      | nil => simp [isWalked] at hlength
      | cons edit walked =>
          obtain ⟨before, behind, rfl, hbefore, htarget, hbehind⟩ := List.filter_eq_cons_iff.mp hscript
          rw [markedWith_cons_ne (by decide)] at hmatch ⊢
          rw [markedWith_cons_ne (by decide)]
          obtain ⟨behind', hbehind', hamends⟩ :=
            ih hbehind (by simpa [isWalked] using hlength) horigin hmatch
          refine ⟨before ++ edit :: behind', ?_, ?_⟩
          · rw [List.filter_append, List.filter_eq_nil_iff.mpr hbefore,
              List.filter_cons_of_pos htarget, hbehind', rebuild, if_pos rfl]
            rfl
          · exact hamends.behind before edit
  | case4 content raws walked _ ih =>
      cases walked with
      | nil => simp [isWalked] at hlength
      | cons edit walked =>
          obtain ⟨before, behind, rfl, hbefore, htarget, hbehind⟩ := List.filter_eq_cons_iff.mp hscript
          rw [markedWith_cons_self] at hmatch ⊢
          rw [markedWith_cons_ne (by decide)]
          obtain ⟨hfirst, hrest⟩ := List.forall₂_cons.mp hmatch
          obtain ⟨hold, hother⟩ := List.forall_mem_cons.mp horigin
          obtain ⟨line, rfl⟩ : ∃ line, edit = .keep line := by
            cases edit with
            | keep line => exact ⟨line, rfl⟩
            | delete line named => simp [Edit.isTarget] at htarget
            | insert line => exact absurd rfl hold
          obtain ⟨behind', hbehind', hamends⟩ :=
            ih hbehind (by simpa [isWalked] using hlength) hother hrest
          refine ⟨before ++ .delete line content :: behind', ?_, ?_⟩
          · rw [List.filter_append, List.filter_eq_nil_iff.mpr hbefore,
              List.filter_cons_of_neg (by simp [Edit.isTarget]), hbehind', rebuild,
              if_neg (by decide), if_pos rfl]
            rfl
          · have hdelete : Amends [content] [] (before ++ .keep line :: behind)
                (before ++ .delete line content :: behind) := by
              have hmatched : matchLine line content = true := hfirst
              simpa using (Amends.keep_delete hmatched).within before behind
            exact hdelete.trans (hamends.behind before _)
  | case5 mark content raws walked hspace hminus ih =>
      rw [markedWith_cons_ne hminus] at hmatch ⊢
      obtain ⟨script', hscript', hamends⟩ :=
        ih hscript (by simpa [isWalked, hspace, hminus] using hlength) horigin hmatch
      by_cases hplus : mark = '+'
      · subst hplus
        refine ⟨.insert (addedText content) :: script', ?_, ?_⟩
        · rw [List.filter_cons_of_pos rfl, hscript', rebuild, if_neg hspace, if_neg hminus,
            if_pos rfl]
        · rw [markedWith_cons_self]
          have hinsert : Amends [] [addedText content] script
              (.insert (addedText content) :: script) := by
            simpa using (Amends.nil_insert (addedText content)).within [] script
          exact hinsert.trans (hamends.behind [] _)
      · rw [markedWith_cons_ne hplus]
        exact ⟨script', by rw [hscript', rebuild, if_neg hspace, if_neg hminus, if_neg hplus],
          hamends⟩

theorem splice_amends {hunk : Hunk} {script : List Edit}
    (hconsistent : hunk.Consistent (script.filter Edit.isTarget).length)
    (horigin : ∀ edit ∈ walkedDeletions hunk.lines (hunk.segment (script.filter Edit.isTarget)),
      edit.origin ≠ .added)
    (hmatch : List.Forall₂ (fun edit named => matchLine (Edit.line edit) named = true)
      (walkedDeletions hunk.lines (hunk.segment (script.filter Edit.isTarget))) hunk.deletedLines) :
    ∃ script', script'.filter Edit.isTarget =
        hunk.splice (fun content => .insert (addedText content)) (script.filter Edit.isTarget) ∧
      Amends hunk.deletedLines hunk.addedLines script script' := by
  have hsplit := hconsistent.split
  obtain ⟨front, back, hscript, hfront, hback⟩ := List.filter_eq_append_iff.mp hsplit.symm
  obtain ⟨before, middle, rfl, hbefore, hmiddle⟩ := List.filter_eq_append_iff.mp hfront
  obtain ⟨middle', hmiddle', hamends⟩ :=
    exists_amended hunk.lines hmiddle hconsistent.length_segment horigin hmatch
  refine ⟨before ++ middle' ++ back, ?_, ?_⟩
  · rw [List.filter_append, List.filter_append, hbefore, hmiddle', hback]
    rfl
  · rw [hscript]
    exact hamends.within before back

/-! ### The whole update -/

theorem targets_eq (script : List Edit) :
    script.filterMap Edit.target? = (script.filter Edit.isTarget).map Edit.line := by
  induction script with
  | nil => rfl
  | cons edit script ih =>
      cases edit with
      | keep line => rw [List.filter_cons_of_pos rfl, List.map_cons, ← ih]; rfl
      | delete line named => rw [List.filter_cons_of_neg (by simp [Edit.isTarget]), ← ih]; rfl
      | insert line => rw [List.filter_cons_of_pos rfl, List.map_cons, ← ih]; rfl

theorem applyHunks_cons {lines lines' : List Str} {hunk : Hunk} {hunks : List Hunk}
    (h : applyHunks lines (hunk :: hunks) = .ok lines') :
    ∃ middle, applyHunk lines hunk = .ok middle ∧ applyHunks middle hunks = .ok lines' := by
  rw [applyHunks] at h
  cases hmiddle : applyHunk lines hunk with
  | error e => simp [hmiddle, bind, Except.bind] at h
  | ok middle => exact ⟨middle, rfl, by simpa [hmiddle, bind, Except.bind] using h⟩

theorem applyHunks_amends {hunks : List Hunk} {script : List Edit} {lines' : List Str}
    (h : applyHunks (script.filterMap Edit.target?) hunks = .ok lines')
    (hcover : SplicesCover ((script.filter Edit.isTarget).map Edit.origin) hunks) :
    ∃ script', script'.filterMap Edit.target? = lines' ∧
      Amends (hunks.flatMap Hunk.deletedLines) (hunks.flatMap Hunk.addedLines) script script' ∧
      ∀ origin ∈ ((script'.filter Edit.isTarget).map Edit.origin).dropLast,
        origin ≠ .unterminated := by
  induction hunks generalizing script with
  | nil => exact ⟨script, Except.ok.inj h, .refl script, hcover⟩
  | cons hunk hunks ih =>
      obtain ⟨hconsistent, horigin, hrest⟩ := hcover
      obtain ⟨middle, hmiddle, hlines'⟩ := applyHunks_cons h
      rw [List.length_map] at hconsistent
      rw [targets_eq] at hmiddle
      obtain ⟨rfl, hmatch⟩ := applyHunk_splice hmiddle (by rwa [List.length_map])
      rw [← hunk.map_segment, ← map_walkedDeletions, List.forall₂_map_left_iff] at hmatch
      rw [← hunk.map_segment, ← map_walkedDeletions, List.forall_mem_map] at horigin
      obtain ⟨script', hscript', hamends⟩ := splice_amends hconsistent horigin hmatch
      have htargets : script'.filterMap Edit.target? =
          hunk.splice addedText ((script.filter Edit.isTarget).map Edit.line) := by
        rw [targets_eq, hscript', hunk.map_splice]
        rfl
      have horigins : (script'.filter Edit.isTarget).map Edit.origin =
          hunk.splice (fun _ => .added) ((script.filter Edit.isTarget).map Edit.origin) := by
        rw [hscript', hunk.map_splice]
        rfl
      rw [← htargets] at hlines'
      rw [← horigins] at hrest
      obtain ⟨script'', htargets'', hamends'', hend⟩ := ih hlines' hrest
      exact ⟨script'', htargets'', by simpa using hamends.trans hamends'', hend⟩

theorem addedText_singleLine {content : Str} (h : SingleLine content) :
    addedText content = content ++ ['\n'] := by
  rw [addedText, if_neg]
  rw [List.isSuffixOf_iff_suffix]
  rintro ⟨front, rfl⟩
  have := h '\n' (by simp)
  simp [isLineBoundary] at this

theorem mem_of_mem_markedWith {mark : Char} {raws : List Str} {content : Str}
    (h : content ∈ markedWith mark raws) : mark :: content ∈ raws := by
  obtain ⟨raw, hraw, hcontent⟩ := List.mem_filterMap.mp h
  cases raw with
  | nil => simp at hcontent
  | cons first rest =>
      simp only [Option.ite_none_right_eq_some, Option.some.injEq] at hcontent
      obtain ⟨rfl, rfl⟩ := hcontent
      exact hraw

theorem singleLine_of_mem_markedWith {mark : Char} {raws : List Str} {content : Str}
    (hraws : ∀ raw ∈ raws, SingleLine raw) (h : content ∈ markedWith mark raws) :
    SingleLine content :=
  (singleLine_cons.mp (hraws _ (mem_of_mem_markedWith h))).2

theorem addedLines_line {hunk : Hunk} (hlines : ∀ line ∈ hunk.lines, SingleLine line) {line : Str}
    (h : line ∈ hunk.addedLines) : IsLine line ∧ isTerminated line = true := by
  obtain ⟨content, hcontent, rfl⟩ := List.mem_map.mp h
  have hsingle := singleLine_of_mem_markedWith hlines hcontent
  rw [addedText_singleLine hsingle]
  exact ⟨.concat hsingle (by decide), isTerminated_concat⟩

theorem applyUpdateContent_ok {content result : Str} {hunks : List Hunk}
    (h : applyUpdateContent content hunks = .ok result) :
    ∃ lines', applyHunks (splitlinesKeepends content) (applicationOrder hunks) = .ok lines' ∧
      result = lines'.flatten := by
  rw [applyUpdateContent] at h
  cases hlines : applyHunks (splitlinesKeepends content) (applicationOrder hunks) with
  | error e => simp [hlines, Except.map] at h
  | ok lines' => exact ⟨lines', rfl, by simpa [hlines, Except.map, eq_comm] using h⟩

theorem applicationOrder_perm (hunks : List Hunk) : (applicationOrder hunks).Perm hunks :=
  List.perm_insertionSort _ hunks

theorem keepAll (lines : List Str) :
    ((lines.map Edit.keep).filterMap Edit.source? = lines ∧
      (lines.map Edit.keep).filterMap Edit.target? = lines) ∧
    ((lines.map Edit.keep).filterMap Edit.deleted? = [] ∧
      (lines.map Edit.keep).filterMap Edit.inserted? = []) ∧
    (lines.map Edit.keep).filter Edit.isTarget = lines.map Edit.keep := by
  induction lines with
  | nil => simp
  | cons line lines ih =>
      obtain ⟨⟨hsource, htarget⟩, ⟨hdeleted, hinserted⟩, hfilter⟩ := ih
      exact ⟨⟨congrArg (line :: ·) hsource, congrArg (line :: ·) htarget⟩, ⟨hdeleted, hinserted⟩,
        congrArg (Edit.keep line :: ·) hfilter⟩

variable {content result : Str} {hunks : List Hunk}

theorem exactUpdate_of_splicesCover (hread : '\r' ∉ content)
    (hlines : ∀ hunk ∈ hunks, ∀ line ∈ hunk.lines, SingleLine line)
    (h : applyUpdateContent content hunks = .ok result)
    (hcover : SplicesCover ((splitlinesKeepends content).map lineOrigin) (applicationOrder hunks)) :
    ExactUpdate hunks (splitlinesKeepends content) (splitlinesKeepends result) := by
  obtain ⟨lines', happly, rfl⟩ := applyUpdateContent_ok h
  obtain ⟨⟨hsource, htarget⟩, ⟨hdeleted, hinserted⟩, hfilter⟩ := keepAll (splitlinesKeepends content)
  have hold := (splitlinesKeepends_lines hread).1
  have hperm := applicationOrder_perm hunks
  obtain ⟨script, hscript, hamends, hend⟩ :=
    applyHunks_amends (htarget.symm ▸ happly) (by rwa [hfilter, List.map_map])
  -- a line of the result is an old line or an added one
  have hnew : ∀ edit ∈ script.filter Edit.isTarget,
      IsLine edit.line ∧ (edit.origin ≠ .unterminated → isTerminated edit.line = true) := by
    intro edit hedit
    obtain ⟨hmem, htarget⟩ := List.mem_filter.mp hedit
    cases edit with
    | keep line =>
        have hline : line ∈ splitlinesKeepends content := by
          rw [← hsource, ← hamends.source]
          exact List.mem_filterMap.mpr ⟨_, hmem, rfl⟩
        refine ⟨hold line hline, fun horigin => ?_⟩
        by_contra hopen
        exact horigin (if_neg hopen)
    | delete line named => simp [Edit.isTarget] at htarget
    | insert line =>
        have hcount := hamends.insertedCount line
        have hmem : line ∈ script.filterMap Edit.inserted? := List.mem_filterMap.mpr ⟨_, hmem, rfl⟩
        rw [hinserted, List.count_nil, Nat.zero_add] at hcount
        rw [← List.count_pos_iff, hcount, List.count_pos_iff, List.mem_flatMap] at hmem
        obtain ⟨hunk, hhunk, hadded⟩ := hmem
        obtain ⟨hline, hended⟩ := addedLines_line (hlines hunk (hperm.mem_iff.mp hhunk)) hadded
        exact ⟨hline, fun _ => hended⟩
  have hsplit : splitlinesKeepends lines'.flatten = lines' := by
    rw [← hscript, targets_eq]
    refine splitlinesKeepends_flatten (List.forall_mem_map.mpr fun edit hedit => (hnew edit hedit).1) ?_
    rw [← List.map_dropLast, List.forall_mem_map]
    rw [← List.map_dropLast, List.forall_mem_map] at hend
    exact fun edit hedit => (hnew edit (List.dropLast_subset _ hedit)).2 (hend edit hedit)
  refine ⟨script, hamends.source.trans hsource, hsplit.symm ▸ hscript, ?_, ?_, ?_⟩
  · refine List.perm_iff_count.mpr fun text => ?_
    rw [hamends.deletedCount, hdeleted, List.count_nil, Nat.zero_add]
    exact (hperm.flatMap_right _).count_eq text
  · refine List.perm_iff_count.mpr fun text => ?_
    rw [hamends.insertedCount, hinserted, List.count_nil, Nat.zero_add]
    exact (hperm.flatMap_right _).count_eq text
  · refine hamends.matched fun edit hedit => ?_
    obtain ⟨line, -, rfl⟩ := List.mem_map.mp hedit
    trivial

/-! ### One hunk on a file whose last line is ended -/

theorem script_lengths (script : List Edit) :
    (script.filterMap Edit.source?).length + (script.filterMap Edit.inserted?).length =
      (script.filterMap Edit.target?).length + (script.filterMap Edit.deleted?).length := by
  induction script with
  | nil => rfl
  | cons edit script ih =>
      cases edit <;>
        simp only [List.filterMap_cons, Edit.source?, Edit.inserted?, Edit.target?, Edit.deleted?,
          List.length_cons] <;> omega

theorem ExactUpdate.length_eq {before after : List Str} (h : ExactUpdate hunks before after) :
    before.length + (hunks.flatMap Hunk.addedLines).length =
      after.length + (hunks.flatMap Hunk.deletedLines).length := by
  obtain ⟨script, rfl, rfl, hdeleted, hinserted, -⟩ := h
  rw [← hdeleted.length_eq, ← hinserted.length_eq, script_lengths]

theorem newLines_spec {lines : List Str} (raws : List Str) {start : Int} {new : List Str}
    (h : newLines lines start raws = .ok new) :
    new.length + (markedWith '-' raws).length =
        raws.countP isWalked + (markedWith '+' raws).length ∧
      ∀ line ∈ new, line ∈ lines ∨ line ∈ (markedWith '+' raws).map addedText := by
  fun_induction newLines lines start raws generalizing new with
  | case1 start =>
      obtain rfl := Except.ok.inj h
      simp [markedWith]
  | case2 start raws ih => exact ih h
  | case3 start content raws hnone => simp at h
  | case4 start content raws line hline ih =>
      cases hrest : newLines lines (start + 1) raws with
      | error e => simp [hrest, Except.map] at h
      | ok rest =>
          simp only [hrest, Except.map, Except.ok.injEq] at h
          subst h
          obtain ⟨hlength, hmem⟩ := ih hrest
          rw [markedWith_cons_ne (by decide), markedWith_cons_ne (by decide),
            List.countP_cons_of_pos (by simp [isWalked]), List.length_cons]
          exact ⟨by omega, List.forall_mem_cons.mpr ⟨.inl (mem_of_item? hline), hmem⟩⟩
  | case5 start content raws _ ih =>
      obtain ⟨hlength, hmem⟩ := ih h
      rw [markedWith_cons_self, markedWith_cons_ne (by decide),
        List.countP_cons_of_pos (by simp [isWalked]), List.length_cons]
      exact ⟨by omega, hmem⟩
  | case6 start content raws _ _ ih =>
      cases hrest : newLines lines start raws with
      | error e => simp [hrest, Except.map] at h
      | ok rest =>
          simp only [hrest, Except.map, Except.ok.injEq] at h
          subst h
          obtain ⟨hlength, hmem⟩ := ih hrest
          rw [markedWith_cons_self, markedWith_cons_ne (by decide),
            List.countP_cons_of_neg (by simp [isWalked]), List.length_cons, List.length_cons,
            List.map_cons]
          refine ⟨by omega, List.forall_mem_cons.mpr ⟨.inr List.mem_cons_self, fun line hline => ?_⟩⟩
          exact (hmem line hline).imp_right (List.mem_cons_of_mem _)
  | case7 start mark content raws hspace hminus hplus ih =>
      obtain ⟨hlength, hmem⟩ := ih h
      rw [markedWith_cons_ne hminus, markedWith_cons_ne hplus,
        List.countP_cons_of_neg (by simp [isWalked, hspace, hminus])]
      exact ⟨hlength, hmem⟩

theorem mem_rebuild {α : Type} {fresh : Str → α} {raws : List Str} {walked : List α} {x : α}
    (h : x ∈ rebuild fresh raws walked) : x ∈ walked ∨ ∃ content, x = fresh content := by
  fun_induction rebuild fresh raws walked with
  | case1 => simp at h
  | case2 raws walked ih => exact ih h
  | case3 content raws walked ih =>
      rcases List.mem_append.mp h with h | h
      · exact .inl (List.mem_of_mem_head? (by simpa using h))
      · exact (ih h).imp_left List.mem_of_mem_tail
  | case4 content raws walked _ ih => exact (ih h).imp_left List.mem_of_mem_tail
  | case5 content raws walked _ _ ih =>
      rcases List.mem_cons.mp h with h | h
      · exact .inr ⟨content, h⟩
      · exact ih h
  | case6 mark content raws walked _ _ _ ih => exact ih h

theorem mem_walkedDeletions {α : Type} {raws : List Str} {walked : List α} {x : α}
    (h : x ∈ walkedDeletions raws walked) : x ∈ walked := by
  fun_induction walkedDeletions raws walked with
  | case1 => simp at h
  | case2 raws walked ih => exact ih h
  | case3 content raws walked ih => exact List.mem_of_mem_tail (ih h)
  | case4 content raws walked _ ih =>
      rcases List.mem_append.mp h with h | h
      · exact List.mem_of_mem_head? (by simpa using h)
      · exact List.mem_of_mem_tail (ih h)
  | case5 mark content raws walked _ _ ih => exact ih h

theorem splicesCover_singleton {lines : List Str} {hunk : Hunk}
    (hends : ∀ line ∈ lines, isTerminated line = true) (h : hunk.Consistent lines.length) :
    SplicesCover (lines.map lineOrigin) [hunk] := by
  have horigins : ∀ origin ∈ lines.map lineOrigin, origin = .original :=
    List.forall_mem_map.mpr fun line hline => if_pos (hends line hline)
  have hsegment : ∀ origin ∈ hunk.segment (lines.map lineOrigin), origin = .original :=
    fun origin horigin => horigins origin (List.mem_of_mem_drop (List.mem_of_mem_take horigin))
  refine ⟨by rwa [List.length_map], fun origin horigin => ?_, fun origin horigin => ?_⟩
  · rw [hsegment origin (mem_walkedDeletions horigin)]
    decide
  · have hmem := List.dropLast_subset _ horigin
    simp only [Hunk.splice, List.mem_append] at hmem
    rcases hmem with (hmem | hmem) | hmem
    · rw [horigins origin (List.mem_of_mem_take hmem)]
      decide
    · rcases mem_rebuild hmem with hmem | ⟨-, rfl⟩
      · rw [hsegment origin hmem]
        decide
      · decide
    · rw [horigins origin (List.mem_of_mem_drop hmem)]
      decide

theorem consistent_of_exactUpdate {hunk : Hunk} (hread : '\r' ∉ content)
    (hlines : ∀ line ∈ hunk.lines, SingleLine line)
    (hends : ∀ line ∈ splitlinesKeepends content, isTerminated line = true)
    (h : applyUpdateContent content [hunk] = .ok result)
    (hexact : ExactUpdate [hunk] (splitlinesKeepends content) (splitlinesKeepends result)) :
    hunk.Consistent (splitlinesKeepends content).length := by
  obtain ⟨lines', happly, rfl⟩ := applyUpdateContent_ok h
  rw [applicationOrder, List.insertionSort_cons, List.insertionSort_nil, List.orderedInsert_nil] at happly
  obtain ⟨middle, hmiddle, hrest⟩ := applyHunks_cons happly
  obtain rfl := Except.ok.inj hrest
  obtain ⟨-, new, hnew, rfl⟩ := applyHunk_ok hmiddle
  obtain ⟨hlength, hmem⟩ := newLines_spec hunk.lines hnew
  have hold := (splitlinesKeepends_lines hread).1
  have hall : ∀ line ∈ sliceTo (splitlinesKeepends content) hunk.pos ++ new ++
      sliceFrom (splitlinesKeepends content) (hunk.pos + hunk.oldCount),
      IsLine line ∧ isTerminated line = true := by
    intro line hline
    simp only [List.mem_append] at hline
    rcases hline with (hline | hline) | hline
    · have hline := List.mem_of_mem_take hline
      exact ⟨hold line hline, hends line hline⟩
    · rcases hmem line hline with hline | hline
      · exact ⟨hold line hline, hends line hline⟩
      · exact addedLines_line hlines hline
    · have hline := List.mem_of_mem_drop hline
      exact ⟨hold line hline, hends line hline⟩
  have hcount := hexact.length_eq
  rw [splitlinesKeepends_flatten (fun line hline => (hall line hline).1)
    fun line hline => (hall line (List.dropLast_subset _ hline)).2] at hcount
  simp only [List.flatMap_singleton, Hunk.addedLines, Hunk.deletedLines, List.length_map,
    List.length_append, length_sliceTo, length_sliceFrom] at hcount
  unfold Hunk.Consistent Hunk.walked
  omega

/-- An update is exact when its splices cover what they walk; for one hunk on a file whose last
line is ended this is also necessary, and says that the splice is consistent. The content is as a
file is read, without carriage returns, and the hunk lines are single lines, as the parser cuts
them. -/
theorem applyUpdateContent_exact (hread : '\r' ∉ content)
    (hlines : ∀ hunk ∈ hunks, ∀ line ∈ hunk.lines, SingleLine line)
    (h : applyUpdateContent content hunks = .ok result) :
    (SplicesCover ((splitlinesKeepends content).map lineOrigin) (applicationOrder hunks) →
      ExactUpdate hunks (splitlinesKeepends content) (splitlinesKeepends result)) ∧
    ∀ hunk, hunks = [hunk] → (∀ line ∈ splitlinesKeepends content, isTerminated line = true) →
      (ExactUpdate hunks (splitlinesKeepends content) (splitlinesKeepends result) ↔
        hunk.Consistent (splitlinesKeepends content).length) := by
  refine ⟨exactUpdate_of_splicesCover hread hlines h, ?_⟩
  rintro hunk rfl hends
  refine ⟨consistent_of_exactUpdate hread (hlines hunk List.mem_cons_self) hends h, fun hc => ?_⟩
  refine exactUpdate_of_splicesCover hread hlines h ?_
  rw [applicationOrder, List.insertionSort_cons, List.insertionSort_nil, List.orderedInsert_nil]
  exact splicesCover_singleton hends hc

def greekHunks : List Hunk :=
  [{ oldStart := 1
     oldCount := 1
     newStart := 1
     newCount := 1
     lines := ["-alpha".toList, "+ALPHA".toList] },
   { oldStart := 2
     oldCount := 1
     newStart := 2
     newCount := 2
     lines := [" beta".toList, "+gamma".toList] }]

theorem greekHunks_exact :
    ExactUpdate greekHunks (splitlinesKeepends "alpha\nbeta\n".toList)
      (splitlinesKeepends "ALPHA\nbeta\ngamma\n".toList) :=
  (applyUpdateContent_exact (by decide) (by decide) (by decide +kernel)).1 (by decide +kernel)

def appendHunk : Hunk :=
  { oldStart := 1
    oldCount := 1
    newStart := 1
    newCount := 2
    lines := [" alpha".toList, "+beta".toList] }

/-- The added line is joined to the old one: the result is the single line `alphabeta`. -/
theorem added_line_joins_last_line :
    ¬ ∀ content hunks result, '\r' ∉ content →
      (∀ hunk ∈ hunks, ∀ line ∈ hunk.lines, SingleLine line) →
      applyUpdateContent content hunks = .ok result →
      ExactUpdate hunks (splitlinesKeepends content) (splitlinesKeepends result) := by
  intro hall
  have hexact := hall "alpha".toList [appendHunk] "alphabeta\n".toList (by decide) (by decide)
    (by decide +kernel)
  exact absurd hexact.length_eq (by decide)

end OpenStarry.Patch
