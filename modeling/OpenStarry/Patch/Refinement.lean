import OpenStarry.Patch.Apply
import OpenStarry.Patch.Update

/-!
# Planning and committing refine the direct execution

The direct execution performs the operations one after another on the file system. Whenever
planning and preflight pass, the commit meets no error and leaves the file system that the direct
execution leaves. The simulation relates the overlay of planned contents, the path states of the
preflight and the file system at the same point of the direct execution.
-/

namespace OpenStarry.Patch

open Lib Lib.Text

/-! ### Performing operations directly -/

section Direct

variable {ε : Type} (validatePath : Str → Except ε AbsPath)

def performOp (fs : FileSystem) : PatchOp → Except (PlanError ε) FileSystem
  | .addFile path content => do
      let resolved ← resolve validatePath path
      if fs.Exists resolved then throw (.targetExists path)
      else
        let fs' ← (fs.mkdirParents resolved.parent).mapError .os
        (fs'.writeText resolved content).mapError .os
  | .updateFile path hunks => do
      let resolved ← resolve validatePath path
      if !fs.Exists resolved then throw (.updateMissing path)
      else
        let text ← (fs.readText resolved).mapError .os
        let content ← (applyUpdateContent text hunks).mapError .hunk
        (fs.writeText resolved content).mapError .os
  | .deleteFile path => do
      let resolved ← resolve validatePath path
      if !fs.Exists resolved then throw (.deleteMissing path)
      else (fs.unlink resolved).mapError .os

def performOps : FileSystem → List PatchOp → Except (PlanError ε) FileSystem
  | fs, [] => .ok fs
  | fs, op :: rest => do
      let fs' ← performOp validatePath fs op
      performOps fs' rest

end Direct

/-! ### Texts without carriage returns -/

def PatchOp.NoReturn : PatchOp → Prop
  | .addFile _ content => '\r' ∉ content
  | .updateFile _ hunks => ∀ hunk ∈ hunks, ∀ line ∈ hunk.lines, '\r' ∉ line
  | .deleteFile _ => True

instance : DecidablePred PatchOp.NoReturn
  | .addFile _ content => inferInstanceAs (Decidable ('\r' ∉ content))
  | .updateFile _ hunks =>
      inferInstanceAs (Decidable (∀ hunk ∈ hunks, ∀ line ∈ hunk.lines, '\r' ∉ line))
  | .deleteFile _ => inferInstanceAs (Decidable True)

theorem addedText_noReturn {content : Str} (h : '\r' ∉ content) : '\r' ∉ addedText content := by
  rw [addedText]
  split_ifs
  · exact h
  · simpa using h

theorem applyHunk_noReturn {lines lines' : List Str} {hunk : Hunk}
    (h : applyHunk lines hunk = .ok lines') (hlines : ∀ line ∈ lines, '\r' ∉ line)
    (hhunk : ∀ line ∈ hunk.lines, '\r' ∉ line) : ∀ line ∈ lines', '\r' ∉ line := by
  obtain ⟨-, new, hnew, rfl⟩ := applyHunk_ok h
  obtain ⟨-, hmem⟩ := newLines_spec hunk.lines hnew
  intro line hline
  simp only [List.mem_append] at hline
  rcases hline with (hline | hline) | hline
  · exact hlines line (List.mem_of_mem_take hline)
  · rcases hmem line hline with hold | hadded
    · exact hlines line hold
    · obtain ⟨content, hcontent, rfl⟩ := List.mem_map.mp hadded
      exact addedText_noReturn fun hreturn =>
        hhunk _ (mem_of_mem_markedWith hcontent) (List.mem_cons_of_mem _ hreturn)
  · exact hlines line (List.mem_of_mem_drop hline)

theorem applyHunks_noReturn {lines lines' : List Str} {hunks : List Hunk}
    (h : applyHunks lines hunks = .ok lines') (hlines : ∀ line ∈ lines, '\r' ∉ line)
    (hhunks : ∀ hunk ∈ hunks, ∀ line ∈ hunk.lines, '\r' ∉ line) : ∀ line ∈ lines', '\r' ∉ line := by
  induction hunks generalizing lines with
  | nil => exact Except.ok.inj h ▸ hlines
  | cons hunk hunks ih =>
      obtain ⟨middle, hmiddle, hrest⟩ := applyHunks_cons h
      exact ih hrest (applyHunk_noReturn hmiddle hlines (hhunks hunk List.mem_cons_self))
        fun other hother => hhunks other (List.mem_cons_of_mem _ hother)

theorem applyUpdateContent_noReturn {text result : Str} {hunks : List Hunk}
    (h : applyUpdateContent text hunks = .ok result) (htext : '\r' ∉ text)
    (hhunks : ∀ hunk ∈ hunks, ∀ line ∈ hunk.lines, '\r' ∉ line) : '\r' ∉ result := by
  obtain ⟨lines', hlines', rfl⟩ := applyUpdateContent_ok h
  have hold : ∀ line ∈ splitlinesKeepends text, '\r' ∉ line := fun line hline =>
    ((splitlinesKeepends_lines htext).1 line hline).noReturn
  have hnew := applyHunks_noReturn hlines' hold fun hunk hhunk =>
    hhunks hunk ((applicationOrder_perm hunks).mem_iff.mp hhunk)
  intro hreturn
  obtain ⟨line, hline, hmem⟩ := List.mem_flatten.mp hreturn
  exact hnew line hline hmem

/-! ### What the preflight establishes -/

theorem preflightAncestors_ok {fs : FileSystem} {above : List AbsPath} {states states' : PathStates}
    (h : preflightAncestors fs states above = .ok states') :
    (∀ path, states' path = if path ∈ above then some .dir else states path) ∧
      ∀ path ∈ above, states path ≠ some .file ∧
        (states path = none → fs.isFile path = false) := by
  induction above generalizing states with
  | nil =>
      obtain rfl := Except.ok.inj h
      simp
  | cons ancestor rest ih =>
      rw [preflightAncestors] at h
      split at h
      · simp at h
      · rename_i hdir
        obtain ⟨hstates, hfree⟩ := ih h
        refine ⟨fun path => ?_, List.forall_mem_cons.mpr ⟨by simp [hdir], hfree⟩⟩
        rw [hstates]
        by_cases heq : path = ancestor
        · simp [heq, hdir]
        · simp [heq]
      · rename_i hfile hdir
        split_ifs at h with hblocked
        obtain ⟨hstates, hfree⟩ := ih h
        have hancestor : states ancestor = none → fs.isFile ancestor = false := by
          intro hnone
          rw [fs.isFile_eq]
          simpa [hnone] using hblocked
        refine ⟨fun path => ?_, List.forall_mem_cons.mpr ⟨⟨hfile, hancestor⟩, fun path hpath => ?_⟩⟩
        · rw [hstates]
          by_cases heq : path = ancestor
          · simp [heq]
          · simp [heq]
        · by_cases heq : path = ancestor
          · exact heq ▸ ⟨hfile, hancestor⟩
          · have hpath := hfree path hpath
            rwa [Function.update_of_ne heq] at hpath

/-! ### The simulation -/

def Stands (start fs : FileSystem) (path : AbsPath) : Option PathState → Prop
  | none => fs.node path = start.node path
  | some .file => fs.isFile path = true
  | some .dir => fs.node path = some .dir
  | some .absent => fs.node path = none

theorem Stands.congr {start fs fs' : FileSystem} {path : AbsPath} {state : Option PathState}
    (h : Stands start fs path state) (hnode : fs'.node path = fs.node path) :
    Stands start fs' path state := by
  cases state with
  | none => exact hnode.trans h
  | some state =>
      cases state with
      | file =>
          obtain ⟨content, hcontent⟩ := fs.isFile_iff.mp h
          exact fs'.isFile_iff.mpr ⟨content, hnode.trans hcontent⟩
      | dir => exact hnode.trans h
      | absent => exact hnode.trans h

/-- Overlay, path states and file system after the same operations. -/
structure Simulates (start : FileSystem) (virtual : VirtualContent) (states : PathStates)
    (fs : FileSystem) : Prop where
  stands : ∀ path, Stands start fs path (states path)
  content : ∀ path text, virtual path = some (some text) →
    fs.node path = some (.file (.text text)) ∧ '\r' ∉ text
  deleted : ∀ path, virtual path = some none →
    states path = some .absent ∨ states path = some .dir
  untouched : ∀ path, virtual path = none → states path = none ∨ states path = some .dir

theorem Simulates.start (fs : FileSystem) : Simulates fs (fun _ => none) (fun _ => none) fs :=
  { stands := fun _ => rfl
    content := fun _ _ h => by simp at h
    deleted := fun _ h => by simp at h
    untouched := fun _ _ => .inl rfl }

section Step

variable {start fs : FileSystem} {virtual : VirtualContent} {states states' : PathStates}
  {item : PlannedPatchWrite}

theorem Simulates.delete_step (h : Simulates start virtual states fs)
    (hdelete : item.afterContent = none) (hitem : preflightItem start states item = .ok states') :
    fs.isFile item.resolved = true ∧ ∃ fs', fs.unlink item.resolved = .ok fs' ∧
      Simulates start (Function.update virtual item.resolved (some none)) states' fs' := by
  have hfile : fs.isFile item.resolved = true ∧
      states' = Function.update states item.resolved (some .absent) := by
    have hstands := h.stands item.resolved
    unfold preflightItem at hitem
    rw [hdelete] at hitem
    simp only at hitem
    cases hstate : states item.resolved with
    | none =>
        rw [hstate] at hstands hitem
        simp only at hitem
        split_ifs at hitem with hmissing hdir
        refine ⟨?_, (Except.ok.inj hitem).symm⟩
        have hsame : fs.node item.resolved = start.node item.resolved := hstands
        have hstart : start.isFile item.resolved = true := by
          rw [start.isFile_eq]
          simp_all
        rw [FileSystem.isFile_iff] at hstart ⊢
        rwa [hsame]
    | some state =>
        rw [hstate] at hstands hitem
        cases state with
        | file => exact ⟨hstands, (Except.ok.inj hitem).symm⟩
        | dir => simp at hitem
        | absent => simp at hitem
  obtain ⟨hfile, rfl⟩ := hfile
  obtain ⟨fs', hunlink, hnode⟩ := FileSystem.unlink_ok hfile
  refine ⟨hfile, fs', hunlink, ?_, ?_, ?_, ?_⟩
  · intro path
    by_cases heq : path = item.resolved
    · subst heq
      rw [Function.update_self]
      exact (congrFun hnode _).trans (Function.update_self _ _ _)
    · rw [Function.update_of_ne heq]
      exact (h.stands path).congr (by rw [hnode, Function.update_of_ne heq])
  · intro path text hvirtual
    have heq : path ≠ item.resolved := by
      rintro rfl
      simp at hvirtual
    rw [Function.update_of_ne heq] at hvirtual
    rw [hnode, Function.update_of_ne heq]
    exact h.content path text hvirtual
  · intro path hvirtual
    by_cases heq : path = item.resolved
    · exact .inl (by rw [heq, Function.update_self])
    · rw [Function.update_of_ne heq] at hvirtual ⊢
      exact h.deleted path hvirtual
  · intro path hvirtual
    have heq : path ≠ item.resolved := by
      rintro rfl
      simp at hvirtual
    rw [Function.update_of_ne heq] at hvirtual ⊢
    exact h.untouched path hvirtual

/-- What a write that passes the preflight has shown, and what it leaves in the path states. -/
structure WritePasses (start : FileSystem) (states states' : PathStates) (target : AbsPath) :
    Prop where
  above : ¬ target <+: target.parent
  notDir : states target ≠ some .dir
  startNotDir : states target = none → start.node target ≠ some .dir
  noFile : ∀ path, path <+: target.parent → states path ≠ some .file ∧
    (states path = none → start.isFile path = false)
  written : states' target = some .file
  other : ∀ path, path ≠ target →
    states' path = if path <+: target.parent then some .dir else states path

theorem preflightItem_write {content : Str} (hwrite : item.afterContent = some content)
    (hitem : preflightItem start states item = .ok states') :
    WritePasses start states states' item.resolved := by
  unfold preflightItem at hitem
  rw [hwrite] at hitem
  obtain ⟨marked, hmarked, hitem⟩ := bind_eq_ok.mp hitem
  obtain ⟨hstates, hfree⟩ := preflightAncestors_ok hmarked
  simp only [AbsPath.mem_ancestors] at hstates hfree
  split at hitem
  · exact absurd hitem throw_ne_ok
  rename_i hnotDir
  split at hitem
  · exact absurd hitem throw_ne_ok
  rename_i hstart
  obtain rfl := pure_eq_ok.mp hitem
  -- the ancestors have been marked as directories, so the target is not among them
  have habove : ¬ item.resolved <+: item.resolved.parent := fun hpre =>
    hnotDir (by rw [hstates, if_pos hpre])
  rw [hstates, if_neg habove] at hnotDir hstart
  exact
    { above := habove
      notDir := hnotDir
      startNotDir := fun hnone => by simpa [hnone, FileSystem.isDir] using hstart
      noFile := hfree
      written := Function.update_self _ _ _
      other := fun path hne => by rw [Function.update_of_ne hne, hstates] }

theorem Simulates.write_step (h : Simulates start virtual states fs) {content : Str}
    (hreturn : '\r' ∉ content) (hpasses : WritePasses start states states' item.resolved) :
    ∃ fs' fs'', fs.mkdirParents item.resolved.parent = .ok fs' ∧
      fs'.writeText item.resolved content = .ok fs'' ∧
      Simulates start (Function.update virtual item.resolved (some (some content))) states' fs'' := by
  have hnoFile : ∀ above, above <+: item.resolved.parent → fs.isFile above = false := by
    intro above hpre
    obtain ⟨hfile, hnone⟩ := hpasses.noFile above hpre
    have hstands := h.stands above
    rw [FileSystem.isFile_eq_false_iff]
    cases hstate : states above with
    | none =>
        rw [hstate] at hstands
        have hsame : fs.node above = start.node above := hstands
        rw [hsame]
        exact start.isFile_eq_false_iff.mp (hnone hstate)
    | some state =>
        rw [hstate] at hstands
        cases state with
        | file => exact absurd hstate hfile
        | dir => exact .inr hstands
        | absent => exact .inl hstands
  obtain ⟨fs', hmkdir, hnode'⟩ := FileSystem.mkdirParents_ok hnoFile
  have htarget : fs'.node item.resolved ≠ some .dir := by
    rw [hnode', if_neg hpasses.above]
    have hstands := h.stands item.resolved
    cases hstate : states item.resolved with
    | none =>
        rw [hstate] at hstands
        have hsame : fs.node item.resolved = start.node item.resolved := hstands
        rw [hsame]
        exact hpasses.startNotDir hstate
    | some state =>
        rw [hstate] at hstands
        cases state with
        | file =>
            obtain ⟨stored, hstored⟩ := fs.isFile_iff.mp hstands
            simp [hstored]
        | dir => exact absurd hstate hpasses.notDir
        | absent =>
            have hgone : fs.node item.resolved = none := hstands
            simp [hgone]
  have hparent : fs'.node item.resolved.parent = some .dir := by
    rw [hnode', if_pos (List.prefix_refl _)]
  obtain ⟨fs'', hfs'', hnode''⟩ := FileSystem.writeText_ok htarget hparent content
  refine ⟨fs', fs'', hmkdir, hfs'', ?_, ?_, ?_, ?_⟩
  · intro path
    by_cases heq : path = item.resolved
    · subst heq
      rw [hpasses.written]
      exact fs''.isFile_iff.mpr ⟨_, (congrFun hnode'' _).trans (Function.update_self _ _ _)⟩
    · rw [hpasses.other path heq]
      have hnode : fs''.node path = if path <+: item.resolved.parent then some .dir
          else fs.node path := by
        rw [hnode'', Function.update_of_ne heq, hnode']
      split_ifs at hnode ⊢
      · exact hnode
      · exact (h.stands path).congr hnode
  · intro path text hvirtual
    by_cases heq : path = item.resolved
    · subst heq
      rw [Function.update_self, Option.some.injEq, Option.some.injEq] at hvirtual
      subst hvirtual
      exact ⟨(congrFun hnode'' _).trans (Function.update_self _ _ _), hreturn⟩
    · rw [Function.update_of_ne heq] at hvirtual
      obtain ⟨hstored, htext⟩ := h.content path text hvirtual
      have hbelow : ¬ path <+: item.resolved.parent := by
        intro hpre
        have := hnoFile path hpre
        rw [FileSystem.isFile_eq_false_iff, hstored] at this
        simp at this
      rw [hnode'', Function.update_of_ne heq, hnode', if_neg hbelow]
      exact ⟨hstored, htext⟩
  · intro path hvirtual
    have heq : path ≠ item.resolved := by
      rintro rfl
      simp at hvirtual
    rw [Function.update_of_ne heq] at hvirtual
    rw [hpasses.other path heq]
    split_ifs
    · exact .inr rfl
    · exact h.deleted path hvirtual
  · intro path hvirtual
    have heq : path ≠ item.resolved := by
      rintro rfl
      simp at hvirtual
    rw [Function.update_of_ne heq] at hvirtual
    rw [hpasses.other path heq]
    split_ifs
    · exact .inr rfl
    · exact h.untouched path hvirtual

variable {ε : Type} {validatePath : Str → Except ε AbsPath}

theorem planOp_addFile {path content : Str}
    (h : planOp validatePath start virtual (.addFile path content) = .ok item) :
    ∃ resolved, resolve validatePath path = .ok resolved ∧
      item = { path, resolved, afterContent := some content, operation := .add } ∧
      (virtual resolved = none ∧ start.Exists resolved = false ∨ virtual resolved = some none) := by
  obtain ⟨resolved, hresolved, h⟩ := bind_eq_ok.mp h
  refine ⟨resolved, hresolved, ?_⟩
  cases hvirtual : virtual resolved with
  | none =>
      simp only [hvirtual] at h
      obtain ⟨again, hagain, h⟩ := bind_eq_ok.mp h
      obtain rfl := Except.ok.inj (hresolved.symm.trans hagain)
      split at h
      · exact absurd h throw_ne_ok
      · rename_i hexists
        exact ⟨(pure_eq_ok.mp h).symm, .inl ⟨rfl, by simpa using hexists⟩⟩
  | some current =>
      simp only [hvirtual, planAgain] at h
      split at h
      · exact absurd h throw_ne_ok
      · rename_i hcurrent
        exact ⟨(pure_eq_ok.mp h).symm, .inr (by simpa using hcurrent)⟩

theorem planOp_updateFile {path : Str} {hunks : List Hunk}
    (h : planOp validatePath start virtual (.updateFile path hunks) = .ok item) :
    ∃ resolved text content, resolve validatePath path = .ok resolved ∧
      applyUpdateContent text hunks = .ok content ∧
      item = { path, resolved, afterContent := some content, operation := .update } ∧
      (virtual resolved = none ∧ start.readText resolved = .ok text ∨
        virtual resolved = some (some text)) := by
  obtain ⟨resolved, hresolved, h⟩ := bind_eq_ok.mp h
  cases hvirtual : virtual resolved with
  | none =>
      simp only [hvirtual] at h
      obtain ⟨again, hagain, h⟩ := bind_eq_ok.mp h
      obtain rfl := Except.ok.inj (hresolved.symm.trans hagain)
      split at h
      · exact absurd h throw_ne_ok
      · obtain ⟨text, htext, h⟩ := bind_eq_ok.mp h
        obtain ⟨content, hcontent, h⟩ := bind_eq_ok.mp h
        rw [mapError_eq_ok] at htext hcontent
        exact ⟨resolved, text, content, hresolved, hcontent, (pure_eq_ok.mp h).symm,
          .inl ⟨hvirtual, htext⟩⟩
  | some current =>
      simp only [hvirtual, planAgain] at h
      cases current with
      | none => exact absurd h throw_ne_ok
      | some text =>
          obtain ⟨content, hcontent, h⟩ := bind_eq_ok.mp h
          rw [mapError_eq_ok] at hcontent
          exact ⟨resolved, text, content, hresolved, hcontent, (pure_eq_ok.mp h).symm,
            .inr hvirtual⟩

theorem planOp_deleteFile {path : Str}
    (h : planOp validatePath start virtual (.deleteFile path) = .ok item) :
    ∃ resolved, resolve validatePath path = .ok resolved ∧
      item = { path, resolved, afterContent := none, operation := .delete } := by
  obtain ⟨resolved, hresolved, h⟩ := bind_eq_ok.mp h
  refine ⟨resolved, hresolved, ?_⟩
  cases hvirtual : virtual resolved with
  | none =>
      simp only [hvirtual] at h
      obtain ⟨again, hagain, h⟩ := bind_eq_ok.mp h
      obtain rfl := Except.ok.inj (hresolved.symm.trans hagain)
      split at h
      · exact absurd h throw_ne_ok
      · exact (pure_eq_ok.mp h).symm
  | some current =>
      simp only [hvirtual, planAgain] at h
      split at h
      · exact absurd h throw_ne_ok
      · exact (pure_eq_ok.mp h).symm

theorem Simulates.readText (h : Simulates start virtual states fs) {path : AbsPath} {text : Str}
    (hnotDir : states path ≠ some .dir)
    (hread : virtual path = none ∧ start.readText path = .ok text ∨
      virtual path = some (some text)) :
    fs.readText path = .ok text ∧ '\r' ∉ text ∧ fs.isFile path = true := by
  rcases hread with ⟨hvirtual, hread⟩ | hvirtual
  · have hstate : states path = none := (h.untouched path hvirtual).resolve_right hnotDir
    have hsame : fs.node path = start.node path := by
      have := h.stands path
      rwa [hstate] at this
    obtain ⟨⟨stored, hstored⟩, hreturn⟩ := FileSystem.node_of_readText hread
    exact ⟨(FileSystem.readText_congr hsame).trans hread, hreturn,
      fs.isFile_iff.mpr ⟨_, hsame.trans hstored⟩⟩
  · obtain ⟨hstored, hreturn⟩ := h.content path text hvirtual
    exact ⟨FileSystem.readText_text hstored hreturn, hreturn, fs.isFile_iff.mpr ⟨_, hstored⟩⟩

theorem Simulates.absent (h : Simulates start virtual states fs) {path : AbsPath}
    (hnotDir : states path ≠ some .dir)
    (hfree : virtual path = none ∧ start.Exists path = false ∨ virtual path = some none) :
    fs.Exists path = false := by
  rcases hfree with ⟨hvirtual, hstart⟩ | hvirtual
  · have hstate : states path = none := (h.untouched path hvirtual).resolve_right hnotDir
    have hsame : fs.node path = start.node path := by
      have := h.stands path
      rwa [hstate] at this
    rwa [FileSystem.Exists, hsame]
  · have hstate := (h.deleted path hvirtual).resolve_right hnotDir
    have hgone : fs.node path = none := by
      have := h.stands path
      rwa [hstate] at this
    rw [FileSystem.Exists, hgone]
    rfl

theorem mkdirParents_of_isFile {path : AbsPath} (h : fs.isFile path = true) :
    fs.mkdirParents path.parent = .ok fs := by
  obtain ⟨stored, hstored⟩ := fs.isFile_iff.mp h
  have hne : path ≠ [] := fs.ne_nil_of_node_ne_dir (by simp [hstored])
  exact FileSystem.mkdirParents_eq_self (fs.parent_dir path hne (by simp [hstored]))

theorem Simulates.op_step (h : Simulates start virtual states fs) {op : PatchOp}
    (hop : op.NoReturn) (hplan : planOp validatePath start virtual op = .ok item)
    (hitem : preflightItem start states item = .ok states') :
    ∃ fs', commitItem fs item = (fs', .ok ()) ∧ performOp validatePath fs op = .ok fs' ∧
      Simulates start (Function.update virtual item.resolved (some item.afterContent)) states' fs' := by
  cases op with
  | addFile path content =>
      obtain ⟨resolved, hresolved, rfl, hfree⟩ := planOp_addFile hplan
      have hpasses := preflightItem_write rfl hitem
      obtain ⟨fs', fs'', hmkdir, hwrite, hnext⟩ := h.write_step hop hpasses
      have habsent := h.absent hpasses.notDir hfree
      dsimp only at hmkdir hwrite
      refine ⟨fs'', ?_, ?_, hnext⟩
      · rw [commitItem]
        simp only [hmkdir, hwrite]
      · rw [performOp, hresolved]
        simp only [bind, Except.bind, habsent, hmkdir, hwrite, Except.mapError]
        rfl
  | updateFile path hunks =>
      obtain ⟨resolved, text, content, hresolved, hcontent, rfl, hread⟩ := planOp_updateFile hplan
      have hpasses := preflightItem_write rfl hitem
      obtain ⟨hreadText, hreturn, hfile⟩ := h.readText hpasses.notDir hread
      obtain ⟨fs', fs'', hmkdir, hwrite, hnext⟩ :=
        h.write_step (applyUpdateContent_noReturn hcontent hreturn hop) hpasses
      dsimp only at hmkdir hwrite
      obtain rfl := Except.ok.inj ((mkdirParents_of_isFile hfile).symm.trans hmkdir)
      refine ⟨fs'', ?_, ?_, hnext⟩
      · rw [commitItem]
        simp only [hmkdir, hwrite]
      · rw [performOp, hresolved]
        simp only [bind, Except.bind, fs.exists_of_isFile hfile, hreadText, hcontent, hwrite,
          Except.mapError]
        rfl
  | deleteFile path =>
      obtain ⟨resolved, hresolved, rfl⟩ := planOp_deleteFile hplan
      obtain ⟨hfile, fs', hunlink, hnext⟩ := h.delete_step rfl hitem
      dsimp only at hfile hunlink
      refine ⟨fs', ?_, ?_, hnext⟩
      · rw [commitItem]
        simp only [hunlink]
      · rw [performOp, hresolved]
        simp only [bind, Except.bind, fs.exists_of_isFile hfile, hunlink, Except.mapError]
        rfl

end Step

/-! ### The whole patch -/

section Run

variable {ε : Type} {validatePath : Str → Except ε AbsPath}

theorem Simulates.run {start fs : FileSystem} {virtual : VirtualContent} {states : PathStates}
    (h : Simulates start virtual states fs) {ops : List PatchOp}
    (hops : ∀ op ∈ ops, op.NoReturn) {planned : List PlannedPatchWrite}
    (hplan : planFrom validatePath start virtual ops = .ok planned)
    (hpreflight : preflightFrom start states planned = .ok ()) (counts : Counts) :
    ∃ fs' counts', commitFrom fs counts planned = (fs', .ok counts') ∧
      performOps validatePath fs ops = .ok fs' := by
  induction ops generalizing virtual states fs planned counts with
  | nil =>
      obtain rfl := pure_eq_ok.mp hplan
      exact ⟨fs, counts, rfl, rfl⟩
  | cons op rest ih =>
      obtain ⟨item, hitem, hplan⟩ := bind_eq_ok.mp hplan
      obtain ⟨items, hitems, hplan⟩ := bind_eq_ok.mp hplan
      obtain rfl := pure_eq_ok.mp hplan
      obtain ⟨states', hstates', hpreflight⟩ := bind_eq_ok.mp hpreflight
      obtain ⟨hop, hrest⟩ := List.forall_mem_cons.mp hops
      obtain ⟨fs', hcommit, hperform, hnext⟩ := h.op_step hop hitem hstates'
      obtain ⟨fs'', counts', hcommits, hperforms⟩ :=
        ih hnext hrest hitems hpreflight (counts.record item)
      refine ⟨fs'', counts', ?_, ?_⟩
      · rw [commitFrom, hcommit]
        exact hcommits
      · rw [performOps, hperform]
        exact hperforms

end Run

def splitPath (path : Str) : Except Unit AbsPath :=
  .ok ((path.splitOn '/').map String.ofList)

def notebookOps : List PatchOp :=
  [.addFile "notes/draft".toList "one\n".toList,
   .updateFile "notes/draft".toList
     [{ oldStart := 1
        oldCount := 1
        newStart := 1
        newCount := 1
        lines := ["-one".toList, "+two".toList] }],
   .deleteFile "notes/draft".toList,
   .addFile "notes/final".toList "three\n".toList]

def ApplyOutcome.isApplied {ε : Type} : ApplyOutcome ε → Bool
  | .applied _ _ => true
  | _ => false

end OpenStarry.Patch
