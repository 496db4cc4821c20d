import OpenStarry.Recovery.ConfigPatch

/-!
# A workspace patch that is cut off

Wherever the transaction is cut off, the disk is in one of a few arrangements of its five names. The
journal is finished from each of them, and only the receipt is left behind.
-/

namespace OpenStarry.Recovery.ConfigPatch

open Lib Text

variable {β : Type} {host : Host β} {base d : Disk Name β} {id : Str}

/-! ### Arrangements -/

/-- The files of a transaction; the other names are as in `base`. -/
def arrange (base : Disk Name β) (id : Str) (config staged backup journal committed : Option (File β)) :
    Disk Name β := fun name =>
  match name with
  | .config => config
  | .journal => journal
  | .staged other => if other = id then staged else base (.staged other)
  | .backup other => if other = id then backup else base (.backup other)
  | .committed other => if other = id then committed else base (.committed other)

section

variable (base id) (config staged backup journal committed file : Option (File β))

theorem arrange_staged : arrange base id config staged backup journal committed (.staged id) = staged :=
  if_pos rfl

theorem arrange_backup : arrange base id config staged backup journal committed (.backup id) = backup :=
  if_pos rfl

theorem arrange_committed :
    arrange base id config staged backup journal committed (.committed id) = committed := if_pos rfl

theorem put_config : Disk.put (arrange base id config staged backup journal committed) .config file =
    arrange base id file staged backup journal committed := by
  funext name
  cases name <;> simp [arrange, Disk.put, Function.update_apply]

theorem put_journal : Disk.put (arrange base id config staged backup journal committed) .journal file =
    arrange base id config staged backup file committed := by
  funext name
  cases name <;> simp [arrange, Disk.put, Function.update_apply]

theorem put_staged :
    Disk.put (arrange base id config staged backup journal committed) (.staged id) file =
      arrange base id config file backup journal committed := by
  funext name
  cases name with
  | staged other => by_cases hother : other = id <;> simp [arrange, Disk.put, Function.update_apply, hother]
  | _ => simp [arrange, Disk.put, Function.update_apply]

theorem put_backup :
    Disk.put (arrange base id config staged backup journal committed) (.backup id) file =
      arrange base id config staged file journal committed := by
  funext name
  cases name with
  | backup other => by_cases hother : other = id <;> simp [arrange, Disk.put, Function.update_apply, hother]
  | _ => simp [arrange, Disk.put, Function.update_apply]

theorem put_committed :
    Disk.put (arrange base id config staged backup journal committed) (.committed id) file =
      arrange base id config staged backup journal file := by
  funext name
  cases name with
  | committed other => by_cases hother : other = id <;> simp [arrange, Disk.put, Function.update_apply, hother]
  | _ => simp [arrange, Disk.put, Function.update_apply]

end

theorem arrange_self (hstaged : d (.staged id) = none) (hbackup : d (.backup id) = none)
    (hcommitted : d (.committed id) = none) :
    arrange d id (d .config) none none (d .journal) none = d := by
  funext name
  cases name with
  | config => rfl
  | journal => rfl
  | staged other => by_cases hother : other = id <;> simp [arrange, hother, hstaged]
  | backup other => by_cases hother : other = id <;> simp [arrange, hother, hbackup]
  | committed other => by_cases hother : other = id <;> simp [arrange, hother, hcommitted]

/-! ### What the programs look at -/

section

variable {name : Name} {f : File β} {expected : Identity}

theorem capture_some (h : d name = some f) :
    capture host d name = ⟨some (f.identity host.size), permissions f.mode, f.data, host.digest f.data⟩ := by
  rw [capture, h]

theorem capture_identity : (capture host d name).identity = (d name).map (File.identity host.size) := by
  rw [capture]
  cases d name <;> rfl

theorem identityMatches_iff :
    identityMatches host d name expected = true ↔
      (d name).map (File.identity host.size) = some expected := by
  rw [identityMatches, capture_identity, decide_eq_true_iff]

theorem identityMatches_of_eq (h : d name = some f) :
    identityMatches host d name (f.identity host.size) = true := by
  rw [identityMatches_iff, h]
  rfl

theorem parkedConfigMatches_of_eq (h : d name = some f) :
    parkedConfigMatches host d name (f.identity host.size) = true := by
  rw [parkedConfigMatches, capture_identity, h]
  simp [File.identity]

theorem parkedConfigMatches_chmod (h : d name = some (f.chmod 0o600)) :
    parkedConfigMatches host d name (f.identity host.size) = true := by
  have hmode : chmodMode f.mode 0o600 = (fileType f.mode ||| 0o600) := rfl
  rw [parkedConfigMatches, capture_identity, h]
  simp [File.identity, File.chmod, hmode]

theorem parkedConfigMatches_none (h : d name = none) :
    parkedConfigMatches host d name expected = false := by
  rw [parkedConfigMatches, capture_identity, h]
  rfl

theorem objectIdentityMatches_of_eq (h : d name = some f) (hdevice : f.device = expected.device)
    (hinode : f.inode = expected.inode) : objectIdentityMatches host d name expected = true := by
  rw [objectIdentityMatches, capture_identity, h]
  simp [File.identity, hdevice, hinode]

theorem assertCurrent_self (d : Disk Name β) (name : Name) :
    assertCurrent host name (capture host d name) d = ⟨[], d, .ok ()⟩ := by
  rw [assertCurrent, Prog.require]
  simp

end

/-! ### Finishing from the journal -/

/-- The journal is complete, and tells the two configs apart. -/
structure Journaled (host : Host β) (id : Str) (old : Option (File β)) (new journal : File β) :
    Prop where
  canonical : host.isCanonicalUuid id = true
  data : journal.data =
    host.encode (newPayload host id (old.map (File.identity host.size)) (new.identity host.size))
  apart : ∀ f, old = some f → ¬File.SameObject f new

section

variable {old backup : Option (File β)} {new journal f : File β}

theorem loadWorkspacePatch_eq (h : Journaled host id old new journal)
    (hjournal : d .journal = some journal) :
    loadWorkspacePatch host d = ⟨[], d, .ok (capture host d .journal,
      newPayload host id (old.map (File.identity host.size)) (new.identity host.size))⟩ := by
  have hdata : (capture host d .journal).data = journal.data := by rw [capture_some hjournal]
  have hidentity : (capture host d .journal).identity ≠ none := by
    rw [capture_some hjournal]
    exact Option.some_ne_none _
  have hvalid : isWorkspacePatch host
      (newPayload host id (old.map (File.identity host.size)) (new.identity host.size)) = true := by
    simp [isWorkspacePatch, newPayload, h.canonical]
  rw [loadWorkspacePatch, Prog.bind_read, if_neg hidentity, hdata, h.data, host.decode_encode]
  dsimp only
  rw [if_pos hvalid, Prog.bind_ok (assertCurrent_self d .journal), Trace.after_nil]
  rfl

theorem nativeMoveNoReplace_eq {source destination : Name} (hsource : d source = some f)
    (hdestination : d destination = none) :
    (nativeMoveNoReplace source destination : Program β Unit) d =
      ⟨[(d.put source none).put destination (some f)],
        (d.put source none).put destination (some f), .ok ()⟩ := by
  refine Prog.operate_ok ?_
  rw [Disk.move_eq_some hsource hdestination]

theorem commitWorkspacePatch_eq (h : Journaled host id old new journal)
    (hbackup : backup = old.map fun f => f.chmod 0o600) :
    commitWorkspacePatch host (arrange base id (some new) none backup (some journal) none) =
      ⟨[arrange base id (some new) none backup none (some journal)],
        arrange base id (some new) none backup none (some journal), .ok ()⟩ := by
  have hmatches : backupMatches host (arrange base id (some new) none backup (some journal) none) id
      (old.map (File.identity host.size)) = true := by
    rw [hbackup]
    cases old with
    | none => simp [backupMatches, lexists, arrange_backup]
    | some f => exact parkedConfigMatches_chmod (arrange_backup ..)
  rw [commitWorkspacePatch, Prog.bind_ok (loadWorkspacePatch_eq h rfl), Trace.after_nil]
  dsimp only [newPayload]
  rw [Prog.bind_require, Prog.bind_require, Prog.bind_require, Prog.bind_ok (assertCurrent_self _ _),
    Trace.after_nil, nativeMoveNoReplace_eq (f := journal) rfl (arrange_committed ..), put_journal,
    put_committed]
  · exact hmatches
  · rw [lexists, arrange_staged]
    rfl
  · exact identityMatches_of_eq rfl

theorem publishWorkspaceConfig_eq :
    publishWorkspaceConfig host id (new.identity host.size)
        (arrange base id none (some new) backup (some journal) none) =
      ⟨[arrange base id (some new) none backup (some journal) none],
        arrange base id (some new) none backup (some journal) none, .ok ()⟩ := by
  rw [publishWorkspaceConfig, Prog.bind_require, Prog.bind_require,
    Prog.bind_ok (nativeMoveNoReplace_eq (f := new) (arrange_staged ..) rfl), put_staged, put_config,
    Prog.require, identityMatches_of_eq rfl]
  · rfl
  · rfl
  · exact identityMatches_of_eq (arrange_staged ..)

theorem makeOwnerOnly_eq (hbackup : backup = some f ∨ backup = some (f.chmod 0o600)) :
    makeOwnerOnly host (.backup id) (f.identity host.size)
        (arrange base id none (some new) backup (some journal) none) =
      ⟨[arrange base id none (some new) (some (f.chmod 0o600)) (some journal) none],
        arrange base id none (some new) (some (f.chmod 0o600)) (some journal) none, .ok ()⟩ := by
  have hobject : ∃ g, backup = some g ∧ g.device = f.device ∧ g.inode = f.inode ∧
      g.chmod 0o600 = f.chmod 0o600 := by
    rcases hbackup with heq | heq
    · exact ⟨f, heq, rfl, rfl, rfl⟩
    · exact ⟨f.chmod 0o600, heq, rfl, rfl, File.chmod_chmod f 0o600 0o600⟩
  obtain ⟨g, rfl, hdevice, hinode, hchmod⟩ := hobject
  rw [makeOwnerOnly, Prog.bind_require]
  · refine Prog.operate_ok ?_
    rw [Disk.change, put_backup, arrange_backup, Option.map_some, hchmod]
  · exact objectIdentityMatches_of_eq (arrange_backup ..) hdevice hinode

theorem identityMatches_old (h : Journaled host id (some f) new journal) (hconfig : d .config = some f) :
    identityMatches host d .config (new.identity host.size) = false := by
  rw [Bool.eq_false_iff, Ne, identityMatches_iff, hconfig, Option.map_some, Option.some.injEq]
  intro heq
  exact h.apart f rfl ⟨congrArg Identity.device heq, congrArg Identity.inode heq⟩

theorem identityMatches_none (hconfig : d .config = none) {expected : Identity} :
    identityMatches host d .config expected = false := by
  rw [Bool.eq_false_iff, Ne, identityMatches_iff, hconfig]
  exact Option.some_ne_none _ ∘ Eq.symm

theorem parkWorkspaceConfig_eq :
    parkWorkspaceConfig host id (f.identity host.size)
        (arrange base id (some f) (some new) none (some journal) none) =
      ⟨[arrange base id none (some new) (some f) (some journal) none,
          arrange base id none (some new) (some (f.chmod 0o600)) (some journal) none],
        arrange base id none (some new) (some (f.chmod 0o600)) (some journal) none, .ok ()⟩ := by
  rw [parkWorkspaceConfig, Prog.bind_require,
    Prog.bind_ok (nativeMoveNoReplace_eq (f := f) rfl (arrange_backup ..)), put_config, put_backup,
    Prog.bind_require, makeOwnerOnly_eq (Or.inl rfl)]
  · rfl
  · exact identityMatches_of_eq (arrange_backup ..)
  · exact identityMatches_of_eq rfl

/-- The arrangements with a complete journal before the new config is published. -/
inductive Unpublished (base : Disk Name β) (id : Str) (new journal : File β) :
    Option (File β) → Disk Name β → Prop where
  | prepared (old : Option (File β)) : Unpublished base id new journal old
      (arrange base id old (some new) none (some journal) none)
  | parked (f : File β) : Unpublished base id new journal (some f)
      (arrange base id none (some new) (some f) (some journal) none)
  | hardened (f : File β) : Unpublished base id new journal (some f)
      (arrange base id none (some new) (some (f.chmod 0o600)) (some journal) none)

def kept (old : Option (File β)) : Option (File β) := old.map fun f => f.chmod 0o600

def published (base : Disk Name β) (id : Str) (old : Option (File β)) (new journal : File β) :
    Disk Name β := arrange base id (some new) none (kept old) (some journal) none

def received (base : Disk Name β) (id : Str) (old : Option (File β)) (new journal : File β) :
    Disk Name β := arrange base id (some new) none (kept old) none (some journal)

theorem parkOld_eq (hd : Unpublished base id new journal old d) :
    ∃ cuts, parkOld host id (old.map (File.identity host.size)) d =
        ⟨cuts, arrange base id none (some new) (kept old) (some journal) none, .ok ()⟩ ∧
      ∀ c ∈ cuts, Unpublished base id new journal old c := by
  have hharden : ∀ {f : File β} {backup}, (backup = some f ∨ backup = some (f.chmod 0o600)) →
      parkOld host id (some (f.identity host.size))
          (arrange base id none (some new) backup (some journal) none) =
        ⟨[arrange base id none (some new) (kept (some f)) (some journal) none],
          arrange base id none (some new) (kept (some f)) (some journal) none, .ok ()⟩ := by
    intro f backup hbackup
    have hparked : parkedConfigMatches host (arrange base id none (some new) backup (some journal) none)
        (.backup id) (f.identity host.size) = true := by
      rcases hbackup with rfl | rfl
      · exact parkedConfigMatches_of_eq (arrange_backup ..)
      · exact parkedConfigMatches_chmod (arrange_backup ..)
    rw [parkOld, Prog.bind_read]
    dsimp only
    rw [if_pos hparked, Prog.bind_require, makeOwnerOnly_eq hbackup]
    · rfl
    · rfl
  cases hd with
  | prepared =>
      cases old with
      | none =>
          refine ⟨[], ?_, fun _ hc => absurd hc List.not_mem_nil⟩
          show parkOld host id none _ = _
          rw [parkOld, Prog.bind_read]
          dsimp only
          rw [Prog.require, if_pos]
          · rfl
          · rw [lexists, arrange_backup]
            rfl
      | some f =>
          refine ⟨[arrange base id none (some new) (some f) (some journal) none,
            arrange base id none (some new) (some (f.chmod 0o600)) (some journal) none], ?_, ?_⟩
          · show parkOld host id (some (f.identity host.size)) _ = _
            rw [parkOld, Prog.bind_read]
            dsimp only
            rw [if_neg, if_pos, parkWorkspaceConfig_eq]
            · rfl
            · rw [identityMatches_of_eq rfl, lexists, arrange_backup]
              rfl
            · rw [parkedConfigMatches_none (arrange_backup ..)]
              exact Bool.false_ne_true
          · intro c hc
            rcases List.mem_pair.mp hc with rfl | rfl
            · exact .parked f
            · exact .hardened f
  | parked f =>
      refine ⟨_, hharden (Or.inl rfl), ?_⟩
      intro c hc
      rw [List.mem_singleton.mp hc]
      exact .hardened f
  | hardened f =>
      refine ⟨_, hharden (Or.inr rfl), ?_⟩
      intro c hc
      rw [List.mem_singleton.mp hc]
      exact .hardened f

theorem publishNew_eq (h : Journaled host id old new journal)
    (hd : Unpublished base id new journal old d) :
    ∃ cuts, publishNew host
        (newPayload host id (old.map (File.identity host.size)) (new.identity host.size)) d =
        ⟨cuts ++ [published base id old new journal], published base id old new journal, .ok ()⟩ ∧
      ∀ c ∈ cuts, Unpublished base id new journal old c := by
  obtain ⟨cuts, hpark, hcuts⟩ : ∃ cuts, parkOld host id (old.map (File.identity host.size)) d =
      ⟨cuts, arrange base id none (some new) (kept old) (some journal) none, .ok ()⟩ ∧
        ∀ c ∈ cuts, Unpublished base id new journal old c := parkOld_eq hd
  have hunmatched : identityMatches host d .config (new.identity host.size) = false := by
    cases hd with
    | prepared =>
        cases old with
        | none => exact identityMatches_none rfl
        | some f => exact identityMatches_old h rfl
    | parked f => exact identityMatches_none rfl
    | hardened f => exact identityMatches_none rfl
  refine ⟨cuts, ?_, hcuts⟩
  have hstaged : identityMatches host d .config (newPayload host id
      (old.map (File.identity host.size)) (new.identity host.size)).staged = false := hunmatched
  rw [publishNew, Prog.bind_read, if_neg (Bool.eq_false_iff.mp hstaged)]
  show (parkOld host id (old.map (File.identity host.size)) >>= fun _ =>
    publishWorkspaceConfig host id (new.identity host.size)) d = _
  rw [Prog.bind_ok hpark, publishWorkspaceConfig_eq]
  rfl

def Resumable (base : Disk Name β) (id : Str) (old : Option (File β)) (new journal : File β)
    (d : Disk Name β) : Prop :=
  Unpublished base id new journal old d ∨ d = published base id old new journal

theorem finishWorkspacePatch_eq (h : Journaled host id old new journal)
    (hd : Resumable base id old new journal d) :
    ∃ cuts, finishWorkspacePatch host d =
        ⟨cuts ++ [received base id old new journal], received base id old new journal,
          .ok (old.map fun _ => .backup id)⟩ ∧
      ∀ c ∈ cuts, Resumable base id old new journal c := by
  have hjournal : d .journal = some journal := by
    rcases hd with hd | rfl
    · cases hd <;> rfl
    · rfl
  have hpublish : ∃ cuts, publishNew host
        (newPayload host id (old.map (File.identity host.size)) (new.identity host.size)) d =
        ⟨cuts, published base id old new journal, .ok ()⟩ ∧
      ∀ c ∈ cuts, Resumable base id old new journal c := by
    rcases hd with hd | rfl
    · obtain ⟨cuts, hpublish, hcuts⟩ := publishNew_eq h hd
      refine ⟨_, hpublish, ?_⟩
      intro c hc
      rw [List.mem_append, List.mem_singleton] at hc
      exact hc.imp_left (hcuts c)
    · refine ⟨[], ?_, fun _ hc => absurd hc List.not_mem_nil⟩
      have hstaged : identityMatches host (published base id old new journal) .config (newPayload host id
          (old.map (File.identity host.size)) (new.identity host.size)).staged = true :=
        identityMatches_of_eq rfl
      rw [publishNew, Prog.bind_read, if_pos hstaged, Prog.require, if_pos]
      show (!lexists (published base id old new journal) (.staged id)) = true
      rw [lexists, published, arrange_staged]
      rfl
  obtain ⟨cuts, hpublish, hcuts⟩ := hpublish
  refine ⟨cuts, ?_, hcuts⟩
  rw [finishWorkspacePatch, Prog.bind_ok (loadWorkspacePatch_eq h hjournal), Trace.after_nil]
  dsimp only
  have hcommit : commitWorkspacePatch host (published base id old new journal) =
      ⟨[received base id old new journal], received base id old new journal, .ok ()⟩ :=
    commitWorkspacePatch_eq h rfl
  rw [Prog.bind_ok hpublish, Prog.bind_ok hcommit, Prog.pure_apply, Trace.after_after,
    Trace.after, List.append_nil]
  cases old <;> rfl

theorem finishWorkspacePatch_received :
    finishWorkspacePatch host (received base id old new journal) =
      ⟨[], received base id old new journal, .error ⟨.recovery "workspace_patch_missing",
        "workspace config transaction does not exist"⟩⟩ := by
  have hload : loadWorkspacePatch host (received base id old new journal) =
      ⟨[], received base id old new journal, .error ⟨.recovery "workspace_patch_missing",
        "workspace config transaction does not exist"⟩⟩ := by
    have hnone : (capture host (received base id old new journal) .journal).identity = none := rfl
    rw [loadWorkspacePatch, Prog.bind_read, if_pos hnone]
    rfl
  rw [finishWorkspacePatch]
  exact Prog.bind_error hload

end

/-! ### Writing a file -/

/-- A program that only writes to the file under `name`, which stays the same object. -/
def Writes (name : Name) (p : Program β Unit) (done : File β → Prop) : Prop :=
  ∀ (d : Disk Name β) (f : File β), d name = some f → ∃ cuts g,
    p d = ⟨cuts, d.put name (some g), .ok ()⟩ ∧ File.SameObject g f ∧ done g ∧
      ∀ c ∈ cuts, ∃ h, c = d.put name (some h)

section

variable {name : Name} {p : Program β Unit} {q : Unit → Program β Unit} {done done' : File β → Prop}

theorem Writes.pure : Writes name (Pure.pure () : Program β Unit) fun _ => True := by
  intro d f hd
  refine ⟨[], f, ?_, ⟨rfl, rfl⟩, trivial, fun _ hc => absurd hc List.not_mem_nil⟩
  rw [Disk.put_eq_self hd]
  rfl

theorem Writes.bind (hp : Writes name p done) (hq : Writes name (q ()) done') :
    Writes name (p >>= q) done' := by
  intro d f hd
  obtain ⟨cuts, g, hrun, hsame, -, hcuts⟩ := hp d f hd
  obtain ⟨cuts', g', hrun', hsame', hdone, hcuts'⟩ := hq (d.put name (some g)) g Disk.put_self
  refine ⟨cuts ++ cuts', g', ?_, ⟨hsame'.1.trans hsame.1, hsame'.2.trans hsame.2⟩, hdone, ?_⟩
  · rw [Prog.bind_ok hrun, hrun', Disk.put_put]
    rfl
  · intro c hc
    rcases List.mem_append.mp hc with hc | hc
    · exact hcuts c hc
    · obtain ⟨h, rfl⟩ := hcuts' c hc
      exact ⟨h, Disk.put_put _ _⟩

theorem Writes.change {op : Disk Name β → Except RecoveryError (Disk Name β)}
    (hop : ∀ d f, d name = some f → ∃ g, op d = .ok (d.put name (some g)) ∧ File.SameObject g f ∧ done g) :
    Writes name (.operate op) done := by
  intro d f hd
  obtain ⟨g, hrun, hsame, hdone⟩ := hop d f hd
  refine ⟨_, g, Prog.operate_ok hrun, hsame, hdone, ?_⟩
  intro c hc
  exact ⟨g, List.mem_singleton.mp hc⟩

theorem writes_chmodFile (name : Name) (perm : Nat) :
    Writes name (chmodFile name perm : Program β Unit) fun _ => True := by
  apply Writes.change
  intro d f hd
  refine ⟨f.chmod perm, ?_, ⟨rfl, rfl⟩, trivial⟩
  rw [Disk.change, hd]
  rfl

variable (host)

theorem writes_setData (name : Name) (data : β) :
    Writes name (setData host name data) fun g => g.data = data := by
  apply Writes.change
  intro d f hd
  refine ⟨{ f with modifiedAt := host.now d, data }, ?_, ⟨rfl, rfl⟩, rfl⟩
  rw [Disk.change, hd]
  rfl

theorem writes_writeParts (name : Name) (parts : List β) :
    Writes name (writeParts host name parts) fun _ => True := by
  induction parts with
  | nil => exact Writes.pure
  | cons part rest ih => exact (writes_setData host name part).bind ih

theorem writes_writeAll (name : Name) (data : β) :
    Writes name (writeAll host name data) fun g => g.data = data :=
  (writes_writeParts host name _).bind (writes_setData host name data)

theorem writes_copystat (source name : Name) :
    Writes name (copystat source name : Program β Unit) fun _ => True := by
  apply Writes.change
  intro d f hd
  cases hsource : d source with
  | none =>
      refine ⟨f, ?_, ⟨rfl, rfl⟩, trivial⟩
      rw [Disk.put_eq_self hd]
  | some g =>
      refine ⟨{ f with mode := chmodMode f.mode g.mode, modifiedAt := g.modifiedAt }, ?_, ⟨rfl, rfl⟩,
        trivial⟩
      dsimp only
      rw [Disk.change, hd]
      rfl

theorem writes_fillStaged (snapshot : ConfigSnapshot β) (patched : β) :
    Writes (.staged id) (fillStaged host id snapshot patched) fun g => g.data = patched := by
  have hmetadata : Writes (.staged id) (copyMetadata snapshot id : Program β Unit) fun _ => True := by
    rw [copyMetadata]
    split
    · exact Writes.pure
    · exact writes_copystat _ _
  exact hmetadata.bind ((writes_chmodFile _ _).bind (writes_writeAll host _ _))

theorem createFile_eq (hfree : d name = none) (error : RecoveryError) :
    createFile host name error d =
      ⟨[d.put name (some (newFile host d))], d.put name (some (newFile host d)), .ok ()⟩ := by
  refine Prog.operate_ok ?_
  rw [Disk.create, hfree]

theorem writes_writeJson (payload : Payload) (hfree : d name = none) :
    ∃ cuts g, writeJsonNoReplace host name payload d = ⟨cuts, d.put name (some g), .ok ()⟩ ∧
      g.data = host.encode payload ∧ ∀ c ∈ cuts, ∃ h, c = d.put name (some h) := by
  have hwrites := (writes_chmodFile (β := β) name 0o600).bind (q := fun _ => writeAll host name _)
    (writes_writeAll host name (host.encode payload))
  obtain ⟨cuts, g, hrun, -, hdata, hcuts⟩ :=
    hwrites (d.put name (some (newFile host d))) (newFile host d) Disk.put_self
  rw [Disk.put_put] at hrun
  refine ⟨d.put name (some (newFile host d)) :: cuts, g, ?_, hdata, ?_⟩
  · rw [writeJsonNoReplace, Prog.bind_ok (createFile_eq host hfree _), hrun]
    rfl
  · intro c hc
    rcases List.mem_cons.mp hc with rfl | hc
    · exact ⟨_, rfl⟩
    · obtain ⟨h, rfl⟩ := hcuts c hc
      exact ⟨h, Disk.put_put _ _⟩

end

/-! ### The crash points of a run -/

/-- What a run may rely on: its identifier is new, and a new file is a new object. -/
structure Fresh (host : Host β) (d : Disk Name β) (id : Str) : Prop where
  canonical : host.isCanonicalUuid id = true
  staged : d (.staged id) = none
  backup : d (.backup id) = none
  committed : d (.committed id) = none
  journal : ∀ f payload, d .journal = some f → host.decode f.data = some payload →
    payload.transactionId ≠ id
  object : ∀ f, d .config = some f → (f.device, f.inode) ≠ host.newObject d

def newConfig (c : Disk Name β) (id : Str) : Option (File β) := (c (.staged id)).or (c .config)

/-- The journal of the run on `d` is complete. -/
def HasJournal (host : Host β) (id : Str) (d c : Disk Name β) : Prop :=
  ∃ journal new, c .journal = some journal ∧ newConfig c id = some new ∧ journal.data =
    host.encode (newPayload host id ((d .config).map (File.identity host.size)) (new.identity host.size))

/-- The patched config in its place, the one before it under the backup name, and no journal. -/
structure Patched (host : Host β) (id : Str) (d c : Disk Name β) : Prop where
  config : ∃ f, c .config = some f ∧ host.patchText (capture host d .config).data = .ok f.data
  backup : c (.backup id) = kept (d .config)
  journal : c .journal = none
  receipt : (c (.committed id)).isSome = true

/-- A cut of the run: nothing is changed yet, or the transaction can be finished, or it is finished. -/
inductive CutPoint (host : Host β) (id : Str) (d c : Disk Name β) : Prop where
  | unchanged (hconfig : c .config = d .config) (hcommitted : c (.committed id) = none)
      (hjournal : ¬HasJournal host id d c)
  | resumable {new journal : File β} (hjournaled : Journaled host id (d .config) new journal)
      (hpatched : host.patchText (capture host d .config).data = .ok new.data)
      (hc : Resumable d id (d .config) new journal c)
  | received {new journal : File β} (hjournaled : Journaled host id (d .config) new journal)
      (hpatched : host.patchText (capture host d .config).data = .ok new.data)
      (hc : c = received d id (d .config) new journal)

variable {c : Disk Name β} {old : Option (File β)} {new journal : File β}

theorem Resumable.holds (hc : Resumable base id old new journal c) :
    c .journal = some journal ∧ newConfig c id = some new := by
  rcases hc with hc | rfl
  · cases hc <;> exact ⟨rfl, by rw [newConfig, arrange_staged]; rfl⟩
  · exact ⟨rfl, by rw [newConfig, published, arrange_staged]; rfl⟩

theorem patched_received (hpatched : host.patchText (capture host d .config).data = .ok new.data) :
    Patched host id d (received d id (d .config) new journal) where
  config := ⟨new, rfl, hpatched⟩
  backup := arrange_backup ..
  journal := rfl
  receipt := by
    rw [received, arrange_committed]
    rfl

theorem hasJournal_of_resumable (hjournaled : Journaled host id (d .config) new journal)
    (hc : Resumable d id (d .config) new journal c) : HasJournal host id d c := by
  obtain ⟨hjournal, hnew⟩ := hc.holds
  exact ⟨journal, new, hjournal, hnew, hjournaled.data⟩

theorem cutPoint_of_staged (hfresh : Fresh host d id)
    (hpatched : host.patchText (capture host d .config).data = .ok new.data)
    (hobject : (new.device, new.inode) = host.newObject d) {found : Option (File β)}
    (hc : c = arrange d id (d .config) (some new) none found none) : CutPoint host id d c := by
  by_cases hjournal : HasJournal host id d c
  · obtain ⟨journal, current, hfound, hcurrent, hdata⟩ := hjournal
    rw [hc] at hfound hcurrent
    rw [newConfig, arrange_staged, Option.some_or, Option.some.injEq] at hcurrent
    have hfound : found = some journal := hfound
    rw [← hcurrent] at hdata
    refine .resumable ⟨hfresh.canonical, hdata, ?_⟩ hpatched (Or.inl ?_)
    · intro f hf hsame
      apply hfresh.object f hf
      rw [← hobject]
      exact Prod.ext hsame.1 hsame.2
    · rw [hc, hfound]
      exact .prepared _
  · rw [hc] at hjournal ⊢
    exact .unchanged rfl (arrange_committed ..) hjournal

variable [DecidableEq β]

theorem startPatch_eq (hfresh : Fresh host d id) (hfree : d .journal = none) {patched : β}
    (hpatched : host.patchText (capture host d .config).data = .ok patched) :
    ∃ cuts new journal, startPatch host id (capture host d .config) patched d =
        ⟨cuts, arrange d id (d .config) (some new) none (some journal) none, .ok ()⟩ ∧
      Journaled host id (d .config) new journal ∧ new.data = patched ∧
      ∀ c ∈ cuts, CutPoint host id d c := by
  have hself := arrange_self hfresh.staged hfresh.backup hfresh.committed
  -- every disk of the run up to here is `d` with a staged file and maybe a journal
  have hput : ∀ staged journal, ((d.put (.staged id) staged).put .journal journal) =
      arrange d id (d .config) staged none journal none := by
    intro staged journal
    conv_lhs => rw [← hself, put_staged, put_journal]
  have hstage : ∀ staged, d.put (.staged id) staged = arrange d id (d .config) staged none none none := by
    intro staged
    conv_lhs => rw [← hself, put_staged, hfree]
  have hunstaged : ∀ f, CutPoint host id d (d.put (.staged id) (some f)) := by
    intro f
    refine .unchanged (Disk.put_other Name.noConfusion) ?_ ?_
    · rw [hstage, arrange_committed]
    · rintro ⟨journal, new, hjournal, -⟩
      rw [hstage] at hjournal
      cases hjournal
  -- the staged file
  have hcreate := createFile_eq host hfresh.staged ⟨.osError, "File exists"⟩
  obtain ⟨cuts, new, hfill, hsame, hdata, hcuts⟩ :=
    writes_fillStaged host (capture host d .config) patched
      (d.put (.staged id) (some (newFile host d))) (newFile host d) Disk.put_self
  rw [Disk.put_put] at hfill
  have hobject : (new.device, new.inode) = host.newObject d := Prod.ext hsame.1 hsame.2
  have hpatched' : host.patchText (capture host d .config).data = .ok new.data := by
    rw [hdata]
    exact hpatched
  -- the journal
  have hcapture : capture host (d.put (.staged id) (some new)) .config = capture host d .config := by
    rw [capture, capture, Disk.put_other Name.noConfusion]
  have hjournalFree : (d.put (.staged id) (some new)) .journal = none := by
    rw [Disk.put_other Name.noConfusion, hfree]
  obtain ⟨cuts', journal, hwrite, hjournalData, hcuts'⟩ := writes_writeJson host
    (newPayload host id (capture host d .config).identity (new.identity host.size)) hjournalFree
  have hrun : startPatch host id (capture host d .config) patched d =
      ⟨[d.put (.staged id) (some (newFile host d))] ++ (cuts ++ cuts'),
        (d.put (.staged id) (some new)).put .journal (some journal), .ok ()⟩ := by
    have hcurrent : assertCurrent host .config (capture host d .config)
        (d.put (.staged id) (some new)) = ⟨[], d.put (.staged id) (some new), .ok ()⟩ := by
      conv_lhs => rw [← hcapture]
      exact assertCurrent_self _ _
    have hjournal : writeJournal host id (capture host d .config) patched
        (d.put (.staged id) (some new)) =
          ⟨cuts', (d.put (.staged id) (some new)).put .journal (some journal), .ok ()⟩ := by
      rw [writeJournal, Prog.bind_ok hcurrent, Trace.after_nil, Prog.bind_read,
        capture_some Disk.put_self]
      dsimp only
      rw [if_neg (not_not.mpr hdata)]
      exact hwrite
    have hinner : (fillStaged host id (capture host d .config) patched >>= fun _ =>
        writeJournal host id (capture host d .config) patched)
          (d.put (.staged id) (some (newFile host d))) =
        ⟨cuts ++ cuts', (d.put (.staged id) (some new)).put .journal (some journal), .ok ()⟩ := by
      rw [Prog.bind_ok hfill, hjournal]
      rfl
    rw [startPatch, Prog.bind_ok hcreate, Prog.onError_ok hinner]
    rfl
  have hidentity : (capture host d .config).identity = (d .config).map (File.identity host.size) :=
    capture_identity
  rw [hidentity] at hjournalData
  refine ⟨_, new, journal, hrun.trans (by rw [hput]), ⟨hfresh.canonical, hjournalData, ?_⟩, hdata, ?_⟩
  · intro f hf hobject'
    apply hfresh.object f hf
    rw [← hobject]
    exact Prod.ext hobject'.1 hobject'.2
  · intro c hc
    rcases List.mem_append.mp hc with hc | hc
    · rw [List.mem_singleton.mp hc]
      exact hunstaged _
    · rcases List.mem_append.mp hc with hc | hc
      · obtain ⟨f, rfl⟩ := hcuts c hc
        rw [Disk.put_put]
        exact hunstaged f
      · obtain ⟨f, rfl⟩ := hcuts' c hc
        exact cutPoint_of_staged hfresh hpatched' hobject (hput _ _)

theorem patchWorkspaceDir_eq (host : Host β) (id : Str) (d : Disk Name β) :
    (patchWorkspaceDir host id d).cuts = [] ∨ ∃ patched, d .journal = none ∧
      host.patchText (capture host d .config).data = .ok patched ∧
      patchWorkspaceDir host id d =
        (startPatch host id (capture host d .config) patched >>= fun _ => finishWorkspacePatch host) d := by
  rw [patchWorkspaceDir]
  cases host.override with
  | some name => exact Or.inl rfl
  | none =>
      dsimp only
      rw [Prog.bind_read]
      cases hpatched : host.patchText (capture host d .config).data with
      | error e => exact Or.inl rfl
      | ok patched =>
          dsimp only
          split_ifs with hsame
          · left
            rw [Prog.bind_ok (assertCurrent_self d .config)]
            rfl
          · cases hjournal : d .journal with
            | some f =>
                left
                rw [Prog.bind_require_error]
                rw [lexists, hjournal]
                rfl
            | none =>
                refine Or.inr ⟨patched, rfl, rfl, ?_⟩
                rw [Prog.bind_require]
                rw [lexists, hjournal]
                rfl

theorem cutPoint_of_run (hfresh : Fresh host d id) :
    ∀ c ∈ d :: (patchWorkspaceDir host id d).cuts, CutPoint host id d c := by
  have hbefore : CutPoint host id d d := by
    refine .unchanged rfl hfresh.committed ?_
    rintro ⟨journal, new, hjournal, -, hdata⟩
    apply hfresh.journal journal _ hjournal
    · rw [hdata, host.decode_encode]
    · rfl
  intro c hc
  rcases List.mem_cons.mp hc with rfl | hc
  · exact hbefore
  rcases patchWorkspaceDir_eq host id d with hnone | ⟨patched, hfree, hpatched, hrun⟩
  · rw [hnone] at hc
    exact absurd hc List.not_mem_nil
  obtain ⟨cuts, new, journal, hstart, hjournaled, hdata, hcuts⟩ := startPatch_eq hfresh hfree hpatched
  rw [← hdata] at hpatched
  obtain ⟨cuts', hfinish, hcuts'⟩ :=
    finishWorkspacePatch_eq hjournaled (Or.inl (Unpublished.prepared (d .config)))
  rw [hrun, Prog.bind_ok hstart, hfinish, Trace.cuts_after, List.mem_append, List.mem_append,
    List.mem_singleton] at hc
  rcases hc with hc | hc | hc
  · exact hcuts c hc
  · exact .resumable hjournaled hpatched (hcuts' c hc)
  · exact .received hjournaled hpatched hc

/-- What becomes of a disk that a run was cut off in, when it is recovered, however often the recovery
is cut off itself. -/
structure Recovered (host : Host β) (id : Str) (d c : Disk Name β) : Prop where
  /-- With the complete journal the recovery ends with the patched config. -/
  resumes : ∀ c', Prog.Cut (recoverWorkspacePatch host) c c' → HasJournal host id d c' →
    (recoverWorkspacePatch host c').result = .ok ((d .config).map fun _ => .backup id) ∧
      Patched host id d (recoverWorkspacePatch host c').state
  /-- Without it there is nothing left to do. -/
  done : ∀ c', Prog.Cut (recoverWorkspacePatch host) c c' → ¬HasJournal host id d c' →
    Patched host id d c' ∧ recoverWorkspacePatch host c' =
      ⟨[], c', .error ⟨.recovery "workspace_patch_missing", "workspace config transaction does not exist"⟩⟩

theorem recovered_of_resumable (hjournaled : Journaled host id (d .config) new journal)
    (hpatched : host.patchText (capture host d .config).data = .ok new.data)
    (hc : Resumable d id (d .config) new journal c ∨ c = received d id (d .config) new journal) :
    Recovered host id d c := by
  have hcut : ∀ c', Prog.Cut (recoverWorkspacePatch host) c c' →
      Resumable d id (d .config) new journal c' ∨ c' = received d id (d .config) new journal := by
    intro c' hcut
    refine hcut.invariant (I := fun c => Resumable d id (d .config) new journal c ∨
      c = received d id (d .config) new journal) hc ?_
    rintro s (hs | rfl) c' hc'
    · obtain ⟨cuts, hfinish, hcuts⟩ := finishWorkspacePatch_eq hjournaled hs
      rw [recoverWorkspacePatch, hfinish, List.mem_append, List.mem_singleton] at hc'
      exact hc'.imp_left (hcuts c')
    · rw [recoverWorkspacePatch, finishWorkspacePatch_received] at hc'
      exact absurd hc' List.not_mem_nil
  constructor
  · intro c' hc' hjournal
    rcases hcut c' hc' with hresumable | rfl
    · obtain ⟨cuts, hfinish, -⟩ := finishWorkspacePatch_eq hjournaled hresumable
      rw [recoverWorkspacePatch, hfinish]
      exact ⟨rfl, patched_received hpatched⟩
    · obtain ⟨_, _, hnone, -⟩ := hjournal
      cases hnone
  · intro c' hc' hjournal
    rcases hcut c' hc' with hresumable | rfl
    · exact absurd (hasJournal_of_resumable hjournaled hresumable) hjournal
    · exact ⟨patched_received hpatched, finishWorkspacePatch_received⟩

/-- A patch that is cut off leaves the config as it was; or a complete journal, from which the patch is
finished; or the patched config with the receipt in the journal's place. -/
theorem workspace_patch_crashes (hfresh : Fresh host d id) :
    ∀ c ∈ d :: (patchWorkspaceDir host id d).cuts,
      (HasJournal host id d c → Recovered host id d c) ∧
      (¬HasJournal host id d c →
        (c .config = d .config ∧ c (.committed id) = none) ∨ Recovered host id d c) := by
  intro c hc
  have hrecovered : CutPoint host id d c → c .config = d .config ∧ c (.committed id) = none ∧
      ¬HasJournal host id d c ∨ Recovered host id d c := by
    intro hpoint
    cases hpoint with
    | unchanged hconfig hcommitted hjournal => exact Or.inl ⟨hconfig, hcommitted, hjournal⟩
    | resumable hjournaled hpatched hc =>
        exact Or.inr (recovered_of_resumable hjournaled hpatched (Or.inl hc))
    | received hjournaled hpatched hc =>
        exact Or.inr (recovered_of_resumable hjournaled hpatched (Or.inr hc))
  rcases hrecovered (cutPoint_of_run hfresh c hc) with ⟨hconfig, hcommitted, hjournal⟩ | hrecovered
  · exact ⟨fun hhas => absurd hhas hjournal, fun _ => Or.inl ⟨hconfig, hcommitted⟩⟩
  · exact ⟨fun _ => hrecovered, fun _ => Or.inr hrecovered⟩

/-! ### A small disk -/

inductive Content where
  | text (text : Str)
  | journal (payload : Payload)
  deriving DecidableEq

def smallHost : Host Content where
  size := fun
    | .text text => text.length
    | .journal _ => 0
  digest := fun
    | .text text => text
    | .journal _ => []
  empty := .text []
  parts := fun _ => []
  encode := .journal
  decode := fun
    | .text _ => none
    | .journal payload => some payload
  decode_encode := fun _ => rfl
  patchText := fun _ => .ok (.text ['n'])
  isCanonicalUuid := fun _ => true
  home := ['h']
  normalizedPath := fun _ => ['p']
  override := none
  newObject := fun d => (0, ((d .config).map File.inode).getD 0 + 1)
  now := fun _ => 7

def smallDisk : Disk Name Content := fun
  | .config => some ⟨0, 1, regular ||| 0o644, 5, .text ['o']⟩
  | _ => none

theorem fresh_smallDisk : Fresh smallHost smallDisk ['u'] where
  canonical := rfl
  staged := rfl
  backup := rfl
  committed := rfl
  journal := by
    intro f payload hjournal
    cases hjournal
  object := by
    intro f hf
    cases hf
    decide

theorem small_workspace_patch : Fresh smallHost smallDisk ['u'] ∧
    ∀ c ∈ smallDisk :: (patchWorkspaceDir smallHost ['u'] smallDisk).cuts,
      (HasJournal smallHost ['u'] smallDisk c → Recovered smallHost ['u'] smallDisk c) ∧
      (¬HasJournal smallHost ['u'] smallDisk c →
        (c .config = smallDisk .config ∧ c (.committed ['u']) = none) ∨
          Recovered smallHost ['u'] smallDisk c) :=
  ⟨fresh_smallDisk, workspace_patch_crashes fresh_smallDisk⟩

/-- Cut off behind its last operation, the patch leaves nothing that could be recovered. -/
theorem receipt_is_not_recovered : ∃ journaled c,
    (patchWorkspaceDir smallHost ['u'] smallDisk).cuts[6]? = some journaled ∧
    (patchWorkspaceDir smallHost ['u'] smallDisk).cuts[10]? = some c ∧
    HasJournal smallHost ['u'] smallDisk journaled ∧
    (recoverWorkspacePatch smallHost c).result = .error ⟨.recovery "workspace_patch_missing",
      "workspace config transaction does not exist"⟩ :=
  ⟨_, _, rfl, rfl, ⟨_, _, rfl, rfl, rfl⟩, rfl⟩

end OpenStarry.Recovery.ConfigPatch
