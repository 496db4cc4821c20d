import OpenStarry.ToolResults.Reading

/-!
# Returned records stay readable

Over any run of writes, what a write returned can be read for as long as its directory is not
removed, if two things are kept away from. A text with a carriage return is not stored plain, since
reading translates it. A record is not handed to a session that only shares a directory with the
session it was stored for, since reading compares the full ids.
-/

namespace OpenStarry.ToolResults

open Lib Text Store

variable {rt : Runtime} {s s' : Store} {call : WriteCall} {p : Payload} {path : List Str}
  {record : ToolResultRecord} {handle : Str}

/-! ### The conditions -/

def belongsToAnother (rt : Runtime) (call : WriteCall) (s : Store) (handle : Str) : Bool :=
  match recordDir handle call.sessionId with
  | .error _ => false
  | .ok path => (sameContent (s.disk path) (sha rt call)).any fun info =>
      info.get "session_id" ≠ .str call.sessionId

def holdsPrimary (rt : Runtime) (call : WriteCall) (s : Store) : Bool :=
  match recordDir (primaryHandle rt call) call.sessionId with
  | .error _ => true
  | .ok path => (sameContent (s.disk path) (sha rt call)).isSome

def keepsReadable (rt : Runtime) (call : WriteCall) (p : Payload) (s : Store) : Bool :=
  ((candidateHandles rt call).all fun handle => !belongsToAnother rt call s handle) &&
    (decide (p.contentName ≠ toolResultContentName) || decide ('\r' ∉ call.content) ||
      holdsPrimary rt call s)

def recoverable (rt : Runtime) (s : Store) (call : WriteCall) : Bool :=
  match prepare rt call with
  | .error _ => true
  | .ok (call, p) =>
      match s.removeExpired call with
      | (.error _, _) => true
      | (.ok _, s) => keepsReadable rt call p s

def distinctDigest (rt : Runtime) (s : Store) (call : WriteCall) : Bool :=
  s.live.all fun e => rt.sha256 (encode e.content) ≠ sha rt call || e.content = call.content

/-! ### The invariant -/

def entry (path : List Str) (record : ToolResultRecord) : Returned :=
  ⟨path, record.handle, record.sessionId, record.content⟩

/-- Each directory holds a record that was returned, and each returned record is held. -/
structure Sound (rt : Runtime) (s : Store) : Prop where
  stored : ∀ path, s.disk path = .empty ∨
    ∃ record, Holds rt path (s.disk path) record ∧ entry path record ∈ s.live
  live : ∀ e ∈ s.live, ∃ record, Holds rt e.path (s.disk e.path) record ∧ e = entry e.path record

theorem Sound.initial (h : s.initial) : Sound rt s := by
  obtain ⟨hdisk, hlive⟩ := h
  refine ⟨fun path => .inl (hdisk path), ?_⟩
  rw [hlive]
  exact fun _ hmem => nomatch hmem

/-! ### Removing records -/

theorem Sound.removeRecordDir (h : Sound rt s) (removed : List Str) :
    Sound rt (s.removeRecordDir removed) := by
  refine ⟨fun path => ?_, fun e hmem => ?_⟩
  · show Function.update s.disk removed .empty path = .empty ∨ ∃ record,
      Holds rt path (Function.update s.disk removed .empty path) record ∧ _
    by_cases hpath : path = removed
    · rw [hpath, Function.update_self]
      exact .inl rfl
    · rw [Function.update_of_ne hpath]
      obtain hempty | ⟨record, hholds, hmem⟩ := h.stored path
      · exact .inl hempty
      · exact .inr ⟨record, hholds, List.mem_filter.mpr ⟨hmem, decide_eq_true hpath⟩⟩
  · obtain ⟨hmem, hpath⟩ := List.mem_filter.mp hmem
    show ∃ record, Holds rt e.path (Function.update s.disk removed .empty e.path) record ∧ _
    rw [Function.update_of_ne (by simpa using hpath)]
    exact h.live e hmem

/-- One state comes from another by removing directories. -/
structure Shrunk (s s' : Store) : Prop where
  disk : ∀ path, s'.disk path = .empty ∨ s'.disk path = s.disk path
  live : s'.live ⊆ s.live

theorem Shrunk.refl (s : Store) : Shrunk s s := ⟨fun _ => .inr rfl, fun _ h => h⟩

theorem Shrunk.removeRecordDir (h : Shrunk s s') (removed : List Str) :
    Shrunk s (s'.removeRecordDir removed) := by
  refine ⟨fun path => ?_, fun e hmem => h.live (List.mem_filter.mp hmem).1⟩
  show Function.update s'.disk removed .empty path = .empty ∨
    Function.update s'.disk removed .empty path = s.disk path
  by_cases hpath : path = removed
  · rw [hpath, Function.update_self]
    exact .inl rfl
  · rw [Function.update_of_ne hpath]
    exact h.disk path

def SoundBelow (rt : Runtime) (s s' : Store) : Prop := Sound rt s' ∧ Shrunk s s'

theorem SoundBelow.removeRecordDir (h : SoundBelow rt s s') (removed : List Str) :
    SoundBelow rt s (s'.removeRecordDir removed) :=
  ⟨h.1.removeRecordDir removed, h.2.removeRecordDir removed⟩

theorem SoundBelow.removeRecords (h : SoundBelow rt s s') (records : List StoredMeta) :
    SoundBelow rt s (s'.removeRecords records) := by
  unfold Store.removeRecords
  induction records generalizing s' with
  | nil => exact h
  | cons record rest ih =>
      rw [List.foldl_cons]
      exact ih (h.removeRecordDir _)

theorem SoundBelow.pruneRecords (h : SoundBelow rt s s') (incoming budget : Nat)
    (records : List StoredMeta) (current : Nat) :
    SoundBelow rt s (Store.pruneRecords incoming budget records current s').2 := by
  induction records generalizing s' current with
  | nil => exact h
  | cons record rest ih =>
      unfold Store.pruneRecords
      dsimp only
      split_ifs
      · exact h.removeRecordDir _
      · exact ih (h.removeRecordDir _) _

theorem SoundBelow.removeExpired (h : Sound rt s) (call : WriteCall) :
    SoundBelow rt s (s.removeExpired call).2 := by
  have hbelow : SoundBelow rt s s := ⟨h, .refl s⟩
  unfold Store.removeExpired
  dsimp only
  split
  · exact hbelow
  · split_ifs
    · exact hbelow
    · exact hbelow.removeRecords _

theorem SoundBelow.pruneToFit (h : Sound rt s) (records : List StoredMeta) (incoming : Nat)
    (diskBudgetBytes : Int) :
    SoundBelow rt s (s.pruneToFit records incoming diskBudgetBytes).2 := by
  have hbelow : SoundBelow rt s s := ⟨h, .refl s⟩
  unfold Store.pruneToFit
  dsimp only
  split
  · exact hbelow
  · have hpruned := hbelow.pruneRecords incoming (max 0 diskBudgetBytes).toNat
      (records.insertionSort fun a b => a.createdAt ≤ b.createdAt)
      ((records.insertionSort fun a b => a.createdAt ≤ b.createdAt).map (·.sizeBytes)).sum
    split
    · rw [‹Store.pruneRecords _ _ _ _ _ = _›] at hpruned
      exact hpruned
    · rw [‹Store.pruneRecords _ _ _ _ _ = _›] at hpruned
      split_ifs <;> exact hpruned

/-! ### Touching and handing out -/

theorem Holds.hasContent {dir : RecordDir} (h : Holds rt path dir record) :
    dir.hasContent = true := by
  obtain ⟨p, back, -, -, hcontent, -⟩ := h.files
  exact hcontent

theorem Holds.touch {dir : RecordDir} (h : Holds rt path dir record) (time : Int) :
    Holds rt path
      { dir with
        content := dir.content.map fun file => { file with mtime := time }
        compressed := dir.compressed.map fun file => { file with mtime := time } } record := by
  obtain ⟨hpath, p, stored, hfits, rfl⟩ := h
  refine ⟨hpath, p, time, hfits, ?_⟩
  unfold Store.recordFiles
  dsimp only
  split_ifs <;> rfl

theorem Sound.put {dir : RecordDir} (h : Sound rt s) (hholds : Holds rt path dir record)
    (hsame : ∀ e ∈ s.live, e.path = path → e = entry path record) :
    Sound rt ((s.put path dir).hand path record) := by
  refine ⟨fun other => ?_, fun e hmem => ?_⟩
  · show Function.update s.disk path dir other = .empty ∨ ∃ record',
      Holds rt other (Function.update s.disk path dir other) record' ∧ _ ∈ s.live ++ [_]
    by_cases hpath : other = path
    · rw [hpath, Function.update_self]
      exact .inr ⟨record, hholds, List.mem_append_right _ (List.mem_singleton_self _)⟩
    · rw [Function.update_of_ne hpath]
      obtain hempty | ⟨record', hholds', hmem⟩ := h.stored other
      · exact .inl hempty
      · exact .inr ⟨record', hholds', List.mem_append_left _ hmem⟩
  · show ∃ record', Holds rt e.path (Function.update s.disk path dir e.path) record' ∧ _
    by_cases hpath : e.path = path
    · have he : e = entry path record := by
        obtain hmem | hmem := List.mem_append.mp hmem
        · exact hsame e hmem hpath
        · exact List.mem_singleton.mp hmem
      rw [hpath, Function.update_self]
      exact ⟨record, hholds, he⟩
    · rw [Function.update_of_ne hpath]
      obtain hmem | hmem := List.mem_append.mp hmem
      · exact h.live e hmem
      · rw [List.mem_singleton.mp hmem] at hpath
        exact absurd rfl hpath

theorem Holds.unique (hgzip : ∀ data, rt.decompress (rt.compress data) = some data)
    {dir : RecordDir} {record' : ToolResultRecord} (h : Holds rt path dir record)
    (h' : Holds rt path dir record') : record' = record := by
  obtain ⟨p, back, hfits, hmeta, -, -, hget⟩ := h.files
  obtain ⟨p', back', hfits', hmeta', -, -, hget'⟩ := h'.files
  have hback : back' = back := by
    rw [hmeta, Except.ok.injEq, Json.obj.injEq] at hmeta'
    exact hmeta'.symm
  have hsession : record'.sessionId = record.sessionId := by
    have hid : back.get "session_id" = .str record.sessionId := hget "session_id"
    have hid' : back'.get "session_id" = .str record'.sessionId := hget' "session_id"
    rw [hback, hid, Json.str.injEq] at hid'
    exact hid'.symm
  have hhandle : record'.handle = record.handle := h'.handle_eq h.1
  have hread := h.read hgzip (fun _ => dir) rfl record.sessionId
    (by rw [hfits.sessionId]; exact h.1)
  have hread' := h'.read hgzip (fun _ => dir) rfl record'.sessionId
    (by rw [hfits'.sessionId]; exact h'.1)
  rw [if_pos hfits.sessionId.symm] at hread
  rw [if_pos hfits'.sessionId.symm, hhandle, hsession, hread, Except.ok.injEq] at hread'
  exact hread'.symm

theorem Sound.entry_eq (hgzip : ∀ data, rt.decompress (rt.compress data) = some data)
    (h : Sound rt s) (hholds : Holds rt path (s.disk path) record) {e : Returned}
    (hmem : e ∈ s.live) (hpath : e.path = path) : e = entry path record := by
  obtain ⟨record', hholds', he⟩ := h.live e hmem
  rw [hpath] at hholds' he
  rw [he, hholds.unique hgzip hholds']

/-! ### Reusing a record -/

theorem existingRecord_eq_some {reused : ToolResultRecord}
    (h : s.existingRecord rt call handle = .ok (some reused)) :
    ∃ path info, recordDir handle call.sessionId = .ok path ∧
      sameContent (s.disk path) (sha rt call) = some info ∧ reused.handle = handle ∧
      reused.sessionId = call.sessionId ∧ reused.content = call.content := by
  unfold Store.existingRecord at h
  obtain ⟨path, hpath, h⟩ := bind_eq_ok.mp h
  split at h
  · cases h
  · obtain ⟨stored, -, h⟩ := bind_eq_ok.mp h
    cases h
    exact ⟨path, _, hpath, ‹_›, rfl, rfl, rfl⟩

theorem existingRecord_eq_none (hpath : recordDir handle call.sessionId = .ok path)
    (h : s.existingRecord rt call handle = .ok none) :
    sameContent (s.disk path) (sha rt call) = none := by
  unfold Store.existingRecord at h
  rw [hpath, ok_bind] at h
  split at h
  · assumption
  · obtain ⟨stored, -, h⟩ := bind_eq_ok.mp h
    cases h

theorem sameContent_empty (digest : Str) : sameContent .empty digest = none := rfl

theorem Holds.sameContent {dir : RecordDir} (h : Holds rt path dir record) {digest : Str}
    {info : Dict} (hinfo : sameContent dir digest = some info) :
    rt.sha256 (encode record.content) = digest ∧
      info.get "session_id" = .str record.sessionId := by
  obtain ⟨p, back, hfits, hmeta, hcontent, -, hget⟩ := h.files
  have hread : dir.readMeta = some back := by
    rw [RecordDir.readMeta, hmeta]
    rfl
  rw [Store.sameContent, if_pos hcontent, hread, Option.filter_eq_some_iff] at hinfo
  obtain ⟨hback, hsha⟩ := hinfo
  rw [Option.some.injEq] at hback
  subst hback
  constructor
  · have hstored : back.get "sha256" = .str record.sha256 := hget "sha256"
    rw [decide_eq_true_eq, hstored, Json.str.injEq] at hsha
    rw [← hsha, hfits.sha256]
  · exact hget "session_id"

/-- What is asked of the state in which a call looks for a record to reuse. -/
structure Friendly (rt : Runtime) (call : WriteCall) (s : Store) : Prop where
  own : ∀ handle ∈ candidateHandles rt call, belongsToAnother rt call s handle = false
  distinct : ∀ e ∈ s.live, rt.sha256 (encode e.content) = sha rt call → e.content = call.content

theorem Friendly.shrunk (h : Friendly rt call s) (hshrunk : Shrunk s s') :
    Friendly rt call s' := by
  refine ⟨fun handle hmem => ?_, fun e hmem => h.distinct e (hshrunk.live hmem)⟩
  have hown := h.own handle hmem
  unfold belongsToAnother at hown ⊢
  split
  · rfl
  · rename_i path hpath
    rw [hpath] at hown
    obtain hempty | hsame := hshrunk.disk path
    · rw [hempty, sameContent_empty]
      rfl
    · rw [hsame]
      exact hown

theorem Sound.reuse (hgzip : ∀ data, rt.decompress (rt.compress data) = some data)
    (h : Sound rt s) (hfriendly : Friendly rt call s) (hhandle : handle ∈ candidateHandles rt call)
    (hpath : recordDir handle call.sessionId = .ok path) {reused : ToolResultRecord}
    (hreuse : s.existingRecord rt call handle = .ok (some reused)) (time : Int) :
    Sound rt ((s.touch time path).hand path reused) := by
  obtain ⟨path', info, hpath', hinfo, hreused⟩ := existingRecord_eq_some hreuse
  cases Except.ok.inj (hpath.symm.trans hpath')
  obtain hempty | ⟨record, hholds, hmem⟩ := h.stored path
  · rw [hempty, sameContent_empty] at hinfo
    cases hinfo
  obtain ⟨hsha, hsession⟩ := hholds.sameContent hinfo
  have hcontent : record.content = call.content := hfriendly.distinct _ hmem hsha
  have hown : record.sessionId = call.sessionId := by
    have hanother := hfriendly.own handle hhandle
    unfold belongsToAnother at hanother
    rw [hpath] at hanother
    simp only [hinfo, Option.any_some, decide_eq_false_iff_not, ne_eq, not_not, hsession,
      Json.str.injEq] at hanother
    exact hanother
  have hname := hholds.handle_eq hpath
  have hentry : (⟨path, reused.handle, reused.sessionId, reused.content⟩ : Returned) =
      entry path record := by
    rw [hreused.1, hreused.2.1, hreused.2.2, entry, hname, hown, hcontent]
  have hsound := h.put (hholds.touch time) fun e he => h.entry_eq hgzip hholds he
  unfold Store.hand Store.touch at *
  rw [hentry]
  exact hsound

/-! ### Storing a record -/

/-- A call whose arguments were checked, with the payload for its text. -/
structure Prepared (rt : Runtime) (call : WriteCall) (p : Payload) : Prop where
  sessionId : strip call.sessionId = call.sessionId
  named : call.sessionId ≠ []
  payload : p = payload rt call.maxBytes call.content

/-- The call that `write` goes on with. -/
def stripped (call : WriteCall) : WriteCall :=
  { call with
    sessionId := strip call.sessionId
    sessionKey := strip call.sessionKey
    agentId := strip call.agentId }

theorem prepare_eq_ok {call' : WriteCall} (h : prepare rt call = .ok (call', p)) :
    Prepared rt call' p ∧ call' = stripped call := by
  have hnonempty : ∀ {name : String} {value checked : Str},
      validateNonEmpty name value = .ok checked → strip value ≠ [] ∧ checked = strip value := by
    intro name value checked h
    unfold validateNonEmpty at h
    split_ifs at h with hempty
    exact ⟨hempty, (Except.ok.inj h).symm⟩
  unfold prepare at h
  obtain ⟨sessionId, hsession, h⟩ := bind_eq_ok.mp h
  obtain ⟨sessionKey, hkey, h⟩ := bind_eq_ok.mp h
  obtain ⟨agentId, hagent, h⟩ := bind_eq_ok.mp h
  obtain ⟨-, -, h⟩ := bind_eq_ok.mp h
  obtain ⟨-, -, h⟩ := bind_eq_ok.mp h
  rw [pure_eq_ok, Prod.mk.injEq] at h
  obtain ⟨rfl, rfl⟩ := h
  obtain ⟨hempty, rfl⟩ := hnonempty hsession
  obtain ⟨-, rfl⟩ := hnonempty hkey
  obtain ⟨-, rfl⟩ := hnonempty hagent
  exact ⟨⟨strip_strip _, hempty, rfl⟩, rfl⟩

theorem Prepared.kept (h : Prepared rt call p)
    (hreturn : p.contentName ≠ toolResultContentName ∨ '\r' ∉ call.content) :
    Kept rt call.content p := by
  have hpayload := h.payload
  unfold Store.payload at hpayload
  dsimp only at hpayload
  split_ifs at hpayload
  · rw [hpayload]
    exact .compressed
  · rw [hpayload] at hreturn ⊢
    exact .plain (hreturn.resolve_left fun hne => hne rfl)

theorem Prepared.fits (h : Prepared rt call p) (hkept : Kept rt call.content p) (handle : Str) :
    Fits rt (newRecord rt call p handle) p where
  kept := hkept
  sha256 := rfl
  chars := rfl
  sizeBytes := by
    have hraw : p.raw = encode call.content := by cases hkept <;> rfl
    exact congrArg ByteArray.size hraw
  storedSizeBytes := rfl
  storageEncoding := rfl
  sessionId := h.sessionId
  named := h.named

theorem Sound.storeRecord (h : Sound rt s) (hprepared : Prepared rt call p)
    (hkept : Kept rt call.content p) (hpath : recordDir handle call.sessionId = .ok path)
    (hnone : (s.disk path).hasContent = false) :
    Sound rt (s.storeRecord call p (newRecord rt call p handle) path).2 := by
  have hempty : s.disk path = .empty := by
    obtain hempty | ⟨record, hholds, -⟩ := h.stored path
    · exact hempty
    · rw [hholds.hasContent] at hnone
      cases hnone
  unfold Store.storeRecord
  split_ifs
  · exact h.removeRecordDir path
  · have hholds : Holds rt path
        (recordFiles (newRecord rt call p handle) p call.written (s.disk path))
        (newRecord rt call p handle) := by
      rw [hempty]
      exact ⟨hpath, p, call.written, hprepared.fits hkept handle, rfl⟩
    apply h.put hholds
    intro e hmem he
    obtain ⟨record, hstored, -⟩ := h.live e hmem
    have hcontent := hstored.hasContent
    rw [he, hnone] at hcontent
    cases hcontent

theorem Sound.allocate (hgzip : ∀ data, rt.decompress (rt.compress data) = some data)
    (h : Sound rt s) (hfriendly : Friendly rt call s) (hprepared : Prepared rt call p)
    (hkept : Kept rt call.content p) {handles : List Str}
    (hhandles : handles ⊆ candidateHandles rt call) :
    Sound rt (Store.allocate rt call p handles s).2 := by
  induction handles with
  | nil => exact h
  | cons handle rest ih =>
      obtain ⟨hhandle, hrest⟩ := List.cons_subset.mp hhandles
      unfold Store.allocate
      split
      · exact h
      · rename_i path hpath
        split_ifs with hcontent
        · split
          · exact h
          · exact h.reuse hgzip hfriendly hhandle hpath ‹_› call.written
          · exact ih hrest
        · rw [Bool.not_eq_true] at hcontent
          exact h.storeRecord hprepared hkept hpath hcontent

theorem Sound.storeNew (hgzip : ∀ data, rt.decompress (rt.compress data) = some data)
    (h : Sound rt s) (hfriendly : Friendly rt call s) (hprepared : Prepared rt call p)
    (hkept : Kept rt call.content p) (surviving : List StoredMeta) :
    Sound rt (s.storeNew rt call p surviving).2 := by
  unfold Store.storeNew
  split
  · exact h.allocate hgzip hfriendly hprepared hkept fun _ hmem => hmem
  · rename_i budget _
    have hpruned := SoundBelow.pruneToFit h surviving p.stored.size budget
    split
    · rw [‹Store.pruneToFit _ _ _ _ = _›] at hpruned
      exact hpruned.1
    · rw [‹Store.pruneToFit _ _ _ _ = _›] at hpruned
      exact hpruned.1.allocate hgzip (hfriendly.shrunk hpruned.2) hprepared hkept fun _ hmem => hmem

theorem Sound.reuseOrStore (hgzip : ∀ data, rt.decompress (rt.compress data) = some data)
    (h : Sound rt s) (hfriendly : Friendly rt call s) (hprepared : Prepared rt call p)
    (hreturn : p.contentName ≠ toolResultContentName ∨ '\r' ∉ call.content ∨
      holdsPrimary rt call s = true) (surviving : List StoredMeta) :
    Sound rt (s.reuseOrStore rt call p surviving).2 := by
  unfold Store.reuseOrStore
  split
  · exact h.reuse hgzip hfriendly List.mem_cons_self ‹_› ‹_› call.written
  · rename_i hnone
    have hkept : Kept rt call.content p := by
      apply hprepared.kept
      obtain hname | hreturn | hprimary := hreturn
      · exact .inl hname
      · exact .inr hreturn
      · unfold holdsPrimary at hprimary
        split at hprimary
        · unfold Store.existingRecord at hnone
          rw [‹recordDir _ _ = _›, error_bind] at hnone
          cases hnone
        · rw [existingRecord_eq_none ‹_› hnone] at hprimary
          cases hprimary
    exact h.storeNew hgzip hfriendly hprepared hkept surviving
  · exact h
  · exact h

theorem Sound.write (hgzip : ∀ data, rt.decompress (rt.compress data) = some data)
    (h : Sound rt s) (hdistinct : distinctDigest rt s call = true)
    (hrecoverable : recoverable rt s call = true) : Sound rt (s.write rt call).2 := by
  unfold recoverable at hrecoverable
  unfold Store.write
  split
  · exact h
  · rename_i call' p hprepare
    obtain ⟨hprepared, hstripped⟩ := prepare_eq_ok hprepare
    have hcontent : call'.content = call.content := by
      rw [hstripped]
      rfl
    rw [hprepare] at hrecoverable
    dsimp only at hrecoverable
    have hexpired := SoundBelow.removeExpired h call'
    split
    · rw [‹Store.removeExpired _ _ = _›] at hexpired
      exact hexpired.1
    · rename_i surviving s' hremove
      rw [hremove] at hexpired hrecoverable
      simp only [keepsReadable, Bool.and_eq_true, Bool.or_eq_true, decide_eq_true_eq,
        List.all_eq_true, Bool.not_eq_true', or_assoc] at hrecoverable
      have hdigests : ∀ e ∈ s.live, rt.sha256 (encode e.content) = sha rt call' →
          e.content = call'.content := by
        intro e hmem hsha
        have he := List.all_eq_true.mp hdistinct e hmem
        unfold Store.sha at hsha
        rw [hcontent] at hsha ⊢
        simpa [Store.sha, hsha] using he
      have hfriendly : Friendly rt call' s' :=
        ⟨hrecoverable.1, fun e hmem => hdigests e (hexpired.2.live hmem)⟩
      exact hexpired.1.reuseOrStore hgzip hfriendly hprepared hrecoverable.2 surviving

end OpenStarry.ToolResults
