import Mathlib
import OpenStarry.Lib.TransitionSystem
import OpenStarry.ToolResults.Recovery

/-!
# Runs of writes

What a reader finds after any run of writes that keeps to the two conditions, and two runs that do
not.
-/

namespace OpenStarry.ToolResults

open Lib Text Store

variable {rt : Runtime} {s : Store} {call : WriteCall} {p : Payload}

/-! ### What a write returns -/

def Hands (call : WriteCall) (result : Except StoreError ToolResultRecord × Store) : Prop :=
  ∀ record, result.1 = .ok record → record.sessionId = call.sessionId ∧
    record.content = call.content ∧ ∃ path, entry path record ∈ result.2.live

theorem hands_error {e : StoreError} : Hands call (.error e, s) := fun _ h => nomatch h

theorem hands_hand {path : List Str} {record : ToolResultRecord}
    (hsession : record.sessionId = call.sessionId) (hcontent : record.content = call.content) :
    Hands call (.ok record, s.hand path record) := by
  intro record' h
  cases h
  exact ⟨hsession, hcontent, path, List.mem_append_right _ (List.mem_singleton_self _)⟩

theorem hands_allocate (handles : List Str) : Hands call (Store.allocate rt call p handles s) := by
  induction handles with
  | nil => exact hands_error
  | cons handle rest ih =>
      unfold Store.allocate
      split
      · exact hands_error
      · split_ifs
        · split
          · exact hands_error
          · obtain ⟨-, -, -, -, -, hsession, hcontent⟩ := existingRecord_eq_some ‹_›
            exact hands_hand hsession hcontent
          · exact ih
        · unfold Store.storeRecord
          split_ifs
          · exact hands_error
          · exact hands_hand rfl rfl

theorem hands_storeNew (surviving : List StoredMeta) :
    Hands call (s.storeNew rt call p surviving) := by
  unfold Store.storeNew
  split
  · exact hands_allocate _
  · split
    · exact hands_error
    · exact hands_allocate _

theorem hands_reuseOrStore (surviving : List StoredMeta) :
    Hands call (s.reuseOrStore rt call p surviving) := by
  unfold Store.reuseOrStore
  split
  · obtain ⟨-, -, -, -, -, hsession, hcontent⟩ := existingRecord_eq_some ‹_›
    exact hands_hand hsession hcontent
  · exact hands_storeNew surviving
  · exact hands_error
  · exact hands_error

theorem write_eq_ok {record : ToolResultRecord} (h : (s.write rt call).1 = .ok record) :
    ∃ e ∈ (s.write rt call).2.live, e.handle = record.handle ∧
      e.sessionId = strip call.sessionId ∧ e.content = call.content := by
  have hhands : ∀ result : Except StoreError ToolResultRecord × Store,
      s.write rt call = result → ∃ call', Hands call' result ∧
        (∀ record, result.1 = .ok record → call'.sessionId = strip call.sessionId ∧
          call'.content = call.content) := by
    intro result hresult
    unfold Store.write at hresult
    split at hresult
    · exact ⟨call, hresult ▸ hands_error, fun _ h => by rw [← hresult] at h; cases h⟩
    · rename_i call' p hprepare
      obtain ⟨-, rfl⟩ := prepare_eq_ok hprepare
      refine ⟨stripped call, ?_, fun _ _ => ⟨rfl, rfl⟩⟩
      split at hresult
      · exact hresult ▸ hands_error
      · exact hresult ▸ hands_reuseOrStore _
  obtain ⟨call', hhands, hcall⟩ := hhands _ rfl
  obtain ⟨hsession, hcontent, path, hmem⟩ := hhands record h
  obtain ⟨hsession', hcontent'⟩ := hcall record h
  exact ⟨_, hmem, rfl, hsession.trans hsession', hcontent.trans hcontent'⟩

/-! ### What a reader finds -/

def Readable (rt : Runtime) (s : Store) : Prop :=
  ∀ e ∈ s.live, ∃ record, read rt s.disk e.handle e.sessionId = .ok record ∧
    record.handle = e.handle ∧ record.sessionId = e.sessionId ∧ record.content = e.content

def Separate (rt : Runtime) (s : Store) : Prop :=
  ∀ handle sessionId record, read rt s.disk handle sessionId = .ok record →
    ∃ e ∈ s.live, e.handle = handle ∧ e.sessionId = strip sessionId ∧ e.content = record.content

variable (hgzip : ∀ data, rt.decompress (rt.compress data) = some data)

include hgzip

theorem Sound.readable (h : Sound rt s) : Readable rt s := by
  intro e hmem
  obtain ⟨record, hholds, he⟩ := h.live e hmem
  obtain ⟨p, back, hfits, -⟩ := hholds.files
  have hread := hholds.read hgzip s.disk rfl record.sessionId (by rw [hfits.sessionId]; exact hholds.1)
  rw [if_pos hfits.sessionId.symm] at hread
  rw [he]
  exact ⟨record, hread, rfl, rfl, rfl⟩

omit hgzip in
theorem read_path {disk : Disk} {handle sessionId : Str} {record : ToolResultRecord}
    (h : read rt disk handle sessionId = .ok record) :
    ∃ path, recordDir handle (strip sessionId) = .ok path ∧ disk path ≠ .empty := by
  unfold read at h
  obtain ⟨session, hsession, h⟩ := bind_eq_ok.mp h
  obtain ⟨normalized, hhandle, h⟩ := bind_eq_ok.mp h
  obtain ⟨path, hpath, h⟩ := bind_eq_ok.mp h
  unfold validateNonEmpty at hsession
  unfold validateHandle at hhandle
  split_ifs at hsession hhandle
  cases hsession
  cases hhandle
  refine ⟨path, hpath, fun hempty => ?_⟩
  obtain ⟨info, hinfo, -⟩ := bind_eq_ok.mp h
  rw [hempty] at hinfo
  cases hinfo

theorem Sound.separate (h : Sound rt s) : Separate rt s := by
  intro handle sessionId record hread
  obtain ⟨path, hpath, hdir⟩ := read_path hread
  obtain ⟨stored, hholds, hmem⟩ := (h.stored path).resolve_left hdir
  have hhandle := hholds.handle_eq hpath
  have hown := hholds.read hgzip s.disk rfl sessionId (by rw [hhandle]; exact hpath)
  rw [hhandle, hread] at hown
  split_ifs at hown with hsession
  cases hown
  exact ⟨_, hmem, hhandle, hsession, rfl⟩

/-- Over any run of writes that meet the conditions, records stay readable and apart. -/
theorem tool_results_stay_recoverable
    (hreach : Reach Store.initial (Store.step rt)
      (fun s call => distinctDigest rt s call = true ∧ recoverable rt s call = true) s) :
    Readable rt s ∧ Separate rt s ∧
      ∀ call record, (s.write rt call).1 = .ok record → ∃ e ∈ (s.write rt call).2.live,
        e.handle = record.handle ∧ e.sessionId = strip call.sessionId ∧ e.content = call.content := by
  have hsound : Sound rt s := by
    apply hreach.invariant (fun _ => Sound.initial)
    intro s call s' h hguard hstep
    cases Option.some.inj hstep
    exact h.write hgzip hguard.1 hguard.2
  exact ⟨hsound.readable hgzip, hsound.separate hgzip, fun _ _ h => write_eq_ok h⟩

omit hgzip

/-! ### What is lost -/

theorem write_initial (hinitial : s.initial) {call' : WriteCall}
    (hprepare : prepare rt call = .ok (call', p)) (hretention : call.retentionSeconds = none)
    (hbudget : call.diskBudgetBytes = none) (hfails : call.fails = false) {path : List Str}
    (hpath : recordDir (primaryHandle rt call') call'.sessionId = .ok path) :
    (s.write rt call).2 = (s.put path (recordFiles (newRecord rt call' p (primaryHandle rt call')) p
      call'.written .empty)).hand path (newRecord rt call' p (primaryHandle rt call')) := by
  obtain ⟨-, rfl⟩ := prepare_eq_ok hprepare
  have hempty : s.disk path = .empty := hinitial.1 path
  have hnone : s.existingRecord rt (stripped call) (primaryHandle rt (stripped call)) = .ok none := by
    rw [Store.existingRecord, hpath, ok_bind, hempty, sameContent_empty]
    rfl
  have hexpired : s.removeExpired (stripped call) =
      (.ok (s.iterRecordStats (stripped call)), s) := by
    unfold Store.removeExpired
    rw [show (stripped call).retentionSeconds = none from hretention]
  have hcontent : (s.disk path).hasContent = false := by
    rw [hempty]
    rfl
  unfold Store.write
  rw [hprepare]
  dsimp only
  rw [hexpired]
  dsimp only
  unfold Store.reuseOrStore
  rw [hnone, hpath]
  dsimp only
  unfold Store.storeNew
  rw [show (stripped call).diskBudgetBytes = none from hbudget]
  dsimp only
  rw [candidateHandles, Store.allocate, hpath]
  dsimp only
  rw [if_neg (by rw [hcontent]; decide), Store.storeRecord, hempty]
  rw [if_neg (by rw [show (stripped call).fails = false from hfails]; decide)]

theorem return_notMem_read {disk : Disk} {handle sessionId : Str} {path : List Str} {raw : ByteArray}
    {record back : ToolResultRecord} {time : Int} (hplain : record.storageEncoding = plainEncoding)
    (hpath : recordDir handle (strip sessionId) = .ok path)
    (hdisk : disk path = recordFiles record ⟨raw, raw, toolResultContentName, plainEncoding⟩ time
      .empty)
    (hread : read rt disk handle sessionId = .ok back) : '\r' ∉ back.content := by
  have hinfo : (disk path).info =
      some (metaData (metaFields record raw.size toolResultContentName)) := by
    rw [hdisk]
    rfl
  obtain ⟨fields, hmeta, hget⟩ := loadMeta_of_info record raw.size toolResultContentName hinfo
  unfold read at hread
  obtain ⟨session, hsession, h⟩ := bind_eq_ok.mp hread
  obtain ⟨normalized, hhandle, h⟩ := bind_eq_ok.mp h
  obtain ⟨path', hpath', h⟩ := bind_eq_ok.mp h
  unfold validateNonEmpty at hsession
  unfold validateHandle at hhandle
  split_ifs at hsession hhandle
  cases hsession
  cases hhandle
  cases Except.ok.inj (hpath.symm.trans hpath')
  obtain ⟨value, hvalue, h⟩ := bind_eq_ok.mp h
  rw [hmeta] at hvalue
  cases hvalue
  obtain ⟨info, hinfo, h⟩ := bind_eq_ok.mp h
  cases hinfo
  obtain ⟨data, -, h⟩ := bind_eq_ok.mp h
  obtain ⟨content, hcontent, h⟩ := bind_eq_ok.mp h
  obtain ⟨_, -, h⟩ := bind_eq_ok.mp h
  obtain ⟨_, -, h⟩ := bind_eq_ok.mp h
  obtain ⟨size, -, h⟩ := bind_eq_ok.mp h
  obtain ⟨_, -, h⟩ := bind_eq_ok.mp h
  obtain ⟨stored, -, h⟩ := bind_eq_ok.mp h
  cases pure_eq_ok.mp h
  have hencoding : rt.strOr (fields.get "storage_encoding") plainEncoding = plainEncoding := by
    have hstored : fields.get "storage_encoding" = .str plainEncoding := by
      rw [hget, ← hplain]
      rfl
    rw [hstored]
    rfl
  have hdifferent : plainEncoding ≠ compressedEncoding := by decide
  rw [hencoding, readContent, if_neg hdifferent, demand_eq_ok, readText,
    Option.map_eq_some_iff] at hcontent
  obtain ⟨text, -, rfl⟩ := hcontent
  exact return_notMem_universalNewlines text

theorem read_of_another (hgzip : ∀ data, rt.decompress (rt.compress data) = some data)
    (h : Sound rt s) (hprepared : Prepared rt call p) {handle : Str} {path : List Str}
    (hpath : recordDir handle call.sessionId = .ok path)
    (hanother : belongsToAnother rt call s handle = true) (time : Int) :
    read rt (s.touch time path).disk handle call.sessionId =
      .error (.value "tool result session mismatch") := by
  unfold belongsToAnother at hanother
  rw [hpath] at hanother
  obtain ⟨info, hinfo, hsession⟩ := (Option.any_eq_true _ _).mp hanother
  obtain hempty | ⟨record, hholds, -⟩ := h.stored path
  · rw [hempty, sameContent_empty] at hinfo
    cases hinfo
  obtain ⟨-, hid⟩ := hholds.sameContent hinfo
  have hhandle := hholds.handle_eq hpath
  have hne : record.sessionId ≠ strip call.sessionId := by
    rw [hprepared.sessionId]
    rw [decide_eq_true_eq, hid] at hsession
    exact fun heq => hsession (congrArg Json.str heq)
  have hread := (hholds.touch time).read hgzip (s.touch time path).disk
    (Function.update_self path _ _) call.sessionId
    (by rw [hhandle, hprepared.sessionId]; exact hpath)
  rw [if_neg hne, hhandle] at hread
  exact hread

/-! ### Runs -/

def helloDigest : Str :=
  "2cf24dba5fb0a30e26e83b2ac5b9e29e1b161e5c1fa7425e73043362938b9824".toList
def returnDigest : Str :=
  "18745f36a05e29072709042d6062ce54f1b08ff36c27ba80c39f81fb010c8ce2".toList
def lineDigest : Str :=
  "7e18f737311b2dc3b2f269dd78396b0351f14fb66efa879f768cb23181883c78".toList

def sampleRuntime : Runtime where
  sha256 data :=
    if data = encode "hello".toList then helloDigest
    else if data = encode "a\r\nb".toList then returnDigest
    else if data = encode "a\nb".toList then lineDigest
    else []
  compress := id
  decompress := some
  isoformat _ := "1970-01-01T00:00:00Z".toList
  str _ := []
  int _ := none

def sampleCall (sessionId content : String) : WriteCall where
  content := content.toList
  toolUseId := "t".toList
  toolName := "shell".toList
  sessionId := sessionId.toList
  sessionKey := "k".toList
  agentId := "main".toList
  maxBytes := none
  diskBudgetBytes := none
  retentionSeconds := none
  now := 0
  created := 0
  written := 0
  plainListed := []
  compressedListed := []
  drawn := []
  fails := false

def emptyStore : Store := ⟨fun _ => .empty, []⟩

theorem emptyStore_initial : emptyStore.initial := ⟨fun _ => rfl, rfl⟩

abbrev sampleGuard (s : Store) (call : WriteCall) : Prop :=
  distinctDigest sampleRuntime s call = true ∧ recoverable sampleRuntime s call = true

theorem hello_is_recoverable : ∃ s,
    runActions (guardedStep (Store.step sampleRuntime) sampleGuard)
        [sampleCall "a/b" "hello", sampleCall "two" "a\nb"] emptyStore = some s ∧
      Readable sampleRuntime s ∧ Separate sampleRuntime s := by
  obtain ⟨s, hs⟩ : ∃ s, runActions (guardedStep (Store.step sampleRuntime) sampleGuard)
      [sampleCall "a/b" "hello", sampleCall "two" "a\nb"] emptyStore = some s :=
    Option.isSome_iff_exists.mp (by decide +kernel)
  have hreach := (Reach.start emptyStore_initial).actions hs
  obtain ⟨hreadable, hseparate, -⟩ := tool_results_stay_recoverable (fun _ => rfl) hreach
  exact ⟨s, hs, hreadable, hseparate⟩

/-- A text with a carriage return is returned, and cannot be read. -/
theorem carriage_return_is_lost :
    ¬ ∀ s, Reach Store.initial (Store.step sampleRuntime) anyStep s → Readable sampleRuntime s := by
  intro h
  let call := stripped (sampleCall "one" "a\r\nb")
  let p : Payload := ⟨encode call.content, encode call.content, toolResultContentName, plainEncoding⟩
  let record := newRecord sampleRuntime call p (primaryHandle sampleRuntime call)
  have hprepare : prepare sampleRuntime (sampleCall "one" "a\r\nb") = .ok (call, p) := rfl
  obtain ⟨path, hpath⟩ : ∃ path,
      recordDir (primaryHandle sampleRuntime call) call.sessionId = .ok path :=
    exists_of_isOk (by decide +kernel)
  have hwrite := write_initial emptyStore_initial hprepare rfl rfl rfl hpath
  have hreach : Reach Store.initial (Store.step sampleRuntime) anyStep
      ((emptyStore.put path (recordFiles record p 0 .empty)).hand path record) :=
    (Reach.start emptyStore_initial).next (a := sampleCall "one" "a\r\nb") trivial
      (congrArg some hwrite)
  obtain ⟨back, hread, -, -, hcontent⟩ := h _ hreach (entry path record)
    (List.mem_append_right _ (List.mem_singleton_self _))
  have hdisk : (emptyStore.put path (recordFiles record p 0 .empty)).disk path =
      recordFiles record p 0 .empty := Function.update_self path _ _
  have hreturn := return_notMem_read rfl hpath hdisk hread
  rw [hcontent] at hreturn
  exact hreturn (show '\r' ∈ "a\r\nb".toList by decide)

end OpenStarry.ToolResults
