import OpenStarry.ToolResults.Store

/-!
# What a record directory gives back

A directory that a record was stored in is read back as that record, by the session it was stored
for and by no other. A text that is stored plain has to do without carriage returns.
-/

namespace OpenStarry.ToolResults

open Lib Text Store

/-! ### The file beside the text -/

section Info

variable (record : ToolResultRecord) (size : Nat) (name : Str)

def metaKeys : List Str :=
  ["handle", "tool_use_id", "tool_name", "session_id", "session_key", "agent_id", "sha256", "chars",
    "size_bytes", "stored_size_bytes", "storage_encoding", "content_file", "created_at"].map
    String.toList

theorem nodup_metaFields : ((metaFields record size name).map Prod.fst).Nodup := by
  show metaKeys.Nodup
  decide

theorem flat_metaFields : ∀ p ∈ metaFields record size name, p.2.Flat := by
  simp [metaFields, natJson, Json.Flat]

theorem return_notMem_natJson (n : Nat) :
    '\r' ∉ Json.dumpsWith Json.defaultSeparators (natJson n) := by
  show '\r' ∉ decimal n
  intro hmem
  exact absurd (isDigit_of_mem_decimal hmem) (by decide)

theorem return_notMem_metaFields : ∀ p ∈ metaFields record size name,
    '\r' ∉ Json.dumpsWith Json.defaultSeparators p.2 := by
  have hstr : ∀ s : Str, '\r' ∉ Json.dumpsWith Json.defaultSeparators (.str s) :=
    fun s => Json.return_notMem_quote s
  simp only [metaFields, List.forall_mem_cons]
  exact ⟨hstr _, hstr _, hstr _, hstr _, hstr _, hstr _, hstr _, return_notMem_natJson _,
    return_notMem_natJson _, return_notMem_natJson _, hstr _, hstr _, hstr _, fun _ h => nomatch h⟩

theorem return_notMem_metaText : '\r' ∉ Json.dumpsWith Json.defaultSeparators
    (Json.sortKeys (.obj (metaFields record size name))) := by
  rw [Json.sortKeys, Json.sortFields_of_flat _ (flat_metaFields record size name)]
  apply Json.return_notMem_dumpsWith_obj (by decide) (by decide)
  intro p hp
  exact return_notMem_metaFields record size name p ((Json.sortByKey_perm _).mem_iff.mp hp)

theorem loadMeta_of_info {dir : RecordDir}
    (hinfo : dir.info = some (metaData (metaFields record size name))) :
    ∃ back : Dict, dir.loadMeta = .ok (.obj back) ∧
      ∀ key, back.get key = (metaFields record size name).get key := by
  obtain ⟨back, hback, hlookup⟩ := Json.loads_sortKeys Json.spaced_defaultSeparators
    (nodup_metaFields record size name) (flat_metaFields record size name)
  refine ⟨back, ?_, fun key => ?_⟩
  · have hread : readText (metaData (metaFields record size name)) = some (Json.dumpsWith
        Json.defaultSeparators (Json.sortKeys (.obj (metaFields record size name)))) :=
      readText_encode (return_notMem_metaText record size name)
    rw [RecordDir.loadMeta, hinfo, demand_some, ok_bind, hread, demand_some, ok_bind, hback,
      demand_some]
  · rw [Dict.get, Dict.get, hlookup]

end Info

/-! ### Records that can be read back -/

/-- A payload is kept in a form that gives the text back. -/
inductive Kept (rt : Runtime) (content : Str) : Payload → Prop
  | plain (hreturn : '\r' ∉ content) :
      Kept rt content ⟨encode content, encode content, toolResultContentName, plainEncoding⟩
  | compressed : Kept rt content
      ⟨encode content, rt.compress (encode content), toolResultCompressedContentName,
        compressedEncoding⟩

/-- A record agrees with the payload that is stored for it. -/
structure Fits (rt : Runtime) (record : ToolResultRecord) (p : Payload) : Prop where
  kept : Kept rt record.content p
  sha256 : record.sha256 = rt.sha256 (encode record.content)
  chars : record.chars = record.content.length
  sizeBytes : record.sizeBytes = (encode record.content).size
  storedSizeBytes : record.storedSizeBytes = some (p.stored.size : Int)
  storageEncoding : record.storageEncoding = p.storageEncoding
  sessionId : strip record.sessionId = record.sessionId
  named : record.sessionId ≠ []

def Holds (rt : Runtime) (path : List Str) (dir : RecordDir) (record : ToolResultRecord) : Prop :=
  recordDir record.handle record.sessionId = .ok path ∧
    ∃ p time, Fits rt record p ∧ dir = Store.recordFiles record p time .empty

variable {rt : Runtime} {path : List Str} {dir : RecordDir} {record : ToolResultRecord}

theorem strOr_str (s default : Str) :
    rt.strOr (.str s) default = if s = [] then default else s := rfl

theorem isZero_ofNat {n : Nat} (h : (Number.ofNat n).isZero = true) : n = 0 := by
  by_contra hne
  obtain ⟨c, rest, hdecimal, hc⟩ := Number.head_decimal (Nat.pos_of_ne_zero hne)
  have hdigit : c.isDigit = true :=
    isDigit_of_mem_decimal (n := n) (by rw [hdecimal]; exact List.mem_cons_self)
  have hletter : ∀ d : Char, d.isDigit = false → c ≠ d := by
    intro d hd heq
    rw [heq, hd] at hdigit
    cases hdigit
  have he := hletter 'e' (by decide)
  have hE := hletter 'E' (by decide)
  rw [Number.isZero, Bool.and_eq_true] at h
  have hall := h.2
  rw [show (Number.ofNat n).text = c :: rest from hdecimal, List.takeWhile_cons] at hall
  simp [he, hE, hdigit, hc] at hall

theorem intOf_natJson (n : Nat) : rt.intOf (natJson n) = .ok n := by
  have hdigits : (Number.ofNat n).text.all Char.isDigit = true :=
    List.all_eq_true.mpr fun c hc => isDigit_of_mem_decimal hc
  show (if (Number.ofNat n).text.all Char.isDigit then _ else _) = _
  rw [if_pos hdigits]
  show Except.ok ((Text.intOf (decimal n) : Nat) : Int) = _
  rw [intOf_decimal]

theorem intOr_natJson {n default : Nat} (h : n = 0 → default = 0) :
    rt.intOr (natJson n) default = .ok n := by
  rw [Runtime.intOr]
  split_ifs with htruthy
  · exact intOf_natJson n
  · have hzero : n = 0 := by
      apply isZero_ofNat
      simpa [natJson, Json.truthy] using htruthy
    rw [h hzero, hzero]

theorem Holds.files (h : Holds rt path dir record) : ∃ (p : Payload) (back : Dict),
    Fits rt record p ∧ dir.loadMeta = .ok (.obj back) ∧ dir.hasContent = true ∧
      dir.file p.contentName = some p.stored ∧
      ∀ key, back.get key = (metaFields record p.stored.size p.contentName).get key := by
  obtain ⟨-, p, time, hfits, rfl⟩ := h
  have hinfo : (Store.recordFiles record p time .empty).info =
      some (metaData (metaFields record p.stored.size p.contentName)) := by
    unfold Store.recordFiles
    dsimp only
    split_ifs <;> rfl
  obtain ⟨back, hmeta, hget⟩ := loadMeta_of_info record p.stored.size p.contentName hinfo
  refine ⟨p, back, hfits, hmeta, ?_, ?_, hget⟩
  · unfold Store.recordFiles
    dsimp only
    split_ifs <;> rfl
  · cases hfits.kept <;> rfl

theorem Kept.readContent {content : Str} {p : Payload} (h : Kept rt content p)
    (hgzip : ∀ data, rt.decompress (rt.compress data) = some data) :
    readContent rt p.storageEncoding p.stored = .ok content := by
  cases h with
  | plain hreturn =>
      have hencoding : plainEncoding ≠ compressedEncoding := by decide
      rw [ToolResults.readContent, if_neg hencoding, readText_encode hreturn, demand_some]
  | compressed =>
      rw [ToolResults.readContent, if_pos rfl, hgzip, Option.bind_some, decode_encode, demand_some]

theorem recordDir_eq_ok {handle sessionId : Str} : recordDir handle sessionId = .ok path ↔
    validateHandle handle = .ok handle ∧ strip sessionId ≠ [] ∧
      path = [toolResultStoreSessionBucket, safeToken (strip sessionId), (handle.drop 3).take 2,
        handle] := by
  unfold recordDir validateHandle validateNonEmpty
  split_ifs with hhandle hsession hsession
  · simp [hsession]
  · simp [hsession, pure, Except.pure, eq_comm]
  · simp
  · simp

theorem Holds.handle_eq (h : Holds rt path dir record) {handle sessionId : Str}
    (hpath : recordDir handle sessionId = .ok path) : record.handle = handle := by
  obtain ⟨-, -, hstored⟩ := recordDir_eq_ok.mp h.1
  obtain ⟨-, -, hasked⟩ := recordDir_eq_ok.mp hpath
  rw [hstored] at hasked
  simp only [List.cons.injEq] at hasked
  exact hasked.2.2.2.1

theorem Holds.read (h : Holds rt path dir record)
    (hgzip : ∀ data, rt.decompress (rt.compress data) = some data) (disk : Disk)
    (hdisk : disk path = dir) (sessionId : Str)
    (hpath : recordDir record.handle (strip sessionId) = .ok path) :
    ToolResults.read rt disk record.handle sessionId =
      if record.sessionId = strip sessionId then .ok record
      else .error (.value "tool result session mismatch") := by
  obtain ⟨p, back, hfits, hmeta, -, hfile, hget⟩ := h.files
  obtain ⟨hhandle, hsession, -⟩ := recordDir_eq_ok.mp hpath
  rw [strip_strip] at hsession
  have hnonempty : validateNonEmpty "session_id" sessionId = .ok (strip sessionId) := if_neg hsession
  have hstr : ∀ (key : String) (s default : Str),
      (metaFields record p.stored.size p.contentName).get key = .str s →
      (s = [] → default = []) → rt.strOr (back.get key) default = s := by
    intro key s default hkey hdefault
    rw [hget, hkey, strOr_str]
    split_ifs with hs
    · rw [hdefault hs, hs]
    · rfl
  have hname : rt.strOr (back.get "content_file") toolResultContentName = p.contentName := by
    apply hstr _ _ _ rfl
    cases hfits.kept <;> exact fun h => nomatch h
  have hencoding : rt.strOr (back.get "storage_encoding") plainEncoding = p.storageEncoding := by
    rw [← hfits.storageEncoding]
    apply hstr _ _ _ rfl
    rw [hfits.storageEncoding]
    cases hfits.kept <;> exact fun h => nomatch h
  have hcontent := hfits.kept.readContent hgzip
  have hid : back.get "session_id" = .str record.sessionId := hget "session_id"
  have hsha : back.get "sha256" = .str (rt.sha256 (encode record.content)) := by
    rw [hget, ← hfits.sha256]
    rfl
  have hsize : rt.intOr (back.get "size_bytes") 0 = .ok ((encode record.content).size : Int) := by
    rw [hget, ← hfits.sizeBytes]
    exact intOr_natJson fun _ => rfl
  have hstored : rt.intOr (back.get "stored_size_bytes") p.stored.size =
      .ok (p.stored.size : Int) := by
    rw [hget]
    exact intOr_natJson id
  unfold ToolResults.read
  rw [hnonempty, ok_bind, hhandle, ok_bind, hpath, ok_bind, hdisk]
  dsimp only
  rw [hmeta, ok_bind]
  simp only [Json.fields?, demand_some, ok_bind, hname, hencoding, hfile, hcontent, hid, hsha,
    Json.str.injEq]
  split_ifs with hown
  · rw [require_of hown, ok_bind, require_of trivial, ok_bind, hsize, ok_bind, require_of rfl,
      ok_bind, hstored, ok_bind]
    have htext : ∀ key s, (metaFields record p.stored.size p.contentName).get key = .str s →
        rt.strOr (back.get key) [] = s := fun key s hkey => hstr key s [] hkey fun _ => rfl
    have hsessionId : rt.strOr (.str record.sessionId) (strip sessionId) = record.sessionId := by
      rw [strOr_str, if_neg hfits.named]
    rw [htext "tool_use_id" _ rfl, htext "tool_name" _ rfl, htext "session_key" _ rfl,
      htext "agent_id" _ rfl, htext "created_at" _ rfl, hsessionId, ← hfits.sha256, ← hfits.chars,
      ← hfits.sizeBytes, ← hfits.storedSizeBytes, ← hfits.storageEncoding]
    rfl
  · rw [require, if_neg hown, error_bind]

end OpenStarry.ToolResults
