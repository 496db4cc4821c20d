import Mathlib.Algebra.GroupWithZero.Nat
import OpenStarry.ToolResults.Records

/-!
# Writing tool results

A write cleans up, looks for a record it can reuse, and stores a new one only when there is none. The
times, the drawn handles, the order in which directories are listed and the failures of the file
system are up to the environment.
-/

namespace OpenStarry.ToolResults

open Lib Text

/-! ### Calls -/

/-- A call of `write`, with what the environment answers it. -/
structure WriteCall where
  content : Str
  toolUseId : Str
  toolName : Str
  sessionId : Str
  sessionKey : Str
  agentId : Str
  maxBytes : Option Int
  diskBudgetBytes : Option Int
  retentionSeconds : Option Int
  /-- The clock in microseconds: at the cleanup, at the start of the record, at its end. -/
  now : Int
  created : Int
  written : Int
  /-- Where `rglob` finds a plain, and a compressed text. -/
  plainListed : List (List Str)
  compressedListed : List (List Str)
  /-- Four random handles. -/
  drawn : List Str
  /-- One of the two files cannot be written. -/
  fails : Bool

/-- A record that `write` returned. -/
structure Returned where
  path : List Str
  handle : Str
  sessionId : Str
  content : Str
  deriving DecidableEq

/-- The disk, and the records whose directory was not removed since they were returned. -/
structure Store where
  disk : Disk
  live : List Returned

namespace Store

def initial (s : Store) : Prop := (∀ path, s.disk path = .empty) ∧ s.live = []

def put (s : Store) (path : List Str) (dir : RecordDir) : Store :=
  { s with disk := Function.update s.disk path dir }

/-- `_remove_record_dir`. -/
def removeRecordDir (s : Store) (path : List Str) : Store where
  disk := Function.update s.disk path .empty
  live := s.live.filter fun e => e.path ≠ path

/-! ### Cleaning up -/

structure StoredMeta where
  createdAt : Int
  sizeBytes : Nat
  recordDir : List Str

def storedMeta (file : RecordDir → Option StoredFile) (s : Store) (path : List Str) :
    Option StoredMeta :=
  if (validateHandle (path.getLast?.getD [])).toOption.isSome then
    (file (s.disk path)).map fun f => ⟨f.mtime, f.data.size, path⟩
  else none

/-- `_iter_record_stats`. -/
def iterRecordStats (call : WriteCall) (s : Store) : List StoredMeta :=
  call.plainListed.filterMap (storedMeta (·.content) s) ++
    call.compressedListed.filterMap (storedMeta (·.compressed) s)

/-- The first moment a `datetime` can hold. -/
def datetimeMin : Int := -62135596800000000

/-- The longest `timedelta`, in seconds. -/
def timedeltaMax : Int := 86399999999999

def removeRecords (s : Store) (records : List StoredMeta) : Store :=
  records.foldl (fun s record => s.removeRecordDir record.recordDir) s

/-- `_remove_expired`. -/
def removeExpired (call : WriteCall) (s : Store) : Except StoreError (List StoredMeta) × Store :=
  let records := s.iterRecordStats call
  match call.retentionSeconds with
  | none => (.ok records, s)
  | some retention =>
      let seconds := max 0 retention
      let cutoff := call.now - seconds * 1000000
      if timedeltaMax < seconds ∨ cutoff < datetimeMin then (.error .overflow, s)
      else
        (.ok (records.filter fun record => cutoff ≤ record.createdAt),
          s.removeRecords (records.filter fun record => record.createdAt < cutoff))

def pruneRecords (incoming budget : Nat) : List StoredMeta → Nat → Store → Bool × Store
  | [], _, s => (false, s)
  | record :: rest, current, s =>
      let s := s.removeRecordDir record.recordDir
      let current := current - record.sizeBytes
      if current + incoming ≤ budget then (true, s) else pruneRecords incoming budget rest current s

/-- `_prune_to_fit`. -/
def pruneToFit (records : List StoredMeta) (incoming : Nat) (diskBudgetBytes : Int) (s : Store) :
    Except StoreError Unit × Store :=
  let budget := (max 0 diskBudgetBytes).toNat
  let records := records.insertionSort fun a b => a.createdAt ≤ b.createdAt
  let current := (records.map (·.sizeBytes)).sum
  if current + incoming ≤ budget then (.ok (), s)
  else
    match pruneRecords incoming budget records current s with
    | (true, s) => (.ok (), s)
    | (false, s) =>
        if budget < incoming then
          (.error (.budget ("tool result snapshot exceeds disk budget (".toList ++ decimal incoming ++
            " > ".toList ++ decimal budget ++ ")".toList)), s)
        else (.ok (), s)

/-! ### Payloads -/

/-- What is stored of a text. -/
structure Payload where
  raw : ByteArray
  stored : ByteArray
  contentName : Str
  storageEncoding : Str

def exceeds (limit : Option Int) (size : Nat) : Bool := limit.any fun limit => limit < (size : Int)

def payload (rt : Runtime) (maxBytes : Option Int) (content : Str) : Payload :=
  let raw := encode content
  let compressed := rt.compress raw
  if exceeds maxBytes raw.size ∧ compressed.size < raw.size then
    ⟨raw, compressed, toolResultCompressedContentName, compressedEncoding⟩
  else ⟨raw, raw, toolResultContentName, plainEncoding⟩

def intText (n : Int) : Str := if n < 0 then '-' :: decimal n.natAbs else decimal n.natAbs

/-- The validated ids and the payload of a call. -/
def prepare (rt : Runtime) (call : WriteCall) : Except StoreError (WriteCall × Payload) := do
  let sessionId ← validateNonEmpty "session_id" call.sessionId
  let sessionKey ← validateNonEmpty "session_key" call.sessionKey
  let agentId ← validateNonEmpty "agent_id" call.agentId
  require ((encode call.content).size ≠ 0) (.budget "tool result snapshot is empty".toList)
  let p := payload rt call.maxBytes call.content
  require (¬ exceeds call.maxBytes p.stored.size)
    (.budget ("tool result snapshot exceeds per-result budget (stored=".toList ++
      decimal p.stored.size ++ ", raw=".toList ++ decimal p.raw.size ++ ", max=".toList ++
      intText (call.maxBytes.getD 0) ++ ")".toList))
  return ({ call with sessionId := sessionId, sessionKey := sessionKey, agentId := agentId }, p)

/-! ### Reusing a record -/

def sha (rt : Runtime) (call : WriteCall) : Str := rt.sha256 (encode call.content)

def sameContent (dir : RecordDir) (sha : Str) : Option Dict :=
  if dir.hasContent then dir.readMeta.filter fun info => info.get "sha256" = .str sha else none

/-- `int(value) if value is not None else None`. -/
def optionalInt (rt : Runtime) (value : Json) : Except StoreError (Option Int) :=
  if value = .null then .ok none else (rt.intOf value).map some

/-- `_existing_record`. -/
def existingRecord (rt : Runtime) (call : WriteCall) (handle : Str) (s : Store) :
    Except StoreError (Option ToolResultRecord) := do
  let path ← recordDir handle call.sessionId
  match sameContent (s.disk path) (sha rt call) with
  | none => return none
  | some info =>
      let storedSizeBytes ← optionalInt rt (info.get "stored_size_bytes")
      return some {
        handle := handle
        toolUseId := call.toolUseId
        toolName := call.toolName
        sessionId := call.sessionId
        sessionKey := call.sessionKey
        agentId := call.agentId
        sha256 := sha rt call
        chars := call.content.length
        sizeBytes := (encode call.content).size
        createdAt := rt.strOr (info.get "created_at") []
        content := call.content
        storedSizeBytes := storedSizeBytes
        storageEncoding := rt.strOr (info.get "storage_encoding") plainEncoding }

/-- `_touch`. -/
def touch (time : Int) (path : List Str) (s : Store) : Store :=
  let dir := s.disk path
  s.put path
    { dir with
      content := dir.content.map fun file => { file with mtime := time }
      compressed := dir.compressed.map fun file => { file with mtime := time } }

def hand (s : Store) (path : List Str) (record : ToolResultRecord) : Store :=
  { s with live := s.live ++ [⟨path, record.handle, record.sessionId, record.content⟩] }

/-! ### Storing a record -/

/-- The record that a call stores under a handle. -/
def newRecord (rt : Runtime) (call : WriteCall) (p : Payload) (handle : Str) : ToolResultRecord where
  handle := handle
  toolUseId := call.toolUseId
  toolName := call.toolName
  sessionId := call.sessionId
  sessionKey := call.sessionKey
  agentId := call.agentId
  sha256 := sha rt call
  chars := call.content.length
  sizeBytes := p.raw.size
  createdAt := rt.isoformat call.created
  content := call.content
  storedSizeBytes := some (p.stored.size : Int)
  storageEncoding := p.storageEncoding

def recordFiles (record : ToolResultRecord) (p : Payload) (time : Int) (dir : RecordDir) :
    RecordDir :=
  let info := some (metaData (metaFields record p.stored.size p.contentName))
  if p.contentName = toolResultContentName then
    { dir with info := info, content := some ⟨p.stored, time⟩ }
  else { dir with info := info, compressed := some ⟨p.stored, time⟩ }

def storeRecord (call : WriteCall) (p : Payload) (record : ToolResultRecord) (path : List Str)
    (s : Store) : Except StoreError ToolResultRecord × Store :=
  if call.fails then (.error .os, s.removeRecordDir path)
  else
    (.ok record, (s.put path (recordFiles record p call.written (s.disk path))).hand path record)

/-- The loop over the candidate handles. -/
def allocate (rt : Runtime) (call : WriteCall) (p : Payload) :
    List Str → Store → Except StoreError ToolResultRecord × Store
  | [], s => (.error (.exists "could not allocate unique tool result handle"), s)
  | handle :: rest, s =>
      match recordDir handle call.sessionId with
      | .error e => (.error e, s)
      | .ok path =>
          if (s.disk path).hasContent then
            match s.existingRecord rt call handle with
            | .error e => (.error e, s)
            | .ok (some reused) => (.ok reused, (s.touch call.written path).hand path reused)
            | .ok none => allocate rt call p rest s
          else s.storeRecord call p (newRecord rt call p handle) path

def primaryHandle (rt : Runtime) (call : WriteCall) : Str :=
  "tr-".toList ++ (sha rt call).take contentHandleHex

def candidateHandles (rt : Runtime) (call : WriteCall) : List Str :=
  primaryHandle rt call :: call.drawn

def storeNew (rt : Runtime) (call : WriteCall) (p : Payload) (surviving : List StoredMeta)
    (s : Store) : Except StoreError ToolResultRecord × Store :=
  match call.diskBudgetBytes with
  | none => allocate rt call p (candidateHandles rt call) s
  | some budget =>
      match pruneToFit surviving p.stored.size budget s with
      | (.error e, s) => (.error e, s)
      | (.ok (), s) => allocate rt call p (candidateHandles rt call) s

/-- `write` once the arguments are checked and what has expired is gone. -/
def reuseOrStore (rt : Runtime) (call : WriteCall) (p : Payload) (surviving : List StoredMeta)
    (s : Store) : Except StoreError ToolResultRecord × Store :=
  match s.existingRecord rt call (primaryHandle rt call),
    recordDir (primaryHandle rt call) call.sessionId with
  | .ok (some reused), .ok path => (.ok reused, (s.touch call.written path).hand path reused)
  | .ok none, _ => s.storeNew rt call p surviving
  | .ok (some _), .error e => (.error e, s)
  | .error e, _ => (.error e, s)

/-- `ToolResultStore.write`. -/
def write (rt : Runtime) (call : WriteCall) (s : Store) :
    Except StoreError ToolResultRecord × Store :=
  match prepare rt call with
  | .error e => (.error e, s)
  | .ok (call, p) =>
      match s.removeExpired call with
      | (.error e, s) => (.error e, s)
      | (.ok surviving, s) => s.reuseOrStore rt call p surviving

def step (rt : Runtime) (s : Store) (call : WriteCall) : Option Store := some (s.write rt call).2

end Store

end OpenStarry.ToolResults
