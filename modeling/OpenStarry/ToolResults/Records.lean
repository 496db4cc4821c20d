import OpenStarry.Lib.Outcome
import OpenStarry.Lib.SortKeys

/-!
# Stored tool results

A raw tool result is kept in a directory of its own: its text, plain or compressed, and a file with
what is known about it. The directory is named by the session it belongs to and by a handle that is
made of the digest of the text.
-/

namespace OpenStarry.ToolResults

open Lib Text

/-! ### The built-in functions -/

/-- Functions of the standard library that the store calls. -/
structure Runtime where
  /-- `sha256(data).hexdigest()`. -/
  sha256 : ByteArray → Str
  /-- `gzip.compress` and `gzip.decompress`, which may raise. -/
  compress : ByteArray → ByteArray
  decompress : ByteArray → Option ByteArray
  /-- A time in microseconds as its ISO text. -/
  isoformat : Int → Str
  /-- `str(value)` of a value that is no string. -/
  str : Json → Str
  /-- `int(value)` of a value that is no integer, where it does not raise. -/
  int : Json → Option Int

inductive StoreError where
  | value (message : String)
  | budget (message : Str)
  | exists (message : String)
  | os | decode | json | attribute | overflow
  deriving DecidableEq

/-- `str(value or default)`. -/
def Runtime.strOr (rt : Runtime) (value : Json) (default : Str) : Str :=
  match value with
  | .str s => if s = [] then default else s
  | _ => if value.truthy then rt.str value else default

/-- `int(value)`. -/
def Runtime.intOf (rt : Runtime) (value : Json) : Except StoreError Int :=
  match value with
  | .num n => if n.text.all Char.isDigit then .ok (Text.intOf n.text) else demand (rt.int value) (.value "int")
  | _ => demand (rt.int value) (.value "int")

/-- `int(value or default)`. -/
def Runtime.intOr (rt : Runtime) (value : Json) (default : Int) : Except StoreError Int :=
  if value.truthy then rt.intOf value else .ok default

/-! ### Names -/

def toolResultStoreSessionBucket : Str := "s".toList
def toolResultContentName : Str := "content.txt".toList
def toolResultCompressedContentName : Str := "content.txt.gz".toList
def toolResultMetaName : Str := "meta.json".toList

def contentHandleHex : Nat := 32

/-- `_validate_handle`. -/
def validateHandle (value : Str) : Except StoreError Str :=
  if "tr-".toList.isPrefixOf value ∧ (value.drop 3).length = 32 ∧
      (value.drop 3).all (· ∈ "0123456789abcdef".toList) then .ok value
  else .error (.value "tool result handle is invalid")

/-- `_validate_non_empty`. -/
def validateNonEmpty (name : String) (value : Str) : Except StoreError Str :=
  if strip value = [] then .error (.value (name ++ " is required")) else .ok (strip value)

def isSafe (c : Char) : Bool :=
  c.isAlphanum || c = '.' || c = '_' || c = '-'

/-- `_SAFE_TOKEN_RE.sub("-", text)`: each run of other characters becomes one dash. -/
def replaceUnsafe : Bool → Str → Str
  | _, [] => []
  | inside, c :: rest =>
      if isSafe c then c :: replaceUnsafe false rest
      else if inside then replaceUnsafe true rest
      else '-' :: replaceUnsafe true rest

/-- `_safe_token`. -/
def safeToken (value : Str) : Str :=
  let edge := fun c : Char => c = '.' || c = '-'
  let token := ((replaceUnsafe false (strip value)).dropWhile edge).rdropWhile edge
  if token.take 80 = [] then "session".toList else token.take 80

/-- `_record_dir`: the names below the root. -/
def recordDir (handle sessionId : Str) : Except StoreError (List Str) := do
  let normalized ← validateHandle handle
  let sessionId ← validateNonEmpty "session_id" sessionId
  return [toolResultStoreSessionBucket, safeToken sessionId, (normalized.drop 3).take 2, normalized]

/-! ### Records -/

structure ToolResultRecord where
  handle : Str
  toolUseId : Str
  toolName : Str
  sessionId : Str
  sessionKey : Str
  agentId : Str
  sha256 : Str
  chars : Nat
  sizeBytes : Nat
  createdAt : Str
  content : Str
  storedSizeBytes : Option Int
  storageEncoding : Str
  deriving DecidableEq

def plainEncoding : Str := "utf-8".toList
def compressedEncoding : Str := "gzip+utf-8".toList

def natJson (n : Nat) : Json := .num (Number.ofNat n)

/-- The fields of the file that is kept beside the text of a record. -/
def metaFields (record : ToolResultRecord) (storedSizeBytes : Nat) (contentName : Str) : Dict :=
  [("handle".toList, .str record.handle), ("tool_use_id".toList, .str record.toolUseId),
    ("tool_name".toList, .str record.toolName), ("session_id".toList, .str record.sessionId),
    ("session_key".toList, .str record.sessionKey), ("agent_id".toList, .str record.agentId),
    ("sha256".toList, .str record.sha256), ("chars".toList, natJson record.chars),
    ("size_bytes".toList, natJson record.sizeBytes),
    ("stored_size_bytes".toList, natJson storedSizeBytes),
    ("storage_encoding".toList, .str record.storageEncoding),
    ("content_file".toList, .str contentName), ("created_at".toList, .str record.createdAt)]

def metaData (fields : Dict) : ByteArray :=
  encode (Json.dumpsWith Json.defaultSeparators (Json.sortKeys (.obj fields)))

/-! ### Directories -/

structure StoredFile where
  data : ByteArray
  mtime : Int

/-- What a record directory holds. A directory that holds nothing stands for a missing one. -/
structure RecordDir where
  info : Option ByteArray
  content : Option StoredFile
  compressed : Option StoredFile

namespace RecordDir

def empty : RecordDir := ⟨none, none, none⟩

def hasContent (dir : RecordDir) : Bool := dir.content.isSome || dir.compressed.isSome

def file (dir : RecordDir) (name : Str) : Option ByteArray :=
  if name = toolResultContentName then dir.content.map (·.data)
  else if name = toolResultCompressedContentName then dir.compressed.map (·.data)
  else if name = toolResultMetaName then dir.info
  else none

/-- `json.loads` of the file beside the text. -/
def loadMeta (dir : RecordDir) : Except StoreError Json := do
  let data ← demand dir.info .os
  let text ← demand (readText data) .decode
  demand (Json.loads id text) .json

/-- `_read_meta`. -/
def readMeta (dir : RecordDir) : Option Dict := dir.loadMeta.toOption.bind Json.fields?

end RecordDir

abbrev Disk := List Str → RecordDir

/-! ### Reading -/

def readContent (rt : Runtime) (storageEncoding : Str) (data : ByteArray) : Except StoreError Str :=
  if storageEncoding = compressedEncoding then
    demand ((rt.decompress data).bind decode) .decode
  else demand (readText data) .decode

/-- `ToolResultStore.read`. -/
def read (rt : Runtime) (disk : Disk) (handle sessionId : Str) :
    Except StoreError ToolResultRecord := do
  let sessionId ← validateNonEmpty "session_id" sessionId
  let normalized ← validateHandle handle
  let path ← recordDir normalized sessionId
  let dir := disk path
  let info ← demand (← dir.loadMeta).fields? .attribute
  let contentName := rt.strOr (info.get "content_file") toolResultContentName
  let storageEncoding := rt.strOr (info.get "storage_encoding") plainEncoding
  let data ← demand (dir.file contentName) .os
  let content ← readContent rt storageEncoding data
  let payload := encode content
  let sha := rt.sha256 payload
  require (info.get "session_id" = .str sessionId) (.value "tool result session mismatch")
  require (info.get "sha256" = .str sha) (.value "tool result hash mismatch")
  let sizeBytes ← rt.intOr (info.get "size_bytes") 0
  require (sizeBytes = payload.size) (.value "tool result size mismatch")
  let storedSizeBytes ← rt.intOr (info.get "stored_size_bytes") data.size
  return {
    handle := normalized
    toolUseId := rt.strOr (info.get "tool_use_id") []
    toolName := rt.strOr (info.get "tool_name") []
    sessionId := rt.strOr (info.get "session_id") sessionId
    sessionKey := rt.strOr (info.get "session_key") []
    agentId := rt.strOr (info.get "agent_id") []
    sha256 := sha
    chars := content.length
    sizeBytes := payload.size
    createdAt := rt.strOr (info.get "created_at") []
    content := content
    storedSizeBytes := some storedSizeBytes
    storageEncoding := storageEncoding }

end OpenStarry.ToolResults
