import OpenStarry.Lib.Json
import OpenStarry.Lib.Substring

/-!
# Transcript entries

A transcript entry is a dict. Whether it calls tools or holds their results is read off its fields;
an assistant row of a whole turn does both, its calls and their results are the segments of one
list.
-/

namespace OpenStarry.Compaction

open Lib Lib.Text

abbrev Entry := Dict

/-- How values are shown and texts are lowered. -/
structure Texts where
  lower : Str → Str
  repr : Json → Str

variable (texts : Texts)

namespace Texts

/-- `str(value)`. -/
def str : Json → Str
  | .str s => s
  | value => texts.repr value

/-- `str(value or "")`. -/
def strOr (value : Json) : Str := if value.truthy then texts.str value else []

/-- `str(value or "").strip().lower()`. -/
def word (value : Json) : Str := texts.lower (strip (texts.strOr value))

end Texts

/-- `a or b`. -/
def either (a b : Json) : Json := if a.truthy then a else b

/-- `pattern in text`. -/
def contains (pattern text : Str) : Bool := (find pattern text).isSome

/-! ### Calls and results -/

def isResultSegment (segment : Dict) : Bool :=
  texts.word (segment.get "type") = "tool_result".toList || segment.has "result"

/-- `_nested_tool_result_segments`. -/
def nestedToolResultSegments (entry : Entry) : List Dict :=
  ((entry.get "tool_calls").items.filterMap Json.fields?).filter (isResultSegment texts)

/-- `_is_assistant_tool_call_entry`. -/
def isAssistantToolCallEntry (entry : Entry) : Bool :=
  if entry.get "role" ≠ .str "assistant".toList then false
  else if (entry.get "tool_calls").truthy then true
  else
    let content := texts.strOr (entry.get "content")
    contains "[tool_call:".toList content || contains "[Used tool:".toList content

/-- `_is_tool_result_entry` of an entry that is there. -/
def isToolResultEntry (entry : Entry) : Bool :=
  if entry.get "role" = .str "tool".toList || (entry.get "tool_call_id").truthy then true
  else if nestedToolResultSegments texts entry ≠ [] then true
  else "[Tool result ".toList.isPrefixOf (lstrip (texts.strOr (entry.get "content")))

/-- `_is_tool_result_entry(entries[i] if i < len(entries) else None)`. -/
def isResultAt (entries : List Entry) (i : Nat) : Bool :=
  (entries[i]?).any (isToolResultEntry texts)

def isCallAt (entries : List Entry) (i : Nat) : Bool :=
  (entries[i]?).any (isAssistantToolCallEntry texts)

/-! ### Live rounds -/

def liveStatuses : List String :=
  ["pending", "running", "in_progress", "unresolved", "waiting", "queued", "requires_action",
    "awaiting_approval"]

def liveReasons : List String :=
  ["background_running", "pending", "queued", "running", "requires_action", "awaiting_approval",
    "unresolved"]

def livePreservationClasses : List String := ["ephemeral", "unresolved"]

/-- `_execution_status_parts`. -/
def executionStatusParts : Json → Str × Str × Str
  | .obj fields =>
      (texts.word (Dict.get fields "status"), texts.word (Dict.get fields "reason"),
        texts.word (Dict.get fields "preservation_class"))
  | value => (texts.word value, [], [])

/-- `_execution_status_is_live`. -/
def executionStatusIsLive (value : Json) : Bool :=
  let parts := executionStatusParts texts value
  liveStatuses.any (fun s => s.toList = parts.1) || liveReasons.any (fun s => s.toList = parts.2.1) ||
    livePreservationClasses.any fun s => s.toList = parts.2.2

/-- What is open in a round: calls by their ids, calls without one, a call that is only text. -/
structure Open where
  pendingIds : List Str
  unidentifiedCalls : Nat
  unstructuredCall : Bool

namespace Open

def answer (o : Open) (id : Str) : Open :=
  if id ≠ [] then { o with pendingIds := o.pendingIds.filter (· ≠ id) }
  else { o with unidentifiedCalls := o.unidentifiedCalls - 1 }

def call (o : Open) (id : Str) : Open :=
  if id ≠ [] then { o with pendingIds := id :: o.pendingIds }
  else { o with unidentifiedCalls := o.unidentifiedCalls + 1 }

end Open

def isCallSegment (segment : Dict) (segmentId : Str) : Bool :=
  let segmentType := texts.word (segment.get "type")
  segmentType = "tool_use".toList || segmentType = "function".toList ||
    (segment.get "function").fields?.isSome ||
    (segmentType = [] && !isResultSegment texts segment && segmentId ≠ [] &&
      (segment.has "name" || segment.has "arguments" || segment.has "input"))

def openAfterSegment (o : Open) (segment : Dict) : Option Open :=
  let segmentId := strip (texts.strOr (either (segment.get "tool_use_id") (segment.get "id")))
  if isCallSegment texts segment segmentId then some (o.call segmentId)
  else if isResultSegment texts segment then
    if executionStatusIsLive texts (either (segment.get "execution_status") (segment.get "status"))
    then none
    else some (o.answer segmentId)
  else some o

def openAfterCalls (o : Open) (entry : Entry) : Option Open :=
  match entry.get "tool_calls" with
  | .arr segments => (segments.filterMap Json.fields?).foldlM (openAfterSegment texts) o
  | _ =>
      if isAssistantToolCallEntry texts entry then some { o with unstructuredCall := true }
      else some o

def openAfterResult (o : Open) (entry : Entry) : Option Open :=
  if isToolResultEntry texts entry && (nestedToolResultSegments texts entry).isEmpty then
    if executionStatusIsLive texts (either (entry.get "execution_status") (entry.get "status")) then
      none
    else
      let answered := o.answer (strip (texts.strOr (entry.get "tool_call_id")))
      some { answered with unstructuredCall := false }
  else some o

/-- `_api_round_requires_raw`. -/
def apiRoundRequiresRaw (entries : List Entry) : Bool :=
  let opened := entries.foldlM
    (fun o entry => (openAfterCalls texts o entry).bind fun o => openAfterResult texts o entry)
    ⟨[], 0, false⟩
  match opened with
  | none => true
  | some o =>
      let unansweredUser := (entries.getLast?).any fun last =>
        last.get "role" = .str "user".toList && !isToolResultEntry texts last
      unansweredUser || !o.pendingIds.isEmpty || 0 < o.unidentifiedCalls || o.unstructuredCall

end OpenStarry.Compaction

/-!
# Rounds of a transcript, and where a prefix may end

A transcript is cut only between API rounds: a request, its answer, and the calls and results in
between. A cut that would leave tool results without their call is moved back.
-/

namespace OpenStarry.Compaction

open Lib Lib.Text

variable (texts : Texts)

/-! ### Rounds -/

/-- The groups that are complete, and the one being collected. -/
structure Grouping where
  groups : List (List Entry)
  current : List Entry

namespace Grouping

def flush (g : Grouping) : Grouping :=
  if g.current = [] then g else ⟨g.groups ++ [g.current], []⟩

def append (g : Grouping) (entry : Entry) : Grouping := ⟨g.groups, g.current ++ [entry]⟩

end Grouping

def closeBefore (g : Grouping) (entry : Entry) : Grouping :=
  let role := texts.strOr (entry.get "role")
  if role = "user".toList ∧ g.current ≠ [] ∧ ¬ isToolResultEntry texts entry then g.flush
  else if role = "assistant".toList ∧ g.current ≠ [] then
    if g.current.any (isToolResultEntry texts) then g.flush else g
  else g

def closeAfter (g : Grouping) (entry : Entry) : Grouping :=
  if isAssistantToolCallEntry texts entry then g
  else if isToolResultEntry texts entry then g
  else if texts.strOr (entry.get "role") = "assistant".toList then g.flush
  else g

def groupStep (g : Grouping) (entry : Entry) : Grouping :=
  closeAfter texts ((closeBefore texts g entry).append entry) entry

/-- `_api_round_groups`. -/
def apiRoundGroups (entries : List Entry) : List (List Entry) :=
  ((entries.foldl (groupStep texts) ⟨[], []⟩).flush).groups

def offsets (start : Nat) : List (List Entry) → List Nat
  | [] => []
  | group :: rest => (start + group.length) :: offsets (start + group.length) rest

/-- `_api_round_boundaries`. -/
def apiRoundBoundaries (entries : List Entry) : List Nat :=
  0 :: offsets 0 (apiRoundGroups texts entries)

/-! ### Moving a cut back -/

/-- `while result_start > 0 and _is_tool_result_entry(entries[result_start - 1])`. -/
def resultStart (entries : List Entry) : Nat → Nat
  | 0 => 0
  | i + 1 => if isResultAt texts entries i then resultStart entries i else i + 1

def retreatStep (entries : List Entry) (cut : Nat) : Nat ⊕ Nat :=
  if cut = 0 then .inr 0
  else
    let start := resultStart texts entries cut
    if isResultAt texts entries cut ∧ 0 < start ∧ isCallAt texts entries (start - 1) then
      .inl (start - 1)
    else if isResultAt texts entries cut ∧ start ≠ cut then .inl start
    else if ¬ (isCallAt texts entries (cut - 1) ∧ isResultAt texts entries cut) then .inr cut
    else .inl (cut - 1)

def retreatLoop (entries : List Entry) : Nat → Nat → Nat
  | 0, cut => cut
  | fuel + 1, cut =>
      match retreatStep texts entries cut with
      | .inl next => retreatLoop entries fuel next
      | .inr done => done

/-- `_retreat_to_turn_boundary`: every round but the last moves the cut back. -/
def retreatToTurnBoundary (entries : List Entry) (cut : Nat) : Nat :=
  retreatLoop texts entries (cut + 1) cut

/-- `max` of the boundaries that are not behind a cut. -/
def roundStart (entries : List Entry) (cut : Nat) : Nat :=
  ((apiRoundBoundaries texts entries).filter (· ≤ cut)).foldl max 0

/-- `_retreat_to_api_round_boundary`: 0 is always eligible. -/
def retreatToApiRoundBoundary (entries : List Entry) (cut : Nat) : Nat :=
  retreatToTurnBoundary texts entries (roundStart texts entries cut)

/-! ### The protected tail -/

/-- `_semantic_protected_tail_start`. -/
def semanticProtectedTailStart (entries : List Entry) : Nat :=
  match (apiRoundGroups texts entries).getLast? with
  | none => entries.length
  | some last =>
      if apiRoundRequiresRaw texts last then entries.length - last.length else entries.length

inductive CompactionProfile where
  | conversation
  | coding
  | research
  | support
  deriving DecidableEq, Repr

/-- The settings the cut and the gates read. -/
structure CompactionConfig where
  /-- `total_tokens * safety_margin > window`. -/
  overBudget : Nat → Int → Bool
  compactionProfile : CompactionProfile
  protectedRecentMessages : Int
  protectSemanticTail : Bool
  coverageBlocking : Bool
  /-- A summarizing model is configured. -/
  networkEnabled : Bool
  llmCallLimit : Nat

/-- `_profile_protected_recent_messages`. -/
def profileProtectedRecentMessages (cfg : CompactionConfig) : Nat :=
  let configured := cfg.protectedRecentMessages.toNat
  if configured ≠ 0 then configured
  else if cfg.compactionProfile ∈ [.coding, .research, .support] then 12
  else 0

/-- `protected_start`. -/
def protectedStart (entries : List Entry) (cfg : CompactionConfig) : Nat :=
  let protectedRecent := profileProtectedRecentMessages cfg
  if 0 < protectedRecent then entries.length - protectedRecent else entries.length

/-- `semantic_start`. -/
def semanticStart (entries : List Entry) (cfg : CompactionConfig) : Nat :=
  if cfg.protectSemanticTail then semanticProtectedTailStart texts entries else entries.length

/-- `_apply_protected_tail`. -/
def applyProtectedTail (entries : List Entry) (cut : Nat) (cfg : CompactionConfig) : Nat :=
  min (min cut (protectedStart entries cfg)) (semanticStart texts entries cfg)

end OpenStarry.Compaction
