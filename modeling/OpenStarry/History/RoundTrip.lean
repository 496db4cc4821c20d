import OpenStarry.History.Reload
import OpenStarry.Lib.JsonRoundTrip

/-!
# A turn stored and read back

What a turn of the assistant is before it is stored: rounds of texts and calls, each with the
results of its calls. Its segments give the rounds back.
-/

namespace OpenStarry.History

open Lib Text

/-! ### Turns -/

def fields (l : List (String × Json)) : Dict := l.map fun p => (p.1.toList, p.2)

inductive Part where
  | text (s : String)
  | toolUse (id name : String) (input : Dict)
  deriving DecidableEq, Repr

/-- A result may have been stored without a status. -/
structure ResultPart where
  toolUseId : String
  content : Json
  isError : Bool
  status : Option ExecutionStatus
  deriving DecidableEq, Repr

def IsResultContent : Json → Prop
  | .str _ => True
  | .arr _ => True
  | _ => False

namespace Part

def useId : Part → Option String
  | text _ => none
  | toolUse id _ _ => some id

def textOf : Part → Option String
  | text s => some s
  | toolUse _ _ _ => none

def Filled : Part → Prop
  | text s => s ≠ ""
  | toolUse id name _ => id ≠ "" ∧ name ≠ ""

def block : Part → Block Payload
  | text s => .text s
  | toolUse id name input => .toolUse id name (.input input)

def segment : Part → Segment
  | text s => fields [("type", .str "text".toList), ("text", .str s.toList)]
  | toolUse id name input =>
      fields [("type", .str "tool_use".toList), ("tool_use_id", .str id.toList),
        ("name", .str name.toList), ("input", .obj input)]

end Part

namespace ExecutionStatus

def exitCodeJson (s : ExecutionStatus) : Json :=
  match s.exitCode with
  | none => .null
  | some n => .num n.number

def reasonJson (s : ExecutionStatus) : Json :=
  match s.reason with
  | none => .null
  | some reason => .str reason

def dict (s : ExecutionStatus) : Dict :=
  fields [("version", .num (Number.ofNat 1)), ("status", .str s.status.name),
    ("exit_code", s.exitCodeJson), ("timed_out", .bool s.timedOut),
    ("truncated", .bool s.truncated), ("reason", s.reasonJson), ("source", .str s.source.name),
    ("preservation_class", .str s.preservationClass.name)]

end ExecutionStatus

namespace ResultPart

def block (r : ResultPart) : Block Payload :=
  .toolResult r.toolUseId
    (.result r.content (r.status.getD (normalizeLegacyExecutionStatus r.isError))) r.isError

/-- `_persisted_tool_result_segment`, with the name of the tool. -/
def segment (r : ResultPart) (name : String) : Segment :=
  fields ([("type", .str "tool_result".toList), ("tool_use_id", .str r.toolUseId.toList),
    ("name", .str name.toList), ("result", r.content), ("is_error", .bool r.isError)] ++
    (r.status.map fun s => ("execution_status", .obj s.dict)).toList)

end ResultPart

structure Iteration where
  parts : List Part
  results : List ResultPart
  nonempty : parts ≠ []
  filled : ∀ p ∈ parts, p.Filled
  answered : ∀ id, id ∈ results.map ResultPart.toolUseId ↔ id ∈ parts.filterMap Part.useId
  once : (results.map ResultPart.toolUseId).Nodup
  contents : ∀ r ∈ results, IsResultContent r.content

namespace Iteration

def useIds (it : Iteration) : List String := it.parts.filterMap Part.useId

def toolName (it : Iteration) (id : String) : String :=
  (it.parts.findSome? fun
    | .toolUse id' name _ => if id' = id then some name else none
    | .text _ => none).getD ""

def segments (it : Iteration) : List Segment :=
  it.parts.map Part.segment ++
    it.results.map fun r => r.segment (it.toolName r.toolUseId)

def messages (it : Iteration) (reasoning : Option String) : List (Message Payload) :=
  ⟨.assistant, .blocks (it.parts.map Part.block), reasoning⟩ ::
    if it.results = [] then [] else [⟨.user, .blocks (it.results.map ResultPart.block), none⟩]

def texts (it : Iteration) : List String := it.parts.filterMap Part.textOf

end Iteration

/-- Only the last round may be without a call. -/
structure Turn where
  iterations : List Iteration
  rounds : ∀ it ∈ iterations.dropLast, it.useIds ≠ []

namespace Turn

def segments (turn : Turn) : List Segment := turn.iterations.flatMap Iteration.segments

def messages (turn : Turn) (reasoning : Option String) : List (Message Payload) :=
  match turn.iterations with
  | [] => []
  | it :: rest => it.messages reasoning ++ rest.flatMap fun it => it.messages none

def content (turn : Turn) : Str :=
  (turn.iterations.flatMap fun it => it.texts.map String.toList).flatten

def lastText (turn : Turn) : Str :=
  ['\n'].intercalate (((turn.iterations.getLast?).toList.flatMap Iteration.texts).map String.toList)

end Turn

/-! ### Single segments -/

theorem lookup_fields (l : List (String × Json)) (key : String) :
    (fields l).lookup key.toList = l.lookup key := by
  induction l with
  | nil => rfl
  | cons p rest ih =>
      obtain ⟨k, value⟩ := p
      have hsame : (key.toList == k.toList) = (key == k) := by
        rw [Bool.eq_iff_iff, beq_iff_eq, beq_iff_eq, String.toList_inj]
      rw [fields, List.map_cons, List.lookup_cons, List.lookup_cons, hsame, ← fields, ih]

theorem get_fields (l : List (String × Json)) (key : String) :
    (fields l).get key = (l.lookup key).getD .null := by
  rw [Dict.get, lookup_fields]

theorem has_fields (l : List (String × Json)) (key : String) :
    (fields l).has key = (l.lookup key).isSome := by
  rw [Dict.has, lookup_fields]

theorem truthy_str {s : String} (hne : s ≠ "") : (Json.str s.toList).truthy = true := by
  rw [Json.truthy, decide_eq_true_eq]
  intro hnil
  exact hne (String.toList_inj.mp hnil)

theorem addSegment_part (host : Host) (p : Pending) (part : Part) (hfilled : part.Filled) :
    addSegment host p part.segment = some (p.addAssistant part.block) := by
  cases part with
  | text s =>
      have htruthy := truthy_str hfilled
      have htype : (Part.text s).segment.get "type" = .str "text".toList := get_fields _ _
      have htext : (Part.text s).segment.get "text" = .str s.toList := get_fields _ _
      rw [addSegment, if_pos htype, addText, htext, if_pos htruthy, Json.str?, Option.map_some,
        String.ofList_toList, Part.block]
  | toolUse id name input =>
      have hid := truthy_str hfilled.1
      have hname := truthy_str hfilled.2
      have htype : (Part.toolUse id name input).segment.get "type" = .str "tool_use".toList :=
        get_fields _ _
      have huse : (Part.toolUse id name input).segment.get "tool_use_id" = .str id.toList :=
        get_fields _ _
      have hcalled : (Part.toolUse id name input).segment.get "name" = .str name.toList :=
        get_fields _ _
      have hinput : (Part.toolUse id name input).segment.get "input" = .obj input :=
        get_fields _ _
      have hboth : ((Json.str id.toList).truthy && (Json.str name.toList).truthy) = true := by
        rw [hid, hname, Bool.and_true]
      rw [addSegment, htype, if_neg (by decide), if_pos rfl, addToolUse, huse, hcalled, hinput,
        orElse, if_pos hid]
      rw [if_pos hboth, Json.str?, Json.str?, Option.bind_some, Option.map_some,
        String.ofList_toList, String.ofList_toList, coerceToolInput, Part.block]

theorem named_status (s : StatusValue) :
    named StatusValue.all StatusValue.name (.str s.name) = some s := by
  cases s <;> decide

theorem named_source (s : StatusSource) :
    named StatusSource.all StatusSource.name (.str s.name) = some s := by
  cases s <;> decide

theorem named_preservation (s : Preservation) :
    named Preservation.all Preservation.name (.str s.name) = some s := by
  cases s <;> decide

theorem asExitCode_exitCodeJson (s : ExecutionStatus) : asExitCode s.exitCodeJson = s.exitCode := by
  unfold ExecutionStatus.exitCodeJson
  cases s.exitCode with
  | none => rfl
  | some n => rw [asExitCode, dif_pos n.isInt]

theorem str?_reasonJson (s : ExecutionStatus) : s.reasonJson.str? = s.reason := by
  unfold ExecutionStatus.reasonJson
  cases s.reason <;> rfl

theorem normalizeExecutionStatus_dict (s : ExecutionStatus) :
    normalizeExecutionStatus (.obj s.dict) = s := by
  have hstatus : s.dict.get "status" = .str s.status.name := get_fields _ _
  have hexit : s.dict.get "exit_code" = s.exitCodeJson := get_fields _ _
  have htimed : s.dict.get "timed_out" = .bool s.timedOut := get_fields _ _
  have htruncated : s.dict.get "truncated" = .bool s.truncated := get_fields _ _
  have hreason : s.dict.get "reason" = s.reasonJson := get_fields _ _
  have hsource : s.dict.get "source" = .str s.source.name := get_fields _ _
  have hclass : s.dict.get "preservation_class" = .str s.preservationClass.name := get_fields _ _
  rw [normalizeExecutionStatus, Json.fields?]
  dsimp only
  rw [hstatus, hexit, htimed, htruncated, hreason, hsource, hclass, named_status, named_source,
    named_preservation, asExitCode_exitCodeJson, str?_reasonJson]
  rfl

theorem resultContent_segment (host : Host) (r : ResultPart) (name : String)
    (hcontent : IsResultContent r.content) :
    resultContent host (r.segment name) = r.content := by
  have hget : (r.segment name).get "result" = r.content := get_fields _ _
  have hhas : (r.segment name).has "result" = true := has_fields _ _
  rw [resultContent, if_pos hhas, hget]
  obtain ⟨id, content, isError, status⟩ := r
  cases content with
  | str s => rfl
  | arr items => rfl
  | null | bool _ | num _ | obj _ => exact hcontent.elim

theorem status_segment (r : ResultPart) (name : String) :
    (if (r.segment name).has "execution_status" then
      normalizeExecutionStatus ((r.segment name).get "execution_status")
      else normalizeLegacyExecutionStatus r.isError) =
    r.status.getD (normalizeLegacyExecutionStatus r.isError) := by
  obtain ⟨id, content, isError, status⟩ := r
  cases status with
  | none =>
      have hhas : (ResultPart.segment ⟨id, content, isError, none⟩ name).has "execution_status" =
          false := has_fields _ _
      rw [hhas, if_neg Bool.false_ne_true, Option.getD_none]
  | some s =>
      have hhas : (ResultPart.segment ⟨id, content, isError, some s⟩ name).has "execution_status" =
          true := has_fields _ _
      have hget : (ResultPart.segment ⟨id, content, isError, some s⟩ name).get "execution_status" =
          .obj s.dict := get_fields _ _
      rw [if_pos hhas, hget, normalizeExecutionStatus_dict, Option.getD_some]

theorem addSegment_result (host : Host) (p : Pending) (r : ResultPart) (name : String)
    (hid : r.toolUseId ≠ "") (hcontent : IsResultContent r.content) :
    addSegment host p (r.segment name) = some { p with results := p.results ++ [r.block] } := by
  have htruthy := truthy_str hid
  have htype : (r.segment name).get "type" = .str "tool_result".toList := get_fields _ _
  have hget : (r.segment name).get "tool_use_id" = .str r.toolUseId.toList := get_fields _ _
  have herror : (r.segment name).get "is_error" = .bool r.isError := get_fields _ _
  rw [addSegment, htype, if_neg (by decide), if_neg (by decide), if_pos rfl, addToolResult, hget,
    herror, Json.truthy, status_segment, resultContent_segment host r name hcontent,
    if_pos htruthy, Json.str?, Option.map_some, String.ofList_toList, ResultPart.block]

/-! ### Rounds -/

def Pending.Closed (p : Pending) : Prop := p.results ≠ [] ∨ p.assistant = [] ∧ p.results = []

theorem Pending.Closed.opened {p : Pending} (hclosed : p.Closed) :
    p.opened = ⟨p.flush.messages, [], []⟩ := by
  obtain ⟨messages, assistant, results⟩ := p
  obtain hresults | ⟨hassistant, hresults⟩ := hclosed
  · rw [Pending.opened, if_neg hresults]
    rfl
  · dsimp only at hassistant hresults
    rw [hassistant, hresults, Pending.opened, if_pos rfl, Pending.flush]
    simp

theorem Pending.opened_results (p : Pending) : p.opened.results = [] := by
  rw [Pending.opened]
  split_ifs with hresults
  · exact hresults
  · rfl

theorem Pending.opened_of_nil {p : Pending} (hresults : p.results = []) : p.opened = p := by
  rw [Pending.opened, if_pos hresults]

theorem foldlM_parts (host : Host) (parts : List Part) (hne : parts ≠ [])
    (hfilled : ∀ part ∈ parts, part.Filled) (p : Pending) :
    (parts.map Part.segment).foldlM (addSegment host) p =
      some { p.opened with assistant := p.opened.assistant ++ parts.map Part.block } := by
  induction parts generalizing p with
  | nil => exact absurd rfl hne
  | cons part rest ih =>
      rw [List.forall_mem_cons] at hfilled
      rw [List.map_cons, List.foldlM_cons, addSegment_part host p part hfilled.1]
      by_cases hrest : rest = []
      · rw [hrest]
        rfl
      · have hopened : (p.addAssistant part.block).opened = p.addAssistant part.block :=
          Pending.opened_of_nil p.opened_results
        have hnext := ih hrest hfilled.2 (p.addAssistant part.block)
        rw [hopened] at hnext
        refine hnext.trans ?_
        rw [Pending.addAssistant, List.map_cons, List.append_assoc, List.singleton_append]

theorem foldlM_results (host : Host) (results : List ResultPart) (name : String → String)
    (hids : ∀ r ∈ results, r.toolUseId ≠ "") (hcontents : ∀ r ∈ results, IsResultContent r.content)
    (p : Pending) :
    (results.map fun r => r.segment (name r.toolUseId)).foldlM (addSegment host) p =
      some { p with results := p.results ++ results.map ResultPart.block } := by
  induction results generalizing p with
  | nil =>
      rw [List.map_nil, List.map_nil, List.append_nil]
      rfl
  | cons r rest ih =>
      rw [List.forall_mem_cons] at hids hcontents
      rw [List.map_cons, List.foldlM_cons, addSegment_result host p r _ hids.1 hcontents.1]
      refine (ih hids.2 hcontents.2 _).trans ?_
      rw [List.map_cons, List.append_assoc, List.singleton_append]

namespace Iteration

theorem toolUseId_ne (it : Iteration) : ∀ r ∈ it.results, r.toolUseId ≠ "" := by
  intro r hr
  have huse := (it.answered r.toolUseId).mp (List.mem_map_of_mem hr)
  obtain ⟨part, hpart, hid⟩ := List.mem_filterMap.mp huse
  have hfilled := it.filled part hpart
  cases part with
  | text s => exact absurd hid (by simp [Part.useId])
  | toolUse id name input =>
      rw [← Option.some_inj.mp hid]
      exact hfilled.1

theorem results_ne_nil {it : Iteration} (huses : it.useIds ≠ []) : it.results ≠ [] := by
  obtain ⟨id, hid⟩ := List.exists_mem_of_ne_nil _ huses
  have hanswered := (it.answered id).mpr hid
  intro hnil
  rw [hnil] at hanswered
  exact absurd hanswered List.not_mem_nil

theorem foldlM_segments (host : Host) (it : Iteration) {p : Pending} (hclosed : p.Closed) :
    it.segments.foldlM (addSegment host) p =
      some ⟨p.flush.messages, it.parts.map Part.block, it.results.map ResultPart.block⟩ := by
  rw [segments, List.foldlM_append, foldlM_parts host it.parts it.nonempty it.filled,
    hclosed.opened]
  exact foldlM_results host it.results it.toolName it.toolUseId_ne it.contents _

theorem flush_messages (it : Iteration) (messages : List (Message Payload)) :
    (Pending.flush ⟨messages, it.parts.map Part.block, it.results.map ResultPart.block⟩).messages =
      messages ++ it.messages none := by
  have hparts : it.parts.map Part.block ≠ [] := by simpa using it.nonempty
  rw [Pending.flush, Iteration.messages]
  by_cases hresults : it.results = []
  · rw [hresults]
    simp [it.nonempty]
  · simp [it.nonempty, hresults]

end Iteration

theorem foldlM_iterations (host : Host) (iterations : List Iteration)
    (hrounds : ∀ it ∈ iterations.dropLast, it.useIds ≠ []) {p : Pending} (hclosed : p.Closed) :
    ∃ p', (iterations.flatMap Iteration.segments).foldlM (addSegment host) p = some p' ∧
      p'.flush.messages = p.flush.messages ++ iterations.flatMap fun it => it.messages none := by
  induction iterations generalizing p with
  | nil => exact ⟨p, rfl, (List.append_nil _).symm⟩
  | cons it rest ih =>
      have hstep := it.foldlM_segments host hclosed
      have hflush := it.flush_messages p.flush.messages
      rw [List.flatMap_cons, List.flatMap_cons, List.foldlM_append, hstep]
      by_cases hrest : rest = []
      · refine ⟨_, by rw [hrest]; rfl, ?_⟩
        rw [hflush, hrest, List.flatMap_nil, List.append_nil]
      · rw [List.dropLast_cons_of_ne_nil hrest, List.forall_mem_cons] at hrounds
        have hnext : Pending.Closed ⟨p.flush.messages, it.parts.map Part.block,
            it.results.map ResultPart.block⟩ :=
          Or.inl (by simpa using Iteration.results_ne_nil hrounds.1)
        obtain ⟨p', hp', hmessages⟩ := ih hrounds.2 hnext
        refine ⟨p', hp', ?_⟩
        rw [hmessages, hflush, List.append_assoc]

/-! ### What the content of the row adds to a turn: nothing -/

theorem normalizeSilentReply_nil (context : RunContext) :
    normalizeSilentReply context [] = ⟨[], false, false, none, none⟩ := by
  have hedges : normalizeEdges context [] [] = ⟨[], false, false, none, none⟩ := by
    rw [normalizeEdges]
    split_ifs <;> rfl
  rw [normalizeSilentReply, if_neg (by decide)]
  split_ifs with hheartbeat
  · exact hedges
  · exact hedges

theorem sanitizeHistoryContent_nil (host : Host) (context : RunContext) :
    (sanitizeHistoryContent host context []).content = [] := by
  have hpayload : payloadOf host [] = none := rfl
  rw [sanitizeHistoryContent, hpayload, normalizeSilentReply_nil]

namespace Iteration

theorem textsOf_messages (it : Iteration) (reasoning : Option String) :
    textsOf ⟨.assistant, .blocks (it.parts.map Part.block), reasoning⟩ = it.texts := by
  rw [textsOf, Content.list, List.filterMap_map, texts]
  apply List.filterMap_congr
  intro part _
  cases part <;> rfl

theorem any_text {it : Iteration} (htexts : it.texts ≠ []) (reasoning : Option String) :
    (it.messages reasoning).any (fun m => isAssistant m && !(textsOf m).isEmpty) = true := by
  have hfilled : (it.texts.isEmpty) = false := by simpa using htexts
  rw [messages, List.any_cons, textsOf_messages, hfilled]
  rfl

theorem find?_reverse (it : Iteration) (before : List (Message Payload)) :
    (before ++ it.messages none).reverse.find? hasBlocks =
      some ⟨.assistant, .blocks (it.parts.map Part.block), none⟩ := by
  rw [List.reverse_append, List.find?_append, messages]
  split_ifs <;> rfl

end Iteration

theorem preserveText_turn {turn : Turn} {content : Str} (hcontent : turn.content = [] → content = []) :
    preserveText content (turn.iterations.flatMap fun it => it.messages none) =
      turn.iterations.flatMap fun it => it.messages none := by
  rw [preserveText, if_pos]
  by_cases hempty : turn.content = []
  · rw [hcontent hempty]
    exact Or.inl rfl
  · right
    rw [Turn.content, List.flatten_eq_nil_iff] at hempty
    push Not at hempty
    obtain ⟨s, hs, -⟩ := hempty
    obtain ⟨it, hit, htext⟩ := List.mem_flatMap.mp hs
    rw [List.any_flatMap, List.any_eq_true]
    refine ⟨it, hit, Iteration.any_text ?_ none⟩
    intro hnil
    rw [hnil] at htext
    exact absurd htext List.not_mem_nil

theorem preserveMarkers_turn {turn : Turn} {content : Str} (hne : turn.iterations ≠ [])
    (hmarkers : contains (markerText content) turn.lastText = true) :
    preserveMarkers content (turn.iterations.flatMap fun it => it.messages none) =
      turn.iterations.flatMap fun it => it.messages none := by
  obtain ⟨before, it, hsplit⟩ : ∃ before it, turn.iterations = before ++ [it] :=
    ⟨_, _, (List.dropLast_append_getLast hne).symm⟩
  have hlast : turn.lastText =
      existingText ⟨.assistant, .blocks (it.parts.map Part.block), none⟩ := by
    rw [Turn.lastText, existingText, Iteration.textsOf_messages, hsplit, List.getLast?_concat,
      Option.toList_some, List.flatMap_singleton]
  rw [preserveMarkers]
  by_cases hnone : (!contains artifactMarker content || decide (markerText content = [])) = true
  · rw [if_pos hnone]
  · rw [if_neg hnone]
    rw [hsplit, List.flatMap_append, List.flatMap_singleton, it.find?_reverse]
    dsimp only
    rw [← hlast, if_pos hmarkers]

theorem withReasoning_turn (turn : Turn) (reasoning : Option String) :
    withReasoning reasoning (turn.iterations.flatMap fun it => it.messages none) =
      turn.messages (reasoning.filter (· ≠ "")) := by
  rw [withReasoning, Turn.messages]
  cases reasoning.filter (· ≠ "") with
  | none =>
      cases turn.iterations <;> rfl
  | some reasoning =>
      cases turn.iterations with
      | nil => rfl
      | cons it rest => rfl

/-! ### The repair finds nothing to do -/

namespace Iteration

theorem settled_append (it : Iteration) (reasoning : Option String) {rest : List (Message Payload)}
    (hrest : Settled rest) : Settled (it.messages reasoning ++ rest) := by
  have huseIds : (it.parts.map Part.block).filterMap Block.useId = it.useIds := by
    rw [List.filterMap_map, useIds]
    apply List.filterMap_congr
    intro part _
    cases part <;> rfl
  have hnoResult : (it.parts.map Part.block).filterMap Block.resultId = [] := by
    rw [List.filterMap_map, List.filterMap_eq_nil_iff]
    intro part _
    cases part <;> rfl
  have hresultIds : (it.results.map ResultPart.block).filterMap Block.resultId =
      it.results.map ResultPart.toolUseId := by
    rw [List.filterMap_map, ← List.filterMap_eq_map]
    rfl
  have hnoUse : (it.results.map ResultPart.block).filterMap Block.useId = [] := by
    rw [List.filterMap_map, List.filterMap_eq_nil_iff]
    intro r _
    rfl
  have hiff : it.useIds.toFinset = (it.results.map ResultPart.toolUseId).toFinset := by
    ext id
    rw [List.mem_toFinset, List.mem_toFinset]
    exact (it.answered id).symm
  have huses : Message.uses ⟨.assistant, .blocks (it.parts.map Part.block), reasoning⟩ =
      it.useIds.toFinset := congrArg List.toFinset huseIds
  have hresults : Message.results ⟨.assistant, .blocks (it.parts.map Part.block), reasoning⟩ = ∅ :=
    congrArg List.toFinset hnoResult
  rw [messages, List.cons_append]
  by_cases hnone : it.results = []
  · rw [if_pos hnone, List.nil_append]
    apply Settled.plain _ _ _ hresults hrest
    rw [huses, hiff, hnone]
    rfl
  · rw [if_neg hnone]
    have hfollows : Message.results ⟨.user, .blocks (it.results.map ResultPart.block), none⟩ =
        it.useIds.toFinset := (congrArg List.toFinset hresultIds).trans hiff.symm
    have hasked : it.useIds.toFinset ≠ ∅ := by
      rw [hiff, Ne, List.toFinset_eq_empty_iff, List.map_eq_nil_iff]
      exact hnone
    apply Settled.call _ [_] _ hresults _ _ hrest
    · rw [answeredBy_eq_some, huses]
      refine ⟨hasked, rfl, ?_⟩
      rw [List.singleton_append, scanResults, hfollows, if_neg hasked, Finset.empty_union,
        if_neg (not_not_intro (Finset.Subset.refl _)), if_pos rfl]
      rfl
    · intro m hm
      rw [List.mem_singleton] at hm
      rw [hm]
      refine ⟨congrArg List.toFinset hnoUse, ?_⟩
      rw [Content.resultIds, Content.list, hresultIds]
      exact it.once

end Iteration

theorem Turn.settled (turn : Turn) (reasoning : Option String) :
    Settled (turn.messages reasoning) := by
  have hrest : ∀ iterations : List Iteration,
      Settled (iterations.flatMap fun it => it.messages none) := by
    intro iterations
    induction iterations with
    | nil => exact Settled.nil
    | cons it rest ih =>
        rw [List.flatMap_cons]
        exact it.settled_append none ih
  rw [Turn.messages]
  cases turn.iterations with
  | nil => exact Settled.nil
  | cons it rest => exact it.settled_append reasoning (hrest rest)

/-! ### The round trip -/

theorem reconstructAssistant_turn (host : Host) (turn : Turn) {content : Str}
    (reasoning : Option String) (hne : turn.iterations ≠ [])
    (hcontent : turn.content = [] → content = [])
    (hmarkers : contains (markerText content) turn.lastText = true) :
    reconstructAssistant host (.text (String.ofList content)) turn.segments reasoning =
      some (turn.messages (reasoning.filter (· ≠ ""))) := by
  have hclosed : Pending.Closed ⟨[], [], []⟩ := Or.inr ⟨rfl, rfl⟩
  obtain ⟨p, hp, hmessages⟩ := foldlM_iterations host turn.iterations turn.rounds hclosed
  have hflush : p.flush.messages = turn.iterations.flatMap fun it => it.messages none := hmessages
  rw [reconstructAssistant, Turn.segments, hp, Option.map_some]
  dsimp only
  rw [String.toList_ofList, hflush, preserveText_turn hcontent, preserveMarkers_turn hne hmarkers,
    withReasoning_turn]

def plainHost : Host := ⟨fun _ => [], id, fun _ _ => []⟩

def readingRound (s : String) (hs : s ≠ "") : Iteration where
  parts := [.text s, .toolUse "call-1" "read" []]
  results := [⟨"call-1", .str "pending".toList, false, none⟩]
  nonempty := List.cons_ne_nil _ _
  filled := List.forall_mem_cons.mpr ⟨hs, List.forall_mem_cons.mpr ⟨⟨by decide, by decide⟩,
    fun _ h => absurd h List.not_mem_nil⟩⟩
  answered := fun _ => Iff.rfl
  once := List.nodup_singleton _
  contents := List.forall_mem_cons.mpr ⟨trivial, fun _ h => absurd h List.not_mem_nil⟩

def closingRound (s : String) (hs : s ≠ "") : Iteration where
  parts := [.text s]
  results := []
  nonempty := List.cons_ne_nil _ _
  filled := List.forall_mem_cons.mpr ⟨hs, fun _ h => absurd h List.not_mem_nil⟩
  answered := fun _ => Iff.rfl
  once := List.nodup_nil
  contents := fun _ h => absurd h List.not_mem_nil

end OpenStarry.History
