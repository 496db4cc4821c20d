import OpenStarry.RequestProof.Positions

/-!
# The skeleton of a conversation

The roles, the blocks with their types and ids, and the calls with their ids and names stay through
every pass. The inputs of `tool_use` blocks stay or are shortened as dicts.
-/

namespace OpenStarry.RequestProof

open Lib Lib.Text Lib.Json

structure BlockSkeleton where
  type : Json
  id : Json
  name : Json
  toolUseId : Json

structure CallSkeleton where
  type : Json
  id : Json
  name : Option Json

structure MessageSkeleton where
  role : Json
  toolCallId : Json
  blocks : List (Option BlockSkeleton)
  calls : List (Option CallSkeleton)

def blockSkeleton (block : Dict) : BlockSkeleton :=
  ⟨block.get "type", block.get "id", block.get "name", block.get "tool_use_id"⟩

def callSkeleton (call : Dict) : CallSkeleton :=
  ⟨call.get "type", call.get "id", (call.get "function").fields?.map fun function => function.get "name"⟩

def contentSkeleton (content : Json) : List (Option BlockSkeleton) :=
  content.items.map fun block => block.fields?.map blockSkeleton

def messageSkeleton (message : Dict) : MessageSkeleton where
  role := message.get "role"
  toolCallId := message.get "tool_call_id"
  blocks := contentSkeleton (message.get "content")
  calls := (message.get "tool_calls").items.map fun call => call.fields?.map callSkeleton

def skeleton (payload : Dict) : List (Option MessageSkeleton) :=
  (messagesOf payload).map fun message => message.fields?.map messageSkeleton

/-- The input of a `tool_use` block, when it is a dict. -/
def blockInput (block : Dict) : Option Dict :=
  if hasType "tool_use" block then (block.get "input").fields? else none

def contentInputs (content : Json) : List (Option Dict) :=
  content.items.map fun block => block.fields?.bind blockInput

def messageInputs (message : Dict) : List (Option Dict) := contentInputs (message.get "content")

/-! ### Changes that keep the skeleton -/

/-- The skeleton of a block stays, and its input becomes `h` of what it was. -/
structure KeepsBlock (h : Dict → Dict) (g : Dict → Dict) : Prop where
  skeleton : ∀ block, blockSkeleton (g block) = blockSkeleton block
  input : ∀ block, blockInput (g block) = (blockInput block).map h

structure KeepsContent (h : Dict → Dict) (f : Json → Json) : Prop where
  skeleton : ∀ content, contentSkeleton (f content) = contentSkeleton content
  inputs : ∀ content, contentInputs (f content) = (contentInputs content).map (Option.map h)

structure KeepsMessage (h : Dict → Dict) (f : Dict → Dict) : Prop where
  skeleton : ∀ message, messageSkeleton (f message) = messageSkeleton message
  inputs : ∀ message, messageInputs (f message) = (messageInputs message).map (Option.map h)

theorem map_optionMap_id (inputs : List (Option Dict)) : inputs.map (Option.map id) = inputs := by
  rw [Option.map_id, List.map_id]

theorem keepsBlock_id : KeepsBlock id fun block => block :=
  ⟨fun _ => rfl, fun _ => (Option.map_id_apply).symm⟩

theorem keepsBlock_update (key : String) (f : Json → Json)
    (hkey : key ∉ ["type", "id", "name", "tool_use_id", "input"]) :
    KeepsBlock id (Dict.update key f) := by
  simp only [List.mem_cons, List.not_mem_nil, or_false, not_or] at hkey
  obtain ⟨htype, hid, hname, htoolUse, hinput⟩ := hkey
  refine ⟨fun block => ?_, fun block => ?_⟩
  · rw [blockSkeleton, blockSkeleton, Dict.get_update_ne htype, Dict.get_update_ne hid,
      Dict.get_update_ne hname, Dict.get_update_ne htoolUse]
  · rw [blockInput, blockInput, hasType, hasType, Dict.get_update_ne htype,
      Dict.get_update_ne hinput, Option.map_id_apply]

theorem KeepsBlock.comp {h h' g g' : Dict → Dict} (hg : KeepsBlock h g) (hg' : KeepsBlock h' g') :
    KeepsBlock (h ∘ h') fun block => g (g' block) :=
  ⟨fun block => (hg.skeleton _).trans (hg'.skeleton block), fun block => by
    rw [hg.input, hg'.input, Option.map_map]⟩

theorem KeepsBlock.ite {h g g' : Dict → Dict} {p : Dict → Prop} [∀ d, Decidable (p d)]
    (hg : KeepsBlock h g) (hg' : KeepsBlock h g') :
    KeepsBlock h fun block => if p block then g block else g' block := by
  constructor <;> intro block <;> split_ifs
  · exact hg.skeleton block
  · exact hg'.skeleton block
  · exact hg.input block
  · exact hg'.input block

theorem KeepsBlock.mapItems {h g : Dict → Dict} (hg : KeepsBlock h g) :
    KeepsContent h (mapItems (mapObj g)) := by
  constructor <;> intro content
  · rw [contentSkeleton, items_mapItems, List.map_map, contentSkeleton]
    apply List.map_congr_left
    intro block _
    rw [Function.comp_apply, fields?_mapObj, Option.map_map]
    cases block.fields? with
    | none => rfl
    | some d => exact congrArg some (hg.skeleton d)
  · rw [contentInputs, items_mapItems, List.map_map, contentInputs, List.map_map]
    apply List.map_congr_left
    intro block _
    rw [Function.comp_apply, fields?_mapObj, Function.comp_apply]
    cases block.fields? with
    | none => rfl
    | some d => exact hg.input d

theorem KeepsBlock.mapBlocks {h : Dict → Dict} {g : Bool → Dict → Dict}
    (hg : ∀ flag, KeepsBlock h (g flag)) (flags : List Bool) :
    KeepsContent h (mapArr (mapBlocks g flags)) := by
  have hblock (flag : Bool) (block : Json) :
      (mapObj (g flag) block).fields?.map blockSkeleton = block.fields?.map blockSkeleton ∧
        (mapObj (g flag) block).fields?.bind blockInput =
          (block.fields?.bind blockInput).map h := by
    rw [fields?_mapObj]
    cases block.fields? with
    | none => exact ⟨rfl, rfl⟩
    | some d => exact ⟨congrArg some ((hg flag).skeleton d), (hg flag).input d⟩
  constructor <;> intro content
  · rw [contentSkeleton, items_mapArr rfl, contentSkeleton]
    generalize content.items = blocks
    induction blocks generalizing flags with
    | nil => rfl
    | cons block rest ih =>
        rw [RequestProof.mapBlocks]
        split_ifs <;> rw [List.map_cons, List.map_cons, ih, (hblock _ block).1]
  · rw [contentInputs, items_mapArr rfl, contentInputs]
    generalize content.items = blocks
    induction blocks generalizing flags with
    | nil => rfl
    | cons block rest ih =>
        rw [RequestProof.mapBlocks]
        split_ifs <;> rw [List.map_cons, List.map_cons, List.map_cons, ih, (hblock _ block).2]

theorem keepsContent_mapStr (f : Str → Str) : KeepsContent id (mapStr f) := by
  constructor <;> intro content <;> cases content <;>
    first | rfl | exact (map_optionMap_id _).symm

theorem keepsMessage_id : KeepsMessage id fun message => message :=
  ⟨fun _ => rfl, fun message => (map_optionMap_id (messageInputs message)).symm⟩

theorem KeepsMessage.comp {h h' f f' : Dict → Dict} (hf : KeepsMessage h f)
    (hf' : KeepsMessage h' f') : KeepsMessage (h ∘ h') fun message => f (f' message) :=
  ⟨fun message => (hf.skeleton _).trans (hf'.skeleton message), fun message => by
    rw [hf.inputs, hf'.inputs, List.map_map, Option.map_comp_map]⟩

theorem KeepsMessage.ite {h f f' : Dict → Dict} {p : Dict → Prop} [∀ d, Decidable (p d)]
    (hf : KeepsMessage h f) (hf' : KeepsMessage h f') :
    KeepsMessage h fun message => if p message then f message else f' message := by
  constructor <;> intro message <;> split_ifs
  · exact hf.skeleton message
  · exact hf'.skeleton message
  · exact hf.inputs message
  · exact hf'.inputs message

theorem KeepsContent.update {h : Dict → Dict} {f : Json → Json} (hf : KeepsContent h f)
    (hnull : f .null = .null) : KeepsMessage h (Dict.update "content" f) := by
  constructor <;> intro message
  · rw [messageSkeleton, messageSkeleton, Dict.get_update_self hnull, hf.skeleton,
      Dict.get_update_ne (by decide), Dict.get_update_ne (by decide), Dict.get_update_ne (by decide)]
  · rw [messageInputs, Dict.get_update_self hnull, hf.inputs, messageInputs]

theorem KeepsContent.set {h : Dict → Dict} {f : Json → Json} (hf : KeepsContent h f) :
    KeepsMessage h fun message => message.set "content" (f (message.get "content")) := by
  constructor <;> intro message
  · rw [messageSkeleton, messageSkeleton, Dict.get_set_self, hf.skeleton,
      Dict.get_set_ne (by decide), Dict.get_set_ne (by decide), Dict.get_set_ne (by decide)]
  · rw [messageInputs, Dict.get_set_self, hf.inputs, messageInputs]

theorem keepsMessage_update {key : String} (f : Json → Json)
    (hkey : key ∉ ["role", "tool_call_id", "content", "tool_calls"]) :
    KeepsMessage id (Dict.update key f) := by
  simp only [List.mem_cons, List.not_mem_nil, or_false, not_or] at hkey
  obtain ⟨hrole, hcall, hcontent, hcalls⟩ := hkey
  constructor <;> intro message
  · rw [messageSkeleton, messageSkeleton, Dict.get_update_ne hrole, Dict.get_update_ne hcall,
      Dict.get_update_ne hcontent, Dict.get_update_ne hcalls]
  · rw [messageInputs, messageInputs, Dict.get_update_ne hcontent, map_optionMap_id]

theorem callSkeleton_mapCallArguments (f : Dict → Str → Str) (call : Dict) :
    callSkeleton (mapCallArguments f call) = callSkeleton call := by
  rw [callSkeleton, get_mapCallArguments (by decide), get_mapCallArguments (by decide), callSkeleton,
    mapCallArguments, Dict.get_update_self rfl, fields?_mapObj, Option.map_map]
  congr 2
  funext function
  exact Dict.get_update_ne (by decide)

theorem keepsMessage_mapArguments (f : Dict → Str → Str) : KeepsMessage id (mapArguments f) := by
  constructor <;> intro message
  · rw [messageSkeleton, messageSkeleton, get_mapArguments (by decide),
      get_mapArguments (by decide), get_mapArguments (by decide)]
    congr 1
    rw [mapArguments, Dict.get_update_self rfl, items_mapItems, List.map_map]
    apply List.map_congr_left
    intro call _
    rw [Function.comp_apply, fields?_mapObj]
    cases call.fields? with
    | none => rfl
    | some d => exact congrArg some (callSkeleton_mapCallArguments f d)
  · rw [messageInputs, messageInputs, get_mapArguments (by decide), map_optionMap_id]

/-! ### The messages of the passes -/

section

variable {runtime : Runtime} {settings : Settings}

theorem keepsBlock_mapInput (h : Dict → Dict) : KeepsBlock h fun block =>
    if hasType "tool_use" block then block.update "input" (mapObj h) else block := by
  constructor <;> intro block <;> split_ifs with htype
  · rw [blockSkeleton, blockSkeleton, Dict.get_update_ne (by decide),
      Dict.get_update_ne (by decide), Dict.get_update_ne (by decide),
      Dict.get_update_ne (by decide)]
  · rfl
  · rw [blockInput, hasType, Dict.get_update_ne (by decide), ← hasType, if_pos htype,
      Dict.get_update_self rfl, fields?_mapObj, blockInput, if_pos htype]
  · rw [blockInput, if_neg htype]
    rfl

theorem keepsMessage_scrubMessage {message : Dict} :
    messageSkeleton (scrubMessage runtime settings message) = messageSkeleton message ∧
      messageInputs (scrubMessage runtime settings message) =
        if hasRole "assistant" message then
          (messageInputs message).map (Option.map (scrubbedInput runtime settings))
        else messageInputs message := by
  have hblock : KeepsBlock (scrubbedInput runtime settings) (scrubBlock runtime settings) :=
    keepsBlock_mapInput _
  have hkeeps := (hblock.mapItems.update rfl).comp
    (keepsMessage_mapArguments fun _ => scrubbedArguments runtime)
  rw [scrubMessage]
  split_ifs with hrole
  · exact ⟨hkeeps.skeleton message, hkeeps.inputs message⟩
  · exact ⟨rfl, rfl⟩

theorem keepsMessage_compactToolMessage (index : Nat) (flags : List Bool) :
    KeepsMessage id (compactToolMessage settings index flags) := by
  have hentry (flag : Bool) : KeepsBlock id (compactToolEntry settings flag) :=
    keepsBlock_id.ite (keepsBlock_update _ _ (by decide))
  have hblocks := KeepsBlock.mapBlocks (h := id)
    (g := fun flag block =>
      if hasType "tool_result" block then compactToolEntry settings flag block else block)
    (fun flag => (hentry flag).ite keepsBlock_id) flags
  have hmessage (flag : Bool) (message : Dict) (htext : isToolMessage message = true) :
      messageSkeleton (compactToolEntry settings flag message) = messageSkeleton message ∧
        messageInputs (compactToolEntry settings flag message) = messageInputs message := by
    rw [isToolMessage, Bool.and_eq_true, Option.isSome_iff_exists] at htext
    obtain ⟨text, htext⟩ := htext.2
    have hcontent : message.get "content" = .str text := by
      cases hvalue : message.get "content" <;> simp_all [str?]
    rw [compactToolEntry]
    split_ifs
    · exact ⟨rfl, rfl⟩
    · constructor
      · rw [messageSkeleton, messageSkeleton, Dict.get_update_self rfl, hcontent,
          Dict.get_update_ne (by decide), Dict.get_update_ne (by decide),
          Dict.get_update_ne (by decide)]
        rfl
      · rw [messageInputs, messageInputs, Dict.get_update_self rfl, hcontent]
        rfl
  constructor <;> intro message <;> rw [compactToolMessage] <;> split_ifs with htext
  · exact (hmessage _ message htext).1
  · exact (hblocks.update rfl).skeleton message
  · rw [map_optionMap_id]
    exact (hmessage _ message htext).2
  · exact (hblocks.update rfl).inputs message

theorem keepsMessage_compactRecentTailMessage (aggregate : Bool) :
    KeepsMessage (compactToolInput runtime settings)
      (compactRecentTailMessage runtime settings aggregate) := by
  have hblock (ofAssistant : Bool) : KeepsBlock (compactToolInput runtime settings)
      (compactRecentTailBlock runtime settings ofAssistant) := by
    constructor <;> intro block <;> rw [compactRecentTailBlock] <;> split_ifs with huse _ _
    · rw [blockSkeleton, blockSkeleton, Dict.get_set_ne (by decide), Dict.get_set_ne (by decide),
        Dict.get_set_ne (by decide), Dict.get_set_ne (by decide)]
    · exact (keepsBlock_update _ _ (by decide)).skeleton block
    · exact (keepsBlock_update _ _ (by decide)).skeleton block
    · rfl
    · rw [blockInput, hasType, Dict.get_set_ne (by decide), ← hasType, if_pos huse,
        Dict.get_set_self, fields?_mapObj, blockInput, if_pos huse]
    all_goals
      have hnone : blockInput block = none := by rw [blockInput, if_neg huse]
    · rw [(keepsBlock_update _ _ (by decide)).input block, hnone]
      rfl
    · rw [(keepsBlock_update _ _ (by decide)).input block, hnone]
      rfl
    · rw [hnone]
      rfl
  have hcalled : KeepsMessage id fun message =>
      if hasRole "assistant" message then
        mapArguments (fun _ => tailArguments runtime settings aggregate)
          (Dict.update "reasoning_content"
            (mapStr (compactTailString settings runtime "reasoning_content".toList)) message)
      else message :=
    ((keepsMessage_mapArguments _).comp (keepsMessage_update _ (by decide))).ite keepsMessage_id
  constructor <;> intro message <;> rw [compactRecentTailMessage]
  · exact (((hblock _).mapItems.update rfl).skeleton _).trans (hcalled.skeleton message)
  · rw [((hblock _).mapItems.update rfl).inputs, hcalled.inputs, map_optionMap_id]

theorem keepsMessage_emergencyCompactMessage (protectedIndex activeIndex : Option Nat)
    (index : Nat) (flags : List Bool) : KeepsMessage id
      (emergencyCompactMessage runtime settings protectedIndex activeIndex index flags) := by
  have hcontent : KeepsContent id (compactUserContentForProvider runtime settings) := by
    have hblocks := ((keepsBlock_update "text"
      (mapStr (emergencyCompactString settings runtime "user_text".toList)) (by decide)).ite (p := fun block => hasType "text" block = true) keepsBlock_id).mapItems
    constructor <;> intro content
    · cases content <;> first | rfl | exact hblocks.skeleton _
    · cases content <;> first | rfl | exact hblocks.inputs _
  have huser (isActive isProtected : Bool) : KeepsMessage id
      (emergencyCompactUser runtime settings isActive isProtected) :=
    hcontent.set.ite keepsMessage_id
  have htext (isProtected : Bool) : KeepsMessage id
      (emergencyCompactText runtime settings isProtected) :=
    ((keepsContent_mapStr _).update rfl).ite (((keepsContent_mapStr _).update rfl).ite keepsMessage_id)
  have hcalls : KeepsMessage id (emergencyCompactCalls runtime settings) :=
    ((keepsMessage_mapArguments _).comp (keepsMessage_update _ (by decide))).ite keepsMessage_id
  have hblock (ofAssistant flag : Bool) : KeepsBlock id
      (emergencyCompactBlock runtime settings ofAssistant flag) := by
    constructor <;> intro block <;> rw [emergencyCompactBlock] <;> split_ifs
    any_goals rfl
    any_goals exact (keepsBlock_update _ _ (by decide)).skeleton block
    any_goals exact (keepsBlock_update _ _ (by decide)).input block
    · exact keepsBlock_id.input block
    · exact keepsBlock_id.input block
  have hall (isActive ofAssistant : Bool) := ((KeepsBlock.mapBlocks (hblock ofAssistant) flags).update
    rfl).comp (hcalls.comp ((htext (flags.any id)).comp (huser isActive (flags.any id))))
  constructor <;> intro message <;> rw [emergencyCompactMessage] <;> dsimp only <;> split_ifs
  · rfl
  · exact (hall _ _).skeleton message
  · exact keepsMessage_id.inputs message
  · exact (hall _ _).inputs message

theorem keepsContent_hardCompactContent (label : Str) :
    KeepsContent id (hardCompactContentForProvider runtime settings label) := by
  have hblocks := (((keepsBlock_update "thinking"
      (mapStr (hardCompactString settings runtime (label ++ "_thinking".toList))) (by decide)).comp
    ((keepsBlock_update "content"
      (mapStr (hardCompactString settings runtime (label ++ "_content".toList))) (by decide)).comp
    (keepsBlock_update "text"
      (mapStr (hardCompactString settings runtime (label ++ "_text".toList))) (by decide)))).mapItems)
  constructor <;> intro content
  · cases content <;> first | rfl | exact hblocks.skeleton _
  · cases content <;> first | rfl | exact hblocks.inputs _

theorem keepsContent_hardCapToolContent : KeepsContent id (hardCapToolContent runtime settings) := by
  have hblocks := (keepsBlock_update "content"
    (mapStr (emergencyCompactString settings runtime "tool_result".toList)) (by decide)).mapItems
  have hcritical : KeepsContent id (criticalToolContentForProvider runtime settings) := by
    constructor <;> intro content
    · cases content <;> first | rfl | exact hblocks.skeleton _
    · cases content <;> first | rfl | exact hblocks.inputs _
  constructor <;> intro content <;> rw [hardCapToolContent] <;> split_ifs
  · exact hcritical.skeleton content
  · exact (keepsContent_hardCompactContent _).skeleton content
  · exact hcritical.inputs content
  · exact (keepsContent_hardCompactContent _).inputs content

theorem keepsMessage_hardCapMessage (resolved : List Str) (protectedIndex activeIndex : Option Nat)
    (index : Nat) (flags : List Bool) : KeepsMessage id
      (hardCapMessage runtime settings resolved protectedIndex activeIndex index flags) := by
  have hassistant : KeepsMessage id (hardCapAssistant runtime settings resolved) :=
    (keepsMessage_mapArguments _).comp ((keepsMessage_update _ (by decide)).comp
      (keepsContent_hardCompactContent _).set)
  constructor <;> intro message <;> rw [hardCapMessage] <;> split_ifs
  any_goals rfl
  any_goals exact keepsMessage_id.inputs message
  · exact (keepsContent_hardCompactContent _).set.skeleton message
  · exact keepsContent_hardCapToolContent.set.skeleton message
  · exact hassistant.skeleton message
  · exact (keepsContent_hardCompactContent _).set.inputs message
  · exact keepsContent_hardCapToolContent.set.inputs message
  · exact hassistant.inputs message

/-! ### The passes -/

theorem skeleton_onMessages {f : List Json → List Json} (hnil : f [] = [])
    (hf : ∀ messages, (f messages).map (fun message => message.fields?.map messageSkeleton) =
      messages.map fun message => message.fields?.map messageSkeleton) (payload : Dict) :
    skeleton (onMessages f payload) = skeleton payload := by
  rw [skeleton, messagesOf_onMessages hnil, hf, skeleton]

theorem map_messageSkeleton_mapObj {h f : Dict → Dict} (hf : KeepsMessage h f) (message : Json) :
    (mapObj f message).fields?.map messageSkeleton = message.fields?.map messageSkeleton := by
  rw [fields?_mapObj]
  cases message.fields? with
  | none => rfl
  | some d => exact congrArg some (hf.skeleton d)

theorem map_messageSkeleton_mapMessagesFrom {h : Dict → Dict} {f : Nat → List Bool → Dict → Dict}
    (hf : ∀ index flags, KeepsMessage h (f index flags)) (index : Nat) (flags : List Bool)
    (messages : List Json) :
    (mapMessagesFrom f index flags messages).map (fun message => message.fields?.map messageSkeleton) =
      messages.map fun message => message.fields?.map messageSkeleton := by
  induction messages generalizing index flags with
  | nil => rfl
  | cons message rest ih =>
      rw [mapMessagesFrom, List.map_cons, List.map_cons, ih, map_messageSkeleton_mapObj (hf _ _)]

variable {request : Request}

theorem skeleton_tailPayload (payload : Dict) :
    skeleton (tailPayload runtime settings payload) = skeleton payload := by
  apply skeleton_onMessages rfl
  intro messages
  apply List.ext_getElem?
  intro i
  rw [List.getElem?_map, List.getElem?_mapIdx, List.getElem?_map]
  cases messages[i]? with
  | none => rfl
  | some message =>
      apply congrArg some
      split_ifs
      · rfl
      · exact map_messageSkeleton_mapObj (keepsMessage_compactRecentTailMessage _) message

theorem skeleton_tierPass (tier : Nat) (payload : Dict) :
    skeleton (tierPass runtime settings request (tier + 1) payload) = skeleton payload := by
  match tier with
  | 0 =>
      exact skeleton_onMessages rfl (fun messages =>
        map_messageSkeleton_mapMessagesFrom keepsMessage_compactToolMessage _ _ messages) payload
  | 1 =>
      exact (skeleton_onMessages rfl (fun messages =>
        map_messageSkeleton_mapMessagesFrom keepsMessage_compactToolMessage _ _ messages) _).trans
        (skeleton_tailPayload payload)
  | 2 =>
      exact skeleton_onMessages rfl (map_messageSkeleton_mapMessagesFrom
        (keepsMessage_emergencyCompactMessage _ _) _ _) payload
  | _ + 3 =>
      exact skeleton_onMessages rfl (map_messageSkeleton_mapMessagesFrom
        (keepsMessage_hardCapMessage _ _ _) _ _) payload

theorem skeleton_scrub (payload : Dict) :
    skeleton (scrubLeakedToolArgumentProjections runtime settings payload).1 = skeleton payload := by
  rw [scrub_eq]
  apply skeleton_onMessages rfl
  intro messages
  rw [List.map_map]
  apply List.map_congr_left
  intro message _
  rw [Function.comp_apply, fields?_mapObj]
  cases message.fields? with
  | none => rfl
  | some d => exact congrArg some keepsMessage_scrubMessage.1

theorem skeleton_tierPayload (runtime : Runtime) (settings : Settings) (request : Request)
    (payload : Dict) (tier : Nat) :
    skeleton (tierPayload runtime settings request payload tier) = skeleton payload := by
  induction tier with
  | zero => exact skeleton_scrub payload
  | succ tier ih => exact (skeleton_tierPass tier _).trans ih

theorem exists_messageInputs_tierPass (runtime : Runtime) (settings : Settings)
    (request : Request) (tier : Nat) {payload : Dict} {i : Nat} {message : Dict}
    (hmessage : messageAt payload i = some message) :
    ∃ sent h, messageAt (tierPass runtime settings request (tier + 1) payload) i = some sent ∧
      (h = id ∨ tier = 1 ∧ h = compactToolInput runtime settings) ∧
      messageInputs sent = (messageInputs message).map (Option.map h) := by
  match tier with
  | 0 =>
      have hsent := messageAt_compactToolPayload runtime settings request.protectedToolResultIndexes payload i
      rw [hmessage, Option.map_some] at hsent
      exact ⟨_, id, hsent, .inl rfl, (keepsMessage_compactToolMessage i _).inputs message⟩
  | 1 =>
      have hsent := messageAt_compactRecentTailPayload runtime settings request.protectedToolResultIndexes payload i
      rw [hmessage, Option.map_some] at hsent
      by_cases hindex : some i = protectedRecentAssistantIndex settings (messagesOf payload)
      · refine ⟨_, id, hsent, .inl rfl, ?_⟩
        rw [(keepsMessage_compactToolMessage i _).inputs, tailMessage, if_pos hindex]
      · refine ⟨_, _, hsent, .inr ⟨rfl, rfl⟩, ?_⟩
        rw [(keepsMessage_compactToolMessage i _).inputs, tailMessage, if_neg hindex,
          (keepsMessage_compactRecentTailMessage _).inputs, map_optionMap_id]
  | 2 =>
      have hsent := messageAt_emergencyCompactCurrentTurnPayload runtime settings
        request.activeUserMessageIndex request.protectedToolResultIndexes payload i
      rw [hmessage, Option.map_some] at hsent
      exact ⟨_, id, hsent, .inl rfl, (keepsMessage_emergencyCompactMessage _ _ i _).inputs message⟩
  | _ + 3 =>
      have hsent := messageAt_finalHardCapPayload runtime settings request.activeUserMessageIndex request.protectedToolResultIndexes payload i
      rw [hmessage, Option.map_some] at hsent
      exact ⟨_, id, hsent, .inl rfl, (keepsMessage_hardCapMessage _ _ _ i _).inputs message⟩

theorem exists_messageInputs_tierPayload (runtime : Runtime) (settings : Settings)
    (request : Request) (tier : Nat) {payload : Dict} {i : Nat} {message : Dict}
    (hmessage : messageAt payload i = some message) :
    ∃ sent h, messageAt (tierPayload runtime settings request payload tier) i = some sent ∧
      (h = (if hasRole "assistant" message then scrubbedInput runtime settings else id) ∨
        h = compactToolInput runtime settings ∘
          (if hasRole "assistant" message then scrubbedInput runtime settings else id) ∧ 2 ≤ tier) ∧
      messageInputs sent = (messageInputs message).map (Option.map h) := by
  induction tier with
  | zero =>
      refine ⟨scrubMessage runtime settings message, _, ?_, .inl rfl, ?_⟩
      · rw [tierPayload, scrub_eq, messageAt_onMessages_map, hmessage, Option.map_some]
      · rw [keepsMessage_scrubMessage.2]
        split_ifs
        · rfl
        · exact (map_optionMap_id _).symm
  | succ tier ih =>
      obtain ⟨before, h, hbefore, hh, hinputs⟩ := ih
      obtain ⟨sent, h', hsent, hh', hinputs'⟩ :=
        exists_messageInputs_tierPass runtime settings request tier hbefore
      refine ⟨sent, h' ∘ h, hsent, ?_, ?_⟩
      · obtain rfl | ⟨rfl, rfl⟩ := hh'
        · obtain rfl | ⟨rfl, htier⟩ := hh
          · exact .inl rfl
          · exact .inr ⟨rfl, by omega⟩
        · obtain rfl | ⟨-, htier⟩ := hh
          · exact .inr ⟨rfl, le_rfl⟩
          · omega
      · rw [hinputs', hinputs, List.map_map, Option.map_comp_map]

end

/-!
## Payloads of chat requests

What an adapter hands over: a list of messages of the known roles, each block and each call where it
belongs.
-/

def isChatBlock (message : Dict) (block : Dict) : Bool :=
  (block.get "type").str?.isSome &&
    (!hasType "tool_use" block ||
      (hasRole "assistant" message && (block.get "id").str?.isSome && (block.get "name").str?.isSome &&
        (block.get "input").fields?.any fun input => decide (input.map Prod.fst).Nodup)) &&
    (!hasType "tool_result" block ||
      (hasRole "user" message && (block.get "tool_use_id").str?.isSome)) &&
    (!hasType "thinking" block || hasRole "assistant" message)

def isChatCall (call : Dict) : Bool :=
  (call.get "id").str?.isSome &&
    (call.get "function").fields?.any fun function =>
      (function.get "name").str?.isSome && (function.get "arguments").str?.isSome

def isChatContent (message : Dict) : Json → Bool
  | .str _ => true
  | .arr blocks => blocks.all fun block => block.fields?.any (isChatBlock message)
  | .null => !hasRole "tool" message
  | _ => false

def isChatMessage (message : Dict) : Bool :=
  (hasRole "system" message || hasRole "user" message || hasRole "assistant" message ||
      hasRole "tool" message) &&
    isChatContent message (message.get "content") &&
    (!hasRole "tool" message || (message.get "tool_call_id").str?.isSome) &&
    match message.get "tool_calls" with
    | .null => true
    | .arr calls => hasRole "assistant" message && calls.all fun call => call.fields?.any isChatCall
    | _ => false

def ChatShaped (payload : Dict) : Prop :=
  isFinite (.obj payload) = true ∧ payload.get "messages" = .arr (messagesOf payload) ∧
    ∀ message ∈ messagesOf payload, message.fields?.any isChatMessage = true

instance (payload : Dict) : Decidable (ChatShaped payload) :=
  inferInstanceAs (Decidable (isFinite (.obj payload) = true ∧
    payload.get "messages" = .arr (messagesOf payload) ∧
    ∀ message ∈ messagesOf payload, message.fields?.any isChatMessage = true))

namespace ChatShaped

variable {payload : Dict} (hchat : ChatShaped payload)

include hchat

theorem finite : isFinite (.obj payload) = true := hchat.1

theorem message {i : Nat} {message : Dict} (hmessage : messageAt payload i = some message) :
    isChatMessage message = true := by
  rw [messageAt, Option.bind_eq_some_iff] at hmessage
  obtain ⟨value, hvalue, hfields⟩ := hmessage
  have hchatMessage := hchat.2.2 value (List.mem_of_getElem? hvalue)
  rw [hfields] at hchatMessage
  exact hchatMessage

end ChatShaped

section

variable {message block : Dict}

theorem chatBlock_of_mem (hmessage : isChatMessage message = true)
    (hblock : block ∈ blocksOf (message.get "content")) : isChatBlock message block = true := by
  rw [isChatMessage, Bool.and_eq_true, Bool.and_eq_true, Bool.and_eq_true] at hmessage
  have hcontent := hmessage.1.1.2
  rw [blocksOf, List.mem_filterMap] at hblock
  obtain ⟨value, hvalue, hfields⟩ := hblock
  cases hmessageContent : message.get "content" with
  | arr blocks =>
      rw [hmessageContent] at hcontent hvalue
      have hall := List.all_eq_true.mp hcontent value hvalue
      rw [hfields] at hall
      exact hall
  | null => simp [hmessageContent, items] at hvalue
  | bool b => simp [hmessageContent, items] at hvalue
  | num n => simp [hmessageContent, items] at hvalue
  | str s => simp [hmessageContent, items] at hvalue
  | obj d => simp [hmessageContent, items] at hvalue

theorem isChatBlock_iff : isChatBlock message block = true ↔
    (block.get "type").str?.isSome = true ∧
      (hasType "tool_use" block = true →
        hasRole "assistant" message = true ∧ ∃ input, (block.get "input").fields? = some input ∧
          (input.map Prod.fst).Nodup ∧ (block.get "id").str?.isSome ∧ (block.get "name").str?.isSome) ∧
      (hasType "tool_result" block = true →
        hasRole "user" message = true ∧ (block.get "tool_use_id").str?.isSome = true) ∧
      (hasType "thinking" block = true → hasRole "assistant" message = true) := by
  rw [isChatBlock]
  cases hasType "tool_use" block <;> cases hasType "tool_result" block <;>
    cases hasType "thinking" block <;> cases hasRole "assistant" message <;>
    cases hasRole "user" message <;> cases (block.get "input").fields? <;> simp [and_assoc] <;> tauto

end

/-! ### Payloads for examples -/

def plainRuntime (digest : String) : Runtime where
  lower := List.map Char.toLower
  sha256 := fun _ => digest.toList
  estimateTokens := fun text => (text.length / 4, "tiktoken_cl100k_base".toList)
  normal := id

def fieldsOf (fields : List (String × Json)) : Dict := fields.map fun p => (p.1.toList, p.2)

def chatRequest (proofBudget : Int) : Request := ⟨proofBudget, chatRequestEnvelope, none, []⟩

end OpenStarry.RequestProof
