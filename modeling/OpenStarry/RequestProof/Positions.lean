import OpenStarry.RequestProof.Prove

/-!
# What a pass does at one place

A pass keeps the messages in their places, and in each message the blocks and the calls. What it
does to one of them is read off at its place.
-/

namespace OpenStarry.RequestProof

open Lib Lib.Text Lib.Json

/-! ### Messages -/

def messageAt (payload : Dict) (i : Nat) : Option Dict := (messagesOf payload)[i]?.bind fields?

theorem items_mapArr {f : List Json → List Json} (hnil : f [] = []) (value : Json) :
    (mapArr f value).items = f value.items := by
  cases value <;> simp [mapArr, items, hnil]

theorem messagesOf_onMessages {f : List Json → List Json} (hnil : f [] = []) (payload : Dict) :
    messagesOf (onMessages f payload) = f (messagesOf payload) := by
  rw [messagesOf, onMessages, Dict.get_update_self rfl, items_mapArr hnil, messagesOf]

theorem messageAt_onMessages_map (f : Dict → Dict) (payload : Dict) (i : Nat) :
    messageAt (onMessages (List.map (mapObj f)) payload) i = (messageAt payload i).map f := by
  rw [messageAt, messagesOf_onMessages rfl, List.getElem?_map, messageAt]
  cases (messagesOf payload)[i]? with
  | none => rfl
  | some message => exact fields?_mapObj f message

theorem messageAt_onMessages_mapIdx (f : Nat → Json → Json) (g : Nat → Dict → Dict)
    (hf : ∀ index message, (f index message).fields? = message.fields?.map (g index))
    (payload : Dict) (i : Nat) :
    messageAt (onMessages (fun messages => messages.mapIdx f) payload) i =
      (messageAt payload i).map (g i) := by
  rw [messageAt, messagesOf_onMessages rfl, List.getElem?_mapIdx, messageAt]
  cases (messagesOf payload)[i]? with
  | none => rfl
  | some message => exact hf i message

def flagsAt (flags : List Bool) (messages : List Json) (i : Nat) : List Bool :=
  (flags.drop (toolResultEntries (messages.take i)).length).take
    ((messages[i]?.map fun message => (messageEntries message).length).getD 0)

theorem getElem?_mapMessagesFrom (f : Nat → List Bool → Dict → Dict) (index : Nat)
    (flags : List Bool) (messages : List Json) (i : Nat) :
    (mapMessagesFrom f index flags messages)[i]? =
      messages[i]?.map (mapObj (f (index + i) (flagsAt flags messages i))) := by
  induction messages generalizing index flags i with
  | nil => rfl
  | cons message rest ih =>
      rw [mapMessagesFrom]
      cases i with
      | zero => rfl
      | succ i =>
          rw [List.getElem?_cons_succ, List.getElem?_cons_succ, ih]
          have hflags : flagsAt (flags.drop (messageEntries message).length) rest i =
              flagsAt flags (message :: rest) (i + 1) := by
            rw [flagsAt, flagsAt, List.drop_drop, List.take_succ_cons, toolResultEntries,
              toolResultEntries, List.flatMap_cons, List.length_append, List.getElem?_cons_succ]
          rw [hflags, Nat.add_assoc, Nat.add_comm 1 i]

theorem messageAt_onMessages_mapMessagesFrom (f : Nat → List Bool → Dict → Dict)
    (flags : List Json → List Bool) (payload : Dict) (i : Nat) :
    messageAt (onMessages (fun messages => mapMessagesFrom f 0 (flags messages) messages) payload) i =
      (messageAt payload i).map
        (f i (flagsAt (flags (messagesOf payload)) (messagesOf payload) i)) := by
  rw [messageAt, messagesOf_onMessages rfl, getElem?_mapMessagesFrom, messageAt, Nat.zero_add]
  cases (messagesOf payload)[i]? with
  | none => rfl
  | some message => exact fields?_mapObj _ message

/-! ### Blocks -/

/-! ### The scrub pass -/

variable {runtime : Runtime} {settings : Settings}

theorem mapArguments_eq_self {f : Dict → Str → Str} {message : Dict}
    (h : ∀ arguments ∈ messageArguments message, ∀ call, f call arguments = arguments) :
    mapArguments f message = message := by
  apply Dict.update_eq_self
  rw [mapItems_eq_self_iff]
  intro call hcall
  rw [mapObj_eq_self_iff]
  rintro call' rfl
  apply Dict.update_eq_self
  rw [mapObj_eq_self_iff]
  intro function hfunction
  apply Dict.update_eq_self
  rw [mapStr_eq_self_iff]
  intro arguments harguments
  apply h
  rw [messageArguments, List.mem_filterMap]
  refine ⟨_, hcall, ?_⟩
  rw [callArguments, fields?, Option.bind_some, hfunction, fields?, Option.bind_some, harguments, str?]

theorem scrubMessage_eq_self {message : Dict} (h : scrubsMessage runtime settings message = false) :
    scrubMessage runtime settings message = message := by
  rw [scrubMessage]
  split_ifs with hrole
  · rw [scrubsMessage, hrole, Bool.true_and, Bool.or_eq_false_iff, List.any_eq_false,
      List.any_eq_false] at h
    obtain ⟨harguments, hinputs⟩ := h
    have hcalls : mapArguments (fun _ => scrubbedArguments runtime) message = message := by
      apply mapArguments_eq_self
      intro arguments hmem _
      have hnone := harguments arguments hmem
      rw [Option.not_isSome_iff_eq_none] at hnone
      rw [scrubbedArguments, hnone]
      rfl
    rw [hcalls]
    apply Dict.update_eq_self
    rw [mapItems_eq_self_iff]
    intro block hblock
    rw [mapObj_eq_self_iff]
    rintro block' rfl
    rw [scrubBlock]
    split_ifs with htype
    · apply Dict.update_eq_self
      rw [mapObj_eq_self_iff]
      intro input hinput
      have hmem : block' ∈ blocksOf (message.get "content") := by
        rw [blocksOf, List.mem_filterMap]
        exact ⟨_, hblock, rfl⟩
      have hsame := hinputs block' hmem
      rw [htype, hinput] at hsame
      have hsame : sameFields (compactToolInput runtime settings input) input = true := by
        simpa [fields?] using hsame
      rw [scrubbedInput]
      exact if_pos hsame
    · rfl
  · rfl

theorem scrub_eq (payload : Dict) : (scrubLeakedToolArgumentProjections runtime settings payload).1 =
    onMessages (List.map (mapObj (scrubMessage runtime settings))) payload := by
  rw [scrubLeakedToolArgumentProjections]
  split_ifs with hchanged
  · rfl
  · symm
    apply Dict.update_eq_self
    change mapItems _ _ = _
    rw [mapItems_eq_self_iff]
    intro message hmessage
    rw [mapObj_eq_self_iff]
    rintro message' rfl
    apply scrubMessage_eq_self
    rw [Bool.not_eq_true, List.any_eq_false] at hchanged
    simpa [fields?] using hchanged _ hmessage

theorem messageAt_scrub (runtime : Runtime) (settings : Settings) (payload : Dict) (i : Nat) :
    messageAt (scrubLeakedToolArgumentProjections runtime settings payload).1 i =
      (messageAt payload i).map (scrubMessage runtime settings) := by
  rw [scrub_eq, messageAt_onMessages_map]

/-! ### The tiers -/

theorem messageAt_compactToolPayload (runtime : Runtime) (settings : Settings)
    (protectedIndexes : List Int) (payload : Dict) (i : Nat) :
    messageAt (compactToolPayload runtime settings protectedIndexes payload) i =
      (messageAt payload i).map (compactToolMessage settings i (flagsAt
        (protectedToolResultFlags runtime settings protectedIndexes (messagesOf payload))
        (messagesOf payload) i)) :=
  messageAt_onMessages_mapMessagesFrom _ _ payload i

def tailMessage (runtime : Runtime) (settings : Settings) (protectedIndex : Option Nat)
    (aggregate : Bool) (index : Nat) (message : Dict) : Dict :=
  if some index = protectedIndex then message
  else compactRecentTailMessage runtime settings aggregate message

def tailPayload (runtime : Runtime) (settings : Settings) (payload : Dict) : Dict :=
  onMessages
    (fun messages => messages.mapIdx fun index message =>
      if some index = protectedRecentAssistantIndex settings (messagesOf payload) then message
      else mapObj (compactRecentTailMessage runtime settings
        (aggregateToolArguments settings (messagesOf payload))) message)
    payload

theorem compactRecentTailPayload_eq (protectedIndexes : List Int) (payload : Dict) :
    (compactRecentTailPayload runtime settings protectedIndexes payload).1 =
      compactToolPayload runtime settings protectedIndexes (tailPayload runtime settings payload) := rfl

theorem messageAt_tailPayload (payload : Dict) (i : Nat) :
    messageAt (tailPayload runtime settings payload) i =
      (messageAt payload i).map (tailMessage runtime settings
        (protectedRecentAssistantIndex settings (messagesOf payload))
        (aggregateToolArguments settings (messagesOf payload)) i) := by
  apply messageAt_onMessages_mapIdx
  intro index message
  by_cases hindex : some index = protectedRecentAssistantIndex settings (messagesOf payload)
  · rw [if_pos hindex]
    cases message.fields? with
    | none => rfl
    | some d => simp [tailMessage, hindex]
  · rw [if_neg hindex, fields?_mapObj]
    cases message.fields? with
    | none => rfl
    | some d => simp [tailMessage, hindex]

theorem messageAt_compactRecentTailPayload (runtime : Runtime) (settings : Settings)
    (protectedIndexes : List Int) (payload : Dict) (i : Nat) :
    messageAt (compactRecentTailPayload runtime settings protectedIndexes payload).1 i =
      (messageAt payload i).map fun message =>
        compactToolMessage settings i
          (flagsAt (protectedToolResultFlags runtime settings protectedIndexes
            (messagesOf (tailPayload runtime settings payload)))
            (messagesOf (tailPayload runtime settings payload)) i)
          (tailMessage runtime settings (protectedRecentAssistantIndex settings (messagesOf payload))
            (aggregateToolArguments settings (messagesOf payload)) i message) := by
  rw [compactRecentTailPayload_eq, messageAt_compactToolPayload, messageAt_tailPayload,
    Option.map_map]
  rfl

theorem messageAt_emergencyCompactCurrentTurnPayload (runtime : Runtime) (settings : Settings)
    (activeUserMessageIndex : Option Int)
    (protectedIndexes : List Int) (payload : Dict) (i : Nat) :
    messageAt (emergencyCompactCurrentTurnPayload runtime settings activeUserMessageIndex
        protectedIndexes payload) i =
      (messageAt payload i).map (emergencyCompactMessage runtime settings
        (protectedRecentAssistantIndex settings (messagesOf payload))
        ((activeUserAnchor (messagesOf payload) activeUserMessageIndex).map Prod.fst) i
        (flagsAt (protectedToolResultFlags runtime settings protectedIndexes (messagesOf payload))
          (messagesOf payload) i)) :=
  messageAt_onMessages_mapMessagesFrom _ (fun _ => _) payload i

theorem messageAt_finalHardCapPayload (runtime : Runtime) (settings : Settings)
    (activeUserMessageIndex : Option Int)
    (protectedIndexes : List Int) (payload : Dict) (i : Nat) :
    messageAt (finalHardCapPayload runtime settings activeUserMessageIndex protectedIndexes payload) i =
      (messageAt payload i).map (hardCapMessage runtime settings
        (resolvedToolCallIds (messagesOf payload))
        (protectedRecentAssistantIndex settings (messagesOf payload))
        ((activeUserAnchor (messagesOf payload) activeUserMessageIndex).map Prod.fst) i
        (flagsAt (protectedToolResultFlags runtime settings protectedIndexes (messagesOf payload))
          (messagesOf payload) i)) :=
  messageAt_onMessages_mapMessagesFrom _ (fun _ => _) payload i

/-! ### Calls -/

def callAt (message : Dict) (k : Nat) : Option Dict := (message.get "tool_calls").items[k]?.bind fields?

def argumentsOf (call : Dict) : Option Str :=
  (call.get "function").fields?.bind fun function => (function.get "arguments").str?

def mapCallArguments (f : Dict → Str → Str) (call : Dict) : Dict :=
  call.update "function" (mapObj fun function => function.update "arguments" (mapStr (f call)))

theorem callAt_mapArguments (f : Dict → Str → Str) (message : Dict) (k : Nat) :
    callAt (mapArguments f message) k = (callAt message k).map (mapCallArguments f) := by
  rw [callAt, mapArguments, Dict.get_update_self rfl, items_mapItems, List.getElem?_map, callAt]
  cases (message.get "tool_calls").items[k]? with
  | none => rfl
  | some call => exact fields?_mapObj (mapCallArguments f) call

theorem argumentsOf_mapCallArguments (f : Dict → Str → Str) (call : Dict) :
    argumentsOf (mapCallArguments f call) = (argumentsOf call).map (f call) := by
  rw [argumentsOf, mapCallArguments, Dict.get_update_self rfl, fields?_mapObj, argumentsOf]
  cases (call.get "function").fields? with
  | none => rfl
  | some function =>
      rw [Option.map_some, Option.bind_some, Dict.get_update_self rfl, str?_mapStr]
      rfl

theorem get_mapArguments {key : String} (hkey : "tool_calls" ≠ key) (f : Dict → Str → Str)
    (message : Dict) : (mapArguments f message).get key = message.get key := Dict.get_update_ne hkey

theorem get_mapCallArguments {key : String} (hkey : "function" ≠ key) (f : Dict → Str → Str)
    (call : Dict) : (mapCallArguments f call).get key = call.get key := Dict.get_update_ne hkey

end OpenStarry.RequestProof
