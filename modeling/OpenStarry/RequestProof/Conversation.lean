import OpenStarry.RequestProof.Sound

/-!
# The conversation that is sent

Every payload of the ladder has the skeleton of the given one, and its inputs are dicts where they
were. The arguments of a call hold JSON up to the second tier. The third one may cut them as a plain
text, and the last one replaces them only for calls that are answered.
-/

namespace OpenStarry.RequestProof

open Lib Lib.Text Lib.Json

variable (runtime : Runtime) (settings : Settings) (request : Request)

def IsJsonObject (arguments : Str) : Prop := (parsedToolArguments runtime arguments).isSome = true

instance (arguments : Str) : Decidable (IsJsonObject runtime arguments) :=
  inferInstanceAs (Decidable (_ = true))

def argumentsAt (payload : Dict) (i k : Nat) : Option Str :=
  ((messageAt payload i).bind fun message => callAt message k).bind argumentsOf

def inputAt (payload : Dict) (i j : Nat) : Option Dict :=
  (messageAt payload i).bind fun message => (messageInputs message)[j]?.join

/-- The same conversation, and arguments and inputs are still objects where they were. -/
structure SameConversation (payload sent : Dict) : Prop where
  skeleton : skeleton sent = skeleton payload
  arguments : ∀ i k arguments, argumentsAt payload i k = some arguments →
    IsJsonObject runtime arguments →
    ∃ arguments', argumentsAt sent i k = some arguments' ∧ IsJsonObject runtime arguments'
  inputs : ∀ i j, (inputAt payload i j).isSome = true → (inputAt sent i j).isSome = true

variable {runtime settings request}

/-! ### Arguments that hold JSON -/

theorem isJsonObject_dumps (fields : Dict) : IsJsonObject runtime (dumps (.obj fields)) := by
  rw [IsJsonObject, parsedToolArguments, loads_dumps]
  rfl

theorem isJsonObject_keepSmaller {value compacted : Str} (hvalue : IsJsonObject runtime value)
    (hcompacted : IsJsonObject runtime compacted) :
    IsJsonObject runtime (keepSmaller settings value compacted) := by
  obtain h | h := keepSmaller_cases settings value compacted <;> rw [h]
  · exact hvalue
  · exact hcompacted

theorem isJsonObject_of_providerContext {includeMarkers : Bool} {arguments normalized : Str}
    (h : providerContextArgumentsJson runtime includeMarkers arguments = some normalized) :
    IsJsonObject runtime normalized := by
  rw [providerContextArgumentsJson] at h
  split_ifs at h
  rw [← Option.some.inj h]
  exact isJsonObject_dumps _

theorem isJsonObject_scrubbedArguments {arguments : Str} (h : IsJsonObject runtime arguments) :
    IsJsonObject runtime (scrubbedArguments runtime arguments) := by
  rw [scrubbedArguments]
  cases hnormalized : providerContextArgumentsJson runtime true arguments with
  | none => exact h
  | some normalized => exact isJsonObject_of_providerContext hnormalized

theorem isJsonObject_argumentsStub (value : Str) :
    IsJsonObject runtime (argumentsStub runtime settings value) := by
  rw [argumentsStub]
  split_ifs
  · exact isJsonObject_dumps _
  · exact isJsonObject_dumps _

theorem isJsonObject_compactToolArguments {arguments : Str} (h : IsJsonObject runtime arguments)
    (preview : Bool) : IsJsonObject runtime (compactToolArguments runtime settings preview arguments) := by
  have hstubbed : IsJsonObject runtime
      (if arguments.length ≤ settings.tinyGuardChars then arguments
        else keepSmaller settings arguments (argumentsStub runtime settings arguments)) := by
    split_ifs
    · exact h
    · exact isJsonObject_keepSmaller h (isJsonObject_argumentsStub _)
  rw [compactToolArguments]
  dsimp only
  by_cases hshort : preview = true ∧ arguments.length ≤ 640
  · rw [if_pos hshort]
    exact h
  · rw [if_neg hshort]
    cases loads runtime.normal arguments with
    | none => exact hstubbed
    | some value =>
        cases value with
        | obj parsed =>
            dsimp only
            rw [apply_ite (IsJsonObject runtime), apply_ite (IsJsonObject runtime)]
            split_ifs
            · exact h
            · exact isJsonObject_keepSmaller h (isJsonObject_dumps _)
            · exact h
            · exact isJsonObject_keepSmaller h (isJsonObject_argumentsStub _)
        | null => exact hstubbed
        | bool b => exact hstubbed
        | num n => exact hstubbed
        | str s => exact hstubbed
        | arr xs => exact hstubbed

theorem isJsonObject_tailArguments {arguments : Str} (h : IsJsonObject runtime arguments)
    (aggregate : Bool) : IsJsonObject runtime (tailArguments runtime settings aggregate arguments) := by
  rw [tailArguments]
  cases hnormalized : providerContextArgumentsJson runtime false arguments with
  | none => exact isJsonObject_compactToolArguments h _
  | some normalized => exact isJsonObject_of_providerContext hnormalized

def StaysUncut (runtime : Runtime) (settings : Settings) (arguments : Str) : Prop :=
  (providerContextArgumentsJson runtime false arguments).isSome = true ∨
    emergencyCompactString settings runtime "tool_arguments".toList arguments = arguments

instance (arguments : Str) : Decidable (StaysUncut runtime settings arguments) :=
  inferInstanceAs (Decidable (_ ∨ _))

theorem emergencyArguments_cases (runtime : Runtime) (settings : Settings) (arguments : Str) :
    StaysUncut runtime settings arguments ∨
      320 < arguments.length ∧ emergencyArguments runtime settings arguments =
        excerpt 180 40 (omittedNote runtime "tool_arguments".toList "_emergency_compacted" arguments)
          arguments := by
  rw [StaysUncut, emergencyArguments]
  cases hnormalized : providerContextArgumentsJson runtime false arguments with
  | some normalized => exact .inl (.inl rfl)
  | none =>
      obtain hsame | ⟨hlong, hcut⟩ := shorten_cases settings 320
        (fun value => excerpt 180 40
          (omittedNote runtime "tool_arguments".toList "_emergency_compacted" value) value) arguments
      · exact .inl (.inr hsame)
      · exact .inr ⟨hlong, hcut⟩

theorem isJsonObject_emergencyArguments {arguments : Str} (h : IsJsonObject runtime arguments) :
    IsJsonObject runtime (emergencyArguments runtime settings arguments) ↔
      StaysUncut runtime settings arguments := by
  constructor
  · intro hobject
    obtain huncut | ⟨-, hcut⟩ := emergencyArguments_cases runtime settings arguments
    · exact huncut
    · rw [hcut, IsJsonObject, parsedToolArguments, loads_excerpt] at hobject
      exact absurd hobject (by simp)
  · rw [StaysUncut, emergencyArguments]
    cases hnormalized : providerContextArgumentsJson runtime false arguments with
    | some normalized => exact fun _ => isJsonObject_of_providerContext hnormalized
    | none =>
        rintro (hsome | hsame)
        · exact absurd hsome (by simp)
        · rw [Option.getD_none, hsame]
          exact h

theorem isJsonObject_finalCap {arguments : Str} (h : IsJsonObject runtime arguments) :
    IsJsonObject runtime (compactToolArgumentsForFinalCap runtime settings arguments) := by
  rw [compactToolArgumentsForFinalCap]
  apply isJsonObject_keepSmaller h
  split_ifs
  · exact isJsonObject_dumps _
  · exact isJsonObject_dumps _

theorem isJsonObject_finalCap_of_length {arguments : Str} (hlong : 180 ≤ arguments.length) :
    IsJsonObject runtime (compactToolArgumentsForFinalCap runtime settings arguments) := by
  have hchars := length_le_payloadChars arguments
  have hbase : payloadChars (str (dumps (.obj
      [(invalidProviderContextArgumentsKey.toList, .bool true)]))) ≤ 60 := by decide
  rw [compactToolArgumentsForFinalCap]
  rw [keepSmaller, keepOriginalForNeverWorse]
  split_ifs with hpreviews hkeep hkeep
  · rw [Bool.and_eq_true, decide_eq_true_eq] at hkeep
    omega
  · exact isJsonObject_dumps _
  · rw [Bool.and_eq_true, decide_eq_true_eq] at hkeep
    omega
  · exact isJsonObject_dumps _

def IsAnswered (messages : List Json) (call : Dict) : Prop :=
  ∃ id, call.get "id" = .str id ∧ id ∈ resolvedToolCallIds messages

theorem isJsonObject_finalArguments {messages : List Json} {call : Dict} {arguments : Str}
    (h : IsJsonObject runtime arguments) :
    IsJsonObject runtime (finalArguments runtime settings (resolvedToolCallIds messages) call
        (emergencyArguments runtime settings arguments)) ↔
      StaysUncut runtime settings arguments ∨ IsAnswered messages call := by
  by_cases hanswered : IsAnswered messages call
  · obtain ⟨id, hid, hmem⟩ := hanswered
    rw [finalArguments, hid]
    dsimp only
    rw [if_pos hmem]
    refine iff_of_true ?_ (.inr ⟨id, hid, hmem⟩)
    obtain huncut | ⟨hlong, hcut⟩ :=
      emergencyArguments_cases runtime settings arguments
    · exact isJsonObject_finalCap ((isJsonObject_emergencyArguments h).mpr huncut)
    · apply isJsonObject_finalCap_of_length
      rw [hcut, excerpt]
      rw [List.length_append, List.length_take]
      omega
  · have hleft : finalArguments runtime settings (resolvedToolCallIds messages) call
        (emergencyArguments runtime settings arguments) =
          emergencyArguments runtime settings arguments := by
      rw [finalArguments]
      split
      next id hid =>
        rw [if_neg fun hmem => hanswered ⟨id, hid, hmem⟩]
      next => rfl
    rw [hleft, isJsonObject_emergencyArguments h]
    exact ⟨.inl, fun h => h.resolve_right hanswered⟩

/-! ### What is read off the skeleton -/

theorem messageSkeleton_eq_of_skeleton {payload payload' : Dict} (h : skeleton payload' = skeleton payload)
    (i : Nat) : (messageAt payload' i).map messageSkeleton = (messageAt payload i).map messageSkeleton := by
  have hitem (payload : Dict) : ((skeleton payload)[i]?).join = (messageAt payload i).map messageSkeleton := by
    rw [skeleton, List.getElem?_map, messageAt]
    cases (messagesOf payload)[i]? with
    | none => rfl
    | some value => rfl
  rw [← hitem, ← hitem, h]

theorem lastIndex?_congr {α β : Type} {p : α → Bool} {q : β → Bool} {xs : List α} {ys : List β}
    (h : xs.map p = ys.map q) : lastIndex? p xs = lastIndex? q ys := by
  have hlength : xs.length = ys.length := by simpa using congrArg List.length h
  rw [lastIndex?, lastIndex?, hlength]
  congr 1
  funext i
  have hitem := congrArg (fun flags => flags[i]?) h
  simp only [List.getElem?_map] at hitem
  cases hx : xs[i]? <;> cases hy : ys[i]? <;> simp_all

theorem isAssistant_map_eq {payload payload' : Dict} (h : skeleton payload' = skeleton payload) :
    (messagesOf payload').map isAssistant = (messagesOf payload).map isAssistant := by
  have hroles (payload : Dict) : (messagesOf payload).map isAssistant =
      (skeleton payload).map fun message =>
        message.any fun message => message.role = .str "assistant".toList := by
    rw [skeleton, List.map_map]
    apply List.map_congr_left
    intro message _
    rw [isAssistant, Function.comp_apply]
    cases message.fields? with
    | none => rfl
    | some d => rfl
  rw [hroles, hroles, h]

theorem protectedRecentAssistantIndex_congr {payload payload' : Dict}
    (h : skeleton payload' = skeleton payload) :
    protectedRecentAssistantIndex settings (messagesOf payload') =
      protectedRecentAssistantIndex settings (messagesOf payload) := by
  rw [protectedRecentAssistantIndex, protectedRecentAssistantIndex,
    lastIndex?_congr (isAssistant_map_eq h)]

def skeletonToolUseIds (message : MessageSkeleton) : List Str :=
  (if message.role = .str "tool".toList then message.toolCallId.str?.toList else []) ++
    ((message.blocks.filterMap id).filter fun block => block.type = .str "tool_result".toList).filterMap
      fun block => block.toolUseId.str?

theorem resolvedToolCallIds_congr {payload payload' : Dict} (h : skeleton payload' = skeleton payload) :
    resolvedToolCallIds (messagesOf payload') = resolvedToolCallIds (messagesOf payload) := by
  have hmessage (message : Dict) :
      (if hasRole "tool" message then (message.get "tool_call_id").str?.toList else []) ++
        ((blocksOf (message.get "content")).filter (hasType "tool_result")).filterMap
          (fun block => (block.get "tool_use_id").str?) =
        skeletonToolUseIds (messageSkeleton message) := by
    have hblocks : ((messageSkeleton message).blocks.filterMap id) =
        (blocksOf (message.get "content")).map blockSkeleton := by
      rw [messageSkeleton, contentSkeleton, blocksOf, List.filterMap_map, List.map_filterMap]
      rfl
    rw [skeletonToolUseIds, hblocks, List.filter_map, List.filterMap_map]
    congr 1
    rw [hasRole]
    by_cases hrole : message.get "role" = .str "tool".toList
    · rw [if_pos (decide_eq_true hrole), messageSkeleton, if_pos hrole]
    · rw [if_neg (by rwa [decide_eq_true_eq]), messageSkeleton, if_neg hrole]
  have hids (payload : Dict) : resolvedToolCallIds (messagesOf payload) =
      ((skeleton payload).filterMap id).flatMap skeletonToolUseIds := by
    rw [resolvedToolCallIds, skeleton, List.filterMap_map]
    have hfields : (messagesOf payload).filterMap
        (id ∘ fun message => message.fields?.map messageSkeleton) =
        ((messagesOf payload).filterMap fields?).map messageSkeleton := by
      rw [List.map_filterMap]
      rfl
    rw [hfields, List.flatMap_map]
    congr 1
    funext message
    exact hmessage message
  rw [hids, hids, h]

/-! ### The calls of one message through the tiers -/

theorem callAt_congr {message message' : Dict} (h : message'.get "tool_calls" = message.get "tool_calls")
    (k : Nat) : callAt message' k = callAt message k := by
  rw [callAt, h, callAt]

theorem callAt_scrubMessage (runtime : Runtime) (settings : Settings) (message : Dict) (k : Nat) :
    callAt (scrubMessage runtime settings message) k =
      if hasRole "assistant" message then
        (callAt message k).map (mapCallArguments fun _ => scrubbedArguments runtime)
      else callAt message k := by
  rw [scrubMessage]
  split_ifs
  · rw [callAt_congr (Dict.get_update_ne (by decide)), callAt_mapArguments]
  · rfl

theorem callAt_compactToolMessage (settings : Settings) (index : Nat) (flags : List Bool) (message : Dict) (k : Nat) :
    callAt (compactToolMessage settings index flags message) k = callAt message k := by
  apply callAt_congr
  rw [compactToolMessage, compactToolEntry]
  split_ifs
  · rfl
  · exact Dict.get_update_ne (by decide)
  · exact Dict.get_update_ne (by decide)

theorem callAt_tailMessage (runtime : Runtime) (settings : Settings) (protectedIndex : Option Nat) (aggregate : Bool) (index : Nat)
    (message : Dict) (k : Nat) :
    callAt (tailMessage runtime settings protectedIndex aggregate index message) k =
      if hasRole "assistant" message = true ∧ some index ≠ protectedIndex then
        (callAt message k).map (mapCallArguments fun _ => tailArguments runtime settings aggregate)
      else callAt message k := by
  rw [tailMessage]
  by_cases hindex : some index = protectedIndex
  · rw [if_pos hindex, if_neg fun h => h.2 hindex]
  · rw [if_neg hindex, compactRecentTailMessage, callAt_congr (Dict.get_update_ne (by decide))]
    by_cases hrole : hasRole "assistant" message = true
    · rw [if_pos hrole, if_pos ⟨hrole, hindex⟩, callAt_mapArguments,
        callAt_congr (Dict.get_update_ne (by decide))]
    · rw [if_neg hrole, if_neg fun h => hrole h.1]

theorem callAt_emergencyCompactMessage (runtime : Runtime) (settings : Settings)
    (protectedIndex activeIndex : Option Nat) (index : Nat)
    (flags : List Bool) (message : Dict) (k : Nat) :
    callAt (emergencyCompactMessage runtime settings protectedIndex activeIndex index flags message) k =
      if hasRole "assistant" message = true ∧ some index ≠ protectedIndex then
        (callAt message k).map (mapCallArguments fun _ => emergencyArguments runtime settings)
      else callAt message k := by
  rw [emergencyCompactMessage]
  by_cases hindex : some index = protectedIndex
  · rw [if_pos hindex, if_neg fun h => h.2 hindex]
  · rw [if_neg hindex]
    dsimp only
    rw [callAt_congr (Dict.get_update_ne (by decide)), emergencyCompactCalls]
    have huser {key : String} (hkey : "content" ≠ key) (isActive : Bool) (message : Dict) :
        (emergencyCompactUser runtime settings isActive (flags.any id) message).get key =
          message.get key := by
      rw [emergencyCompactUser]
      split_ifs
      · exact Dict.get_set_ne hkey
      · rfl
    have htext {key : String} (hkey : "content" ≠ key) (message : Dict) :
        (emergencyCompactText runtime settings (flags.any id) message).get key = message.get key := by
      rw [emergencyCompactText]
      split_ifs
      · exact Dict.get_update_ne hkey
      · exact Dict.get_update_ne hkey
      · rfl
    rw [hasRole, htext (by decide), huser (by decide), ← hasRole]
    by_cases hrole : hasRole "assistant" message = true
    · rw [if_pos hrole, if_pos ⟨hrole, hindex⟩, callAt_mapArguments,
        callAt_congr (Dict.get_update_ne (by decide)), callAt_congr (htext (by decide) _),
        callAt_congr (huser (by decide) _ _)]
    · rw [if_neg hrole, if_neg fun h => hrole h.1, callAt_congr (htext (by decide) _),
        callAt_congr (huser (by decide) _ _)]

theorem hasRole_ne {role other : String} (hne : role ≠ other) {message : Dict}
    (h : hasRole role message = true) : hasRole other message = false := by
  rw [hasRole, decide_eq_true_eq] at h
  rw [hasRole, h, decide_eq_false_iff_not, Json.str.injEq]
  exact fun heq => hne (String.toList_inj.mp heq)

theorem callAt_hardCapMessage (runtime : Runtime) (settings : Settings) (resolved : List Str) (protectedIndex activeIndex : Option Nat)
    (index : Nat) (flags : List Bool) (hflags : flags.any id = false) {message : Dict}
    (hrole : hasRole "assistant" message = true) (hindex : some index ≠ protectedIndex) (k : Nat) :
    callAt (hardCapMessage runtime settings resolved protectedIndex activeIndex index flags message) k =
      (callAt message k).map (mapCallArguments (finalArguments runtime settings resolved)) := by
  rw [hardCapMessage, if_neg hindex, if_neg (by rw [hflags]; exact Bool.false_ne_true),
    if_neg (by rw [hasRole_ne (by decide) hrole]; exact Bool.false_ne_true),
    if_neg (by rw [hasRole_ne (by decide) hrole]; exact Bool.false_ne_true), if_pos hrole,
    hardCapAssistant, callAt_mapArguments, callAt_congr (Dict.get_update_ne (by decide)),
    callAt_congr (Dict.get_set_ne (by decide))]

theorem callAt_hardCapMessage_of_not {resolved : List Str} {protectedIndex activeIndex : Option Nat}
    {index : Nat} {flags : List Bool} {message : Dict}
    (h : hasRole "assistant" message = false ∨ some index = protectedIndex) (k : Nat) :
    callAt (hardCapMessage runtime settings resolved protectedIndex activeIndex index flags message) k =
      callAt message k := by
  rw [hardCapMessage]
  by_cases hindex : some index = protectedIndex
  · rw [if_pos hindex]
  · have hrole : ¬ hasRole "assistant" message = true := by
      rw [h.resolve_right hindex]
      exact Bool.false_ne_true
    rw [if_neg hindex]
    apply callAt_congr
    split_ifs
    · rfl
    · rfl
    · exact Dict.get_set_ne (by decide)
    · exact Dict.get_set_ne (by decide)
    · rfl

def argumentsPass (runtime : Runtime) (settings : Settings) (messages : List Json) (call : Dict) :
    Nat → Str → Str
  | 1 => id
  | 2 => tailArguments runtime settings (aggregateToolArguments settings messages)
  | 3 => emergencyArguments runtime settings
  | _ => finalArguments runtime settings (resolvedToolCallIds messages) call

def HasNoResults (message : MessageSkeleton) : Prop :=
  ∀ block, some block ∈ message.blocks → block.type ≠ .str "tool_result".toList

theorem messageEntries_eq_nil {message : Dict} (hrole : hasRole "assistant" message = true)
    (hresults : HasNoResults (messageSkeleton message)) : messageEntries (.obj message) = [] := by
  have htool : isToolMessage message = false := by
    rw [isToolMessage, hasRole_ne (by decide) hrole, Bool.false_and]
  rw [messageEntries, if_neg (by rw [htool]; exact Bool.false_ne_true), List.filter_eq_nil_iff]
  intro block hblock htype
  apply hresults (blockSkeleton block)
  · rw [blocksOf, List.mem_filterMap] at hblock
    obtain ⟨value, hvalue, hfields⟩ := hblock
    rw [messageSkeleton, contentSkeleton, List.mem_map]
    exact ⟨value, hvalue, by rw [hfields]; rfl⟩
  · exact of_decide_eq_true htype

theorem hasNoResults_of_chat {message : Dict} (hchat : isChatMessage message = true)
    (hrole : hasRole "assistant" message = true) : HasNoResults (messageSkeleton message) := by
  intro block hblock htype
  rw [messageSkeleton, contentSkeleton, List.mem_map] at hblock
  obtain ⟨value, hvalue, hfields⟩ := hblock
  obtain ⟨d, hd, rfl⟩ := Option.map_eq_some_iff.mp hfields
  have hmem : d ∈ blocksOf (message.get "content") := List.mem_filterMap.mpr ⟨value, hvalue, hd⟩
  have hresult : hasType "tool_result" d = true := decide_eq_true htype
  have huser := ((isChatBlock_iff.mp (chatBlock_of_mem hchat hmem)).2.2.1 hresult).1
  rw [hasRole_ne (by decide) huser] at hrole
  exact Bool.false_ne_true hrole

theorem flagsAt_eq_nil (flags : List Bool) {payload : Dict} {i : Nat} {message : Dict}
    (hmessage : messageAt payload i = some message) (hentries : messageEntries (.obj message) = []) :
    flagsAt flags (messagesOf payload) i = [] := by
  rw [messageAt, Option.bind_eq_some_iff] at hmessage
  obtain ⟨value, hvalue, hfields⟩ := hmessage
  have hobj : value = .obj message := by
    cases value <;> simp_all [fields?]
  rw [flagsAt, hvalue, hobj, Option.map_some, hentries]
  rfl

theorem exists_call_tierPass (runtime : Runtime) (settings : Settings) (request : Request)
    (tier : Nat) {payload : Dict} {i k : Nat} {message call : Dict}
    {arguments : Str} (hmessage : messageAt payload i = some message)
    (hresults : hasRole "assistant" message = true → HasNoResults (messageSkeleton message))
    (hcall : callAt message k = some call) (harguments : argumentsOf call = some arguments) :
    ∃ sent call', messageAt (tierPass runtime settings request (tier + 1) payload) i = some sent ∧
      callAt sent k = some call' ∧ call'.get "id" = call.get "id" ∧
      argumentsOf call' = some
        (if hasRole "assistant" message = true ∧
            some i ≠ protectedRecentAssistantIndex settings (messagesOf payload) then
          argumentsPass runtime settings (messagesOf payload) call (tier + 1) arguments
        else arguments) := by
  have hmapped (f : Dict → Str → Str) : (mapCallArguments f call).get "id" = call.get "id" ∧
      argumentsOf (mapCallArguments f call) = some (f call arguments) := by
    rw [argumentsOf_mapCallArguments, harguments]
    exact ⟨get_mapCallArguments (by decide) f call, rfl⟩
  match tier with
  | 0 =>
      have hsent := messageAt_compactToolPayload runtime settings request.protectedToolResultIndexes payload i
      rw [hmessage, Option.map_some] at hsent
      refine ⟨_, call, hsent, (callAt_compactToolMessage settings i _ message k).trans hcall, rfl, ?_⟩
      rw [harguments]
      split_ifs
      · rfl
      · rfl
  | 1 =>
      have hsent := messageAt_compactRecentTailPayload runtime settings request.protectedToolResultIndexes payload i
      rw [hmessage, Option.map_some] at hsent
      have hcallSent := (callAt_compactToolMessage settings i
        (flagsAt (protectedToolResultFlags runtime settings request.protectedToolResultIndexes
          (messagesOf (tailPayload runtime settings payload)))
          (messagesOf (tailPayload runtime settings payload)) i) _ k).trans
        (callAt_tailMessage runtime settings
          (protectedRecentAssistantIndex settings (messagesOf payload))
          (aggregateToolArguments settings (messagesOf payload)) i message k)
      rw [hcall, Option.map_some] at hcallSent
      split_ifs at hcallSent ⊢ with hpass
      · exact ⟨_, _, hsent, hcallSent, (hmapped _).1, (hmapped _).2⟩
      · exact ⟨_, call, hsent, hcallSent, rfl, harguments⟩
  | 2 =>
      have hsent := messageAt_emergencyCompactCurrentTurnPayload runtime settings
        request.activeUserMessageIndex request.protectedToolResultIndexes payload i
      rw [hmessage, Option.map_some] at hsent
      have hcallSent := callAt_emergencyCompactMessage runtime settings
        (protectedRecentAssistantIndex settings (messagesOf payload))
        ((activeUserAnchor (messagesOf payload) request.activeUserMessageIndex).map Prod.fst) i
        (flagsAt (protectedToolResultFlags runtime settings request.protectedToolResultIndexes
          (messagesOf payload)) (messagesOf payload) i) message k
      rw [hcall, Option.map_some] at hcallSent
      split_ifs at hcallSent ⊢ with hpass
      · exact ⟨_, _, hsent, hcallSent, (hmapped _).1, (hmapped _).2⟩
      · exact ⟨_, call, hsent, hcallSent, rfl, harguments⟩
  | _ + 3 =>
      have hsent := messageAt_finalHardCapPayload runtime settings request.activeUserMessageIndex request.protectedToolResultIndexes payload i
      rw [hmessage, Option.map_some] at hsent
      by_cases hpass : hasRole "assistant" message = true ∧
          some i ≠ protectedRecentAssistantIndex settings (messagesOf payload)
      · rw [if_pos hpass]
        have hflags := flagsAt_eq_nil
          (protectedToolResultFlags runtime settings request.protectedToolResultIndexes
            (messagesOf payload)) hmessage (messageEntries_eq_nil hpass.1 (hresults hpass.1))
        have hcallSent := callAt_hardCapMessage runtime settings
          (resolvedToolCallIds (messagesOf payload))
          (protectedRecentAssistantIndex settings (messagesOf payload))
          ((activeUserAnchor (messagesOf payload) request.activeUserMessageIndex).map Prod.fst) i
          (flagsAt (protectedToolResultFlags runtime settings
            request.protectedToolResultIndexes (messagesOf payload)) (messagesOf payload) i)
          (by rw [hflags]; rfl) hpass.1 hpass.2 k
        rw [hcall, Option.map_some] at hcallSent
        exact ⟨_, _, hsent, hcallSent, (hmapped _).1, (hmapped _).2⟩
      · rw [if_neg hpass]
        refine ⟨_, call, hsent, (callAt_hardCapMessage_of_not ?_ k).trans hcall, rfl, harguments⟩
        rw [not_and_or, not_not, Bool.not_eq_true] at hpass
        exact hpass

/-! ### The arguments on the way to a tier -/

section

variable (runtime settings request)

/-- The arguments of a call in the payload of a tier. -/
def argumentsAfter (payload : Dict) (i : Nat) (message call : Dict) (arguments : Str) : Nat → Str
  | 0 => if hasRole "assistant" message then scrubbedArguments runtime arguments else arguments
  | tier + 1 =>
      if hasRole "assistant" message = true ∧
          some i ≠ protectedRecentAssistantIndex settings (messagesOf payload) then
        argumentsPass runtime settings
          (messagesOf (tierPayload runtime settings request payload tier)) call (tier + 1)
          (argumentsAfter payload i message call arguments tier)
      else argumentsAfter payload i message call arguments tier

end

theorem argumentsPass_congr {call call' : Dict} (h : call'.get "id" = call.get "id")
    (messages : List Json) (tier : Nat) (arguments : Str) :
    argumentsPass runtime settings messages call' tier arguments =
      argumentsPass runtime settings messages call tier arguments := by
  rw [argumentsPass.eq_def, argumentsPass.eq_def]
  split
  · rfl
  · rfl
  · rfl
  · rw [finalArguments, h, finalArguments]

theorem exists_call_tierPayload (runtime : Runtime) (settings : Settings) (request : Request)
    {payload : Dict} (hchat : ChatShaped payload) {i k : Nat}
    {message call : Dict} {arguments : Str} (hmessage : messageAt payload i = some message)
    (hcall : callAt message k = some call) (harguments : argumentsOf call = some arguments)
    (tier : Nat) :
    ∃ sent call', messageAt (tierPayload runtime settings request payload tier) i = some sent ∧
      callAt sent k = some call' ∧ call'.get "id" = call.get "id" ∧
      argumentsOf call' =
        some (argumentsAfter runtime settings request payload i message call arguments tier) := by
  induction tier with
  | zero =>
      have hsent := messageAt_scrub runtime settings payload i
      rw [hmessage, Option.map_some] at hsent
      have hcallSent := callAt_scrubMessage runtime settings message k
      rw [hcall, Option.map_some] at hcallSent
      rw [argumentsAfter]
      split_ifs at hcallSent ⊢
      · refine ⟨_, _, hsent, hcallSent, get_mapCallArguments (by decide) _ call, ?_⟩
        rw [argumentsOf_mapCallArguments, harguments]
        rfl
      · exact ⟨_, call, hsent, hcallSent, rfl, harguments⟩
  | succ tier ih =>
      obtain ⟨before, callBefore, hbefore, hcallBefore, hid, hargumentsBefore⟩ := ih
      have hskeleton := skeleton_tierPayload runtime settings request payload tier
      have hsame := messageSkeleton_eq_of_skeleton hskeleton i
      rw [hbefore, hmessage, Option.map_some, Option.map_some, Option.some_inj] at hsame
      have hrole : hasRole "assistant" before = hasRole "assistant" message := by
        rw [hasRole, hasRole]
        exact congrArg (fun role => decide (role = Json.str "assistant".toList))
          (congrArg MessageSkeleton.role hsame)
      obtain ⟨sent, call', hsent, hcallSent, hid', hargumentsSent⟩ :=
        exists_call_tierPass runtime settings request tier hbefore
          (fun h => by
            rw [hsame]
            rw [hrole] at h
            exact hasNoResults_of_chat (hchat.message hmessage) h)
          hcallBefore hargumentsBefore
      refine ⟨sent, call', hsent, hcallSent, hid'.trans hid, ?_⟩
      rw [hargumentsSent, argumentsAfter, hrole, protectedRecentAssistantIndex_congr hskeleton,
        argumentsPass_congr hid]

theorem isJsonObject_argumentsAfter_zero (settings : Settings) (request : Request) (payload : Dict)
    (i : Nat) (message call : Dict) {arguments : Str} (h : IsJsonObject runtime arguments) :
    IsJsonObject runtime (argumentsAfter runtime settings request payload i message call arguments 0) := by
  rw [argumentsAfter]
  split_ifs
  · exact isJsonObject_scrubbedArguments h
  · exact h

theorem isJsonObject_argumentsAfter_of_le (settings : Settings) (request : Request) (payload : Dict)
    (i : Nat) (message call : Dict) {arguments : Str} (h : IsJsonObject runtime arguments) {tier : Nat} (htier : tier ≤ 2) :
    IsJsonObject runtime
      (argumentsAfter runtime settings request payload i message call arguments tier) := by
  have hzero := isJsonObject_argumentsAfter_zero settings request payload i message call h
  have hone : IsJsonObject runtime
      (argumentsAfter runtime settings request payload i message call arguments 1) := by
    rw [argumentsAfter]
    split_ifs
    · exact hzero
    · exact hzero
  match tier, htier with
  | 0, _ => exact hzero
  | 1, _ => exact hone
  | 2, _ =>
      rw [argumentsAfter]
      split_ifs
      · exact isJsonObject_tailArguments hone _
      · exact hone

theorem argumentsAfter_of_not {payload : Dict} {i : Nat} {message call : Dict} {arguments : Str}
    (h : ¬ (hasRole "assistant" message = true ∧
      some i ≠ protectedRecentAssistantIndex settings (messagesOf payload))) (tier : Nat) :
    argumentsAfter runtime settings request payload i message call arguments tier =
      argumentsAfter runtime settings request payload i message call arguments 0 := by
  induction tier with
  | zero => rfl
  | succ tier ih => exact (if_neg h).trans ih

theorem isJsonObject_argumentsAfter_late (request : Request) {payload : Dict} {i : Nat}
    {message : Dict} (call : Dict) {arguments : Str} (h : IsJsonObject runtime arguments)
    (holder : hasRole "assistant" message = true ∧
      some i ≠ protectedRecentAssistantIndex settings (messagesOf payload)) :
    (IsJsonObject runtime
        (argumentsAfter runtime settings request payload i message call arguments 3) ↔
      StaysUncut runtime settings
        (argumentsAfter runtime settings request payload i message call arguments 2)) ∧
    (IsJsonObject runtime
        (argumentsAfter runtime settings request payload i message call arguments 4) ↔
      StaysUncut runtime settings
          (argumentsAfter runtime settings request payload i message call arguments 2) ∨
        IsAnswered (messagesOf payload) call) := by
  have htwo := isJsonObject_argumentsAfter_of_le settings request payload i message call h le_rfl
  have hthree : argumentsAfter runtime settings request payload i message call arguments 3 =
      emergencyArguments runtime settings
        (argumentsAfter runtime settings request payload i message call arguments 2) := if_pos holder
  have hfour : argumentsAfter runtime settings request payload i message call arguments 4 =
      finalArguments runtime settings (resolvedToolCallIds (messagesOf payload)) call
        (argumentsAfter runtime settings request payload i message call arguments 3) := by
    rw [← resolvedToolCallIds_congr (skeleton_tierPayload runtime settings request payload 3)]
    exact if_pos holder
  constructor
  · rw [hthree, isJsonObject_emergencyArguments htwo]
  · rw [hfour, hthree, isJsonObject_finalArguments htwo]

/-! ### The conversation of a payload of the ladder -/

theorem argumentsAt_eq_some {payload : Dict} {i k : Nat} {arguments : Str} :
    argumentsAt payload i k = some arguments ↔ ∃ message call, messageAt payload i = some message ∧
      callAt message k = some call ∧ argumentsOf call = some arguments := by
  rw [argumentsAt, Option.bind_eq_some_iff]
  constructor
  · rintro ⟨call, hcall, harguments⟩
    obtain ⟨message, hmessage, hcall⟩ := Option.bind_eq_some_iff.mp hcall
    exact ⟨message, call, hmessage, hcall, harguments⟩
  · rintro ⟨message, call, hmessage, hcall, harguments⟩
    exact ⟨call, by rw [hmessage]; exact hcall, harguments⟩

theorem inputAt_tierPayload {payload : Dict} {i j : Nat} (tier : Nat)
    (h : (inputAt payload i j).isSome = true) :
    (inputAt (tierPayload runtime settings request payload tier) i j).isSome = true := by
  rw [inputAt] at h ⊢
  cases hmessage : messageAt payload i with
  | none =>
      rw [hmessage] at h
      exact absurd h (by simp)
  | some message =>
      obtain ⟨sent, f, hsent, -, hinputs⟩ :=
        exists_messageInputs_tierPayload runtime settings request tier hmessage
      rw [hmessage, Option.bind_some] at h
      rw [hsent, Option.bind_some, hinputs, List.getElem?_map]
      cases hitem : (messageInputs message)[j]? with
      | none =>
          rw [hitem] at h
          exact absurd h (by simp)
      | some input =>
          rw [hitem] at h
          cases input with
          | none => exact absurd h (by simp)
          | some input => rfl

theorem sameConversation_tierPayload {payload : Dict} (hchat : ChatShaped payload) (tier : Nat) :
    SameConversation runtime payload (tierPayload runtime settings request payload tier) ↔
      ∀ i k message call arguments, messageAt payload i = some message →
        callAt message k = some call → argumentsOf call = some arguments →
        IsJsonObject runtime arguments →
        IsJsonObject runtime
          (argumentsAfter runtime settings request payload i message call arguments tier) := by
  constructor
  · intro hsame i k message call arguments hmessage hcall harguments hobject
    obtain ⟨arguments', hsent, hobject'⟩ := hsame.arguments i k arguments
      (argumentsAt_eq_some.mpr ⟨message, call, hmessage, hcall, harguments⟩) hobject
    obtain ⟨sent, call', hsentMessage, hsentCall, -, hsentArguments⟩ :=
      exists_call_tierPayload runtime settings request hchat hmessage hcall harguments tier
    have hafter := argumentsAt_eq_some.mpr ⟨sent, call', hsentMessage, hsentCall, hsentArguments⟩
    rw [hsent, Option.some_inj] at hafter
    rwa [← hafter]
  · intro hobjects
    refine ⟨skeleton_tierPayload runtime settings request payload tier, ?_,
      fun i j => inputAt_tierPayload tier⟩
    intro i k arguments harguments hobject
    obtain ⟨message, call, hmessage, hcall, harguments⟩ := argumentsAt_eq_some.mp harguments
    obtain ⟨sent, call', hsentMessage, hsentCall, -, hsentArguments⟩ :=
      exists_call_tierPayload runtime settings request hchat hmessage hcall harguments tier
    exact ⟨_, argumentsAt_eq_some.mpr ⟨sent, call', hsentMessage, hsentCall, hsentArguments⟩,
      hobjects i k message call arguments hmessage hcall harguments hobject⟩

section

variable (runtime settings request)

def argumentsLeft (payload : Dict) (arguments : Str) : Str :=
  tailArguments runtime settings
    (aggregateToolArguments settings (messagesOf (tierPayload runtime settings request payload 1)))
    (scrubbedArguments runtime arguments)

/-- The third tier cuts no arguments of an older call, or the last one runs and the call is
answered. -/
def ArgumentsSurvive (payload : Dict) : Prop :=
  ∀ i k message call arguments, messageAt payload i = some message →
    hasRole "assistant" message = true →
    some i ≠ protectedRecentAssistantIndex settings (messagesOf payload) →
    callAt message k = some call → argumentsOf call = some arguments →
    IsJsonObject runtime arguments →
    StaysUncut runtime settings (argumentsLeft runtime settings request payload arguments) ∨
      ¬ Fits runtime request (tierPayload runtime settings request payload 3) ∧
        IsAnswered (messagesOf payload) call

end

theorem argumentsAfter_two {payload : Dict} {i : Nat} {message call : Dict} {arguments : Str}
    (holder : hasRole "assistant" message = true ∧
      some i ≠ protectedRecentAssistantIndex settings (messagesOf payload)) :
    argumentsAfter runtime settings request payload i message call arguments 2 =
      argumentsLeft runtime settings request payload arguments := by
  have hzero : argumentsAfter runtime settings request payload i message call arguments 0 =
      scrubbedArguments runtime arguments := if_pos holder.1
  have hone : argumentsAfter runtime settings request payload i message call arguments 1 =
      argumentsAfter runtime settings request payload i message call arguments 0 := if_pos holder
  rw [argumentsLeft, ← hzero, ← hone]
  exact if_pos holder

/-- One tool was called with a text, answered, and a new request came. -/
def toolCalled (arguments request : Str) : Dict :=
  fieldsOf [("messages", .arr [
    .obj (fieldsOf [("role", .str "user".toList), ("content", .str "hi".toList)]),
    .obj (fieldsOf [("role", .str "assistant".toList), ("content", .null), ("tool_calls", .arr [
      .obj (fieldsOf [("id", .str "c1".toList), ("type", .str "function".toList),
        ("function", .obj (fieldsOf [("name", .str "write".toList), ("arguments", .str arguments)]))])])]),
    .obj (fieldsOf [("role", .str "tool".toList), ("tool_call_id", .str "c1".toList),
      ("content", .str "ok".toList)]),
    .obj (fieldsOf [("role", .str "assistant".toList), ("content", .str "done".toList)]),
    .obj (fieldsOf [("role", .str "user".toList), ("content", .str request)])])]

def longArguments : Str := dumps (.obj (fieldsOf [("text", .str (List.replicate 590 'y'))]))

def longArgumentsDigest : String := "91220d686330728e2596b3c4f1eb89f00fd1e255027e4ee41df930e5ac08811d"

end OpenStarry.RequestProof
