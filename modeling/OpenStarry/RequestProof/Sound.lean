import OpenStarry.RequestProof.Skeleton
import OpenStarry.RequestProof.Finite
import OpenStarry.Lib.Outcome

/-!
# What a run sends

A run sends a payload that fits or refuses, and never touches the payload it was given. A request
that fits is sent as it is, unless the scrub pass shortens one of its inputs.
-/

namespace OpenStarry.RequestProof

open Lib Lib.Text Lib.Json

variable (runtime : Runtime) (settings : Settings) (request : Request)

/-! ### Inputs that are shortened -/

def StaysWhole (input : Dict) : Prop :=
  let raw := dumps (sortKeys (.obj input))
  raw.length ≤ 640 ∨ raw.length ≤ settings.tinyGuardChars ∨
    (∀ p ∈ input, mapStr (compactTailString settings runtime "tool_input".toList) p.2 = p.2) ∧
      (keepOriginalForNeverWorse settings (.obj input) (.obj (inputStub runtime settings raw input)) =
          true ∨
        sameFields (inputStub runtime settings raw input) input = true)

def Marked (input : Dict) : Prop :=
  hasProviderContextArgumentMarker runtime input = true ∨ hasProjectedValue input = true

variable {runtime settings request}

theorem lookup_of_nodup {input : Dict} (hnodup : (input.map Prod.fst).Nodup) {p : Str × Json}
    (hp : p ∈ input) : input.lookup p.1 = some p.2 := by
  induction input with
  | nil => exact absurd hp List.not_mem_nil
  | cons q rest ih =>
      obtain ⟨k, v⟩ := q
      rw [List.map_cons, List.nodup_cons] at hnodup
      rw [List.lookup_cons]
      obtain rfl | hp := List.mem_cons.mp hp
      · rw [beq_self_eq_true]
      · have hmem : p.1 ∈ rest.map Prod.fst := List.mem_map_of_mem hp
        have hne : (p.1 == k) = false := by
          rw [beq_eq_false_iff_ne]
          rintro rfl
          exact hnodup.1 hmem
        rw [hne]
        exact ih hnodup.2 hp

theorem sameFields_self {input : Dict} (hnodup : (input.map Prod.fst).Nodup) :
    sameFields input input = true := by
  rw [sameFields, Bool.and_eq_true, List.all_eq_true]
  refine ⟨decide_eq_true rfl, fun p hp => ?_⟩
  rw [decide_eq_true_eq]
  exact lookup_of_nodup hnodup hp

theorem sameFields_map {input : Dict} (hnodup : (input.map Prod.fst).Nodup) {f : Json → Json} :
    sameFields (input.map fun p => (p.1, f p.2)) input = true ↔ ∀ p ∈ input, f p.2 = p.2 := by
  have hlength : decide ((input.map fun p => (p.1, f p.2)).length = input.length) = true :=
    decide_eq_true (List.length_map _)
  rw [sameFields, hlength, Bool.true_and, List.all_map, List.all_eq_true]
  refine forall₂_congr fun p hp => ?_
  rw [Function.comp_apply, decide_eq_true_eq, lookup_of_nodup hnodup hp, Option.some_inj]
  exact eq_comm

theorem map_eq_self_iff {input : Dict} {f : Json → Json} :
    (input.map fun p => (p.1, f p.2)) = input ↔ ∀ p ∈ input, f p.2 = p.2 := by
  conv_lhs => rw [← List.map_id input]
  rw [List.map_map, List.map_inj_left]
  refine forall₂_congr fun p _ => ?_
  simp [Prod.ext_iff]

theorem compactToolInput_of_not_marked {input : Dict} (hmarked : ¬ Marked runtime input)
    (hfinite : isFinite (.obj input) = true) (hnodup : (input.map Prod.fst).Nodup) :
    sameFields (compactToolInput runtime settings input) input = true ↔
      StaysWhole runtime settings input := by
  rw [Marked, not_or] at hmarked
  rw [compactToolInput, StaysWhole]
  dsimp only
  rw [if_neg hmarked.1, if_neg hmarked.2]
  split_ifs with hshort htiny hcompacted hraises hkeep
  · exact iff_of_true (sameFields_self hnodup) (.inl hshort)
  · exact iff_of_true (sameFields_self hnodup) (.inr (.inl htiny))
  · rw [sameFields_map hnodup, ← map_eq_self_iff]
    exact iff_of_false hcompacted fun h => by
      obtain h | h | h := h
      · exact hshort h
      · exact htiny h
      · exact hcompacted h.1
  · rw [hfinite] at hraises
    exact absurd hraises.2 (by simp)
  · have hsame := map_eq_self_iff.mp (not_not.mp hcompacted)
    exact iff_of_true (sameFields_self hnodup) (.inr (.inr ⟨hsame, .inl hkeep⟩))
  · have hsame := map_eq_self_iff.mp (not_not.mp hcompacted)
    constructor
    · exact fun h => .inr (.inr ⟨hsame, .inr h⟩)
    · rintro (h | h | ⟨-, h | h⟩)
      · exact absurd h hshort
      · exact absurd h htiny
      · exact absurd h hkeep
      · exact h

theorem marked_invalidProviderContextArguments : Marked runtime invalidProviderContextArguments := by
  left
  rw [hasProviderContextArgumentMarker]
  have hkey : invalidProviderContextArguments.get invalidProviderContextArgumentsKey = .bool true := by
    decide
  rw [hkey, isProviderContextMarkerValue, Bool.true_or]

theorem marked_inputStub (raw : Str) (value : Dict) :
    Marked runtime (inputStub runtime settings raw value) := by
  left
  have hkey : (inputStub runtime settings raw value).get "_opensquilla_compacted_tool_input" =
      .bool true := by
    rw [inputStub]
    split_ifs <;> rfl
  rw [hasProviderContextArgumentMarker, hasCompactedMarker, compactedToolArgumentMarkers,
    Bool.or_eq_true, List.any_eq_true]
  exact .inr ⟨_, List.mem_cons_of_mem _ List.mem_cons_self, by rw [hkey]; rfl⟩

theorem compactToolInput_cases (runtime : Runtime) (settings : Settings) (input : Dict) :
    compactToolInput runtime settings input = input ∨
      Marked runtime (compactToolInput runtime settings input) ∨
      compactToolInput runtime settings input = input.map fun p =>
        (p.1, mapStr (compactTailString settings runtime "tool_input".toList) p.2) := by
  rw [compactToolInput]
  dsimp only
  split_ifs
  · exact .inr (.inl marked_invalidProviderContextArguments)
  · exact .inr (.inl marked_invalidProviderContextArguments)
  · exact .inl rfl
  · exact .inl rfl
  · exact .inr (.inr rfl)
  · exact .inl rfl
  · exact .inl rfl
  · exact .inr (.inl (marked_inputStub _ _))

theorem compactToolInput_of_marked {input : Dict} (hmarked : Marked runtime input) :
    compactToolInput runtime settings input = invalidProviderContextArguments := by
  rw [compactToolInput]
  dsimp only
  obtain hmarker | hbegins := hmarked
  · rw [if_pos hmarker]
  · rw [if_pos hbegins, ite_self]

theorem compactToolInput_twice_ne (hworse : settings.neverWorse = true) {input : Dict}
    (hmarked : ¬ Marked runtime input) (hne : compactToolInput runtime settings input ≠ input) :
    compactToolInput runtime settings (compactToolInput runtime settings input) ≠ input := by
  intro heq
  have hnotMarked {d : Dict} (hd : Marked runtime d) : d ≠ input := fun h => hmarked (h ▸ hd)
  obtain hsame | hstub | hcompacted := compactToolInput_cases runtime settings input
  · exact hne hsame
  · rw [compactToolInput_of_marked hstub] at heq
    exact hnotMarked marked_invalidProviderContextArguments heq
  · obtain hsame | hstub | htwice :=
      compactToolInput_cases runtime settings (compactToolInput runtime settings input)
    · exact hne (hsame.symm.trans heq)
    · exact hnotMarked hstub heq
    · rw [heq] at htwice
      rw [hcompacted, List.map_map] at htwice
      apply hne
      rw [hcompacted, map_eq_self_iff]
      intro p hp
      have hback := List.map_inj_left.mp ((List.map_id input).trans htwice) p hp
      have hvalue : p.2 = mapStr (compactTailString settings runtime "tool_input".toList)
          (mapStr (compactTailString settings runtime "tool_input".toList) p.2) :=
        congrArg Prod.snd hback
      rw [mapStr_eq_self_iff]
      intro text htext
      by_contra hchanged
      rw [htext, mapStr, mapStr, Json.str.injEq] at hvalue
      exact shorten_shorten_ne hworse hchanged hvalue.symm

/-! ### The scrub pass on requests without markers -/

theorem mem_messageInputs {message input : Dict} : some input ∈ messageInputs message ↔
    ∃ block ∈ blocksOf (message.get "content"),
      hasType "tool_use" block = true ∧ (block.get "input").fields? = some input := by
  rw [messageInputs, contentInputs, List.mem_map]
  constructor
  · rintro ⟨value, hvalue, hinput⟩
    obtain ⟨block, hblock, hinput⟩ := Option.bind_eq_some_iff.mp hinput
    rw [blockInput] at hinput
    split_ifs at hinput with htype
    exact ⟨block, List.mem_filterMap.mpr ⟨value, hvalue, hblock⟩, htype, hinput⟩
  · rintro ⟨block, hblock, htype, hinput⟩
    obtain ⟨value, hvalue, hfields⟩ := List.mem_filterMap.mp hblock
    refine ⟨value, hvalue, ?_⟩
    rw [hfields, Option.bind_some, blockInput, if_pos htype, hinput]

theorem chatInput {payload : Dict} (hchat : ChatShaped payload) {i : Nat} {message input : Dict}
    (hmessage : messageAt payload i = some message) (hinput : some input ∈ messageInputs message) :
    isFinite (.obj input) = true ∧ (input.map Prod.fst).Nodup := by
  obtain ⟨block, hblock, htype, hinput⟩ := mem_messageInputs.mp hinput
  have hchatBlock := isChatBlock_iff.mp (chatBlock_of_mem (hchat.message hmessage) hblock)
  obtain ⟨-, input', hinput', hnodup, -⟩ := hchatBlock.2.1 htype
  rw [hinput, Option.some_inj] at hinput'
  subst hinput'
  refine ⟨?_, hnodup⟩
  have hfields {value : Json} {d : Dict} (hvalue : isFinite value = true)
      (hd : value.fields? = some d) : fieldsFinite d = true := by
    cases value <;> simp only [fields?, Option.some.injEq, reduceCtorEq] at hd
    subst hd
    exact hvalue
  have hitems {value : Json} (hvalue : isFinite value = true) :
      ∀ x ∈ value.items, isFinite x = true := by
    cases value with
    | arr xs => exact isFinite_of_mem hvalue
    | null => simp [items]
    | bool b => simp [items]
    | num n => simp [items]
    | str s => simp [items]
    | obj d => simp [items]
  rw [messageAt, Option.bind_eq_some_iff] at hmessage
  obtain ⟨value, hvalue, hmessage⟩ := hmessage
  have hmessageFinite := hfields
    (hitems (isFinite_get hchat.finite "messages") _ (List.mem_of_getElem? hvalue)) hmessage
  obtain ⟨value', hvalue', hblock⟩ := List.mem_filterMap.mp hblock
  have hblockFinite := hfields (hitems (isFinite_get hmessageFinite "content") _ hvalue') hblock
  exact hfields (isFinite_get hblockFinite "input") hinput

variable (runtime settings request)

def Unmarked (payload : Dict) : Prop :=
  ∀ i message, messageAt payload i = some message → hasRole "assistant" message = true →
    (∀ arguments ∈ messageArguments message, providerContextArgumentsJson runtime true arguments = none) ∧
      ∀ input, some input ∈ messageInputs message → ¬ Marked runtime input

instance (input : Dict) : Decidable (Marked runtime input) :=
  inferInstanceAs (Decidable (_ ∨ _))

instance (payload : Dict) : Decidable (Fits runtime request payload) :=
  decidable_of_iff ((projectProviderPayload runtime request payload).toOption.any BudgetProof.fits = true)
    (by
      rw [Fits, Option.any_eq_true]
      exact exists_congr fun proof => and_congr_left' toOption_eq_some)

def assistantMessages (payload : Dict) : List Dict :=
  ((messagesOf payload).filterMap fields?).filter (hasRole "assistant")

theorem mem_assistantMessages {payload message : Dict} : message ∈ assistantMessages payload ↔
    (∃ i, messageAt payload i = some message) ∧ hasRole "assistant" message = true := by
  rw [assistantMessages, List.mem_filter, List.mem_filterMap]
  refine and_congr_left' ⟨?_, ?_⟩
  · rintro ⟨value, hvalue, hfields⟩
    obtain ⟨i, hi, rfl⟩ := List.getElem_of_mem hvalue
    exact ⟨i, by rw [messageAt, List.getElem?_eq_getElem hi]; exact hfields⟩
  · rintro ⟨i, hmessage⟩
    obtain ⟨value, hvalue, hfields⟩ := Option.bind_eq_some_iff.mp hmessage
    exact ⟨value, List.mem_of_getElem? hvalue, hfields⟩

instance (payload : Dict) : Decidable (Unmarked runtime payload) :=
  decidable_of_iff (∀ message ∈ assistantMessages payload,
      (∀ arguments ∈ messageArguments message, providerContextArgumentsJson runtime true arguments = none) ∧
        ∀ input ∈ (messageInputs message).filterMap id, ¬ Marked runtime input)
    (by
      constructor
      · intro h i message hmessage hrole
        obtain ⟨harguments, hinputs⟩ := h message (mem_assistantMessages.mpr ⟨⟨i, hmessage⟩, hrole⟩)
        exact ⟨harguments, fun input hinput =>
          hinputs input (List.mem_filterMap.mpr ⟨_, hinput, rfl⟩)⟩
      · intro h message hmessage
        obtain ⟨⟨i, hmessage⟩, hrole⟩ := mem_assistantMessages.mp hmessage
        obtain ⟨harguments, hinputs⟩ := h i message hmessage hrole
        refine ⟨harguments, fun input hinput => ?_⟩
        obtain ⟨_, hmem, rfl⟩ := List.mem_filterMap.mp hinput
        exact hinputs input hmem)

def InputsStayWhole (payload : Dict) : Prop :=
  ∀ i message, messageAt payload i = some message → hasRole "assistant" message = true →
    ∀ input, some input ∈ messageInputs message → StaysWhole runtime settings input

variable {runtime settings request}

theorem scrub_eq_self {payload : Dict} (hchat : ChatShaped payload) (hunmarked : Unmarked runtime payload)
    (hwhole : InputsStayWhole runtime settings payload) :
    (scrubLeakedToolArgumentProjections runtime settings payload).1 = payload := by
  rw [scrubLeakedToolArgumentProjections]
  split_ifs with hchanged
  · exfalso
    rw [List.any_eq_true] at hchanged
    obtain ⟨value, hvalue, hchanged⟩ := hchanged
    rw [Option.any_eq_true] at hchanged
    obtain ⟨message, hfields, hchanged⟩ := hchanged
    obtain ⟨i, hi, hvalue⟩ := List.getElem_of_mem hvalue
    have hmessage : messageAt payload i = some message := by
      rw [messageAt, List.getElem?_eq_getElem hi, hvalue]
      exact hfields
    rw [scrubsMessage, Bool.and_eq_true, Bool.or_eq_true, List.any_eq_true, List.any_eq_true] at hchanged
    obtain ⟨hrole, hchanged⟩ := hchanged
    obtain ⟨harguments, hinputs⟩ := hunmarked i message hmessage hrole
    obtain ⟨arguments, hmem, hsome⟩ | ⟨block, hblock, hchanged⟩ := hchanged
    · rw [harguments arguments hmem] at hsome
      exact Bool.false_ne_true hsome
    · rw [Bool.and_eq_true, Option.any_eq_true] at hchanged
      obtain ⟨htype, input, hinput, hchanged⟩ := hchanged
      have hmem := mem_messageInputs.mpr ⟨block, hblock, htype, hinput⟩
      obtain ⟨hfinite, hnodup⟩ := chatInput hchat hmessage hmem
      have hsame := (compactToolInput_of_not_marked (hinputs input hmem) hfinite hnodup).mpr
        (hwhole i message hmessage hrole input hmem)
      rw [hsame] at hchanged
      exact Bool.false_ne_true hchanged
  · rfl

theorem tierPayload_ne (hworse : settings.neverWorse = true) {payload : Dict}
    (hchat : ChatShaped payload) (hunmarked : Unmarked runtime payload)
    (hcut : ¬ InputsStayWhole runtime settings payload) (tier : Nat) :
    tierPayload runtime settings request payload tier ≠ payload := by
  rw [InputsStayWhole] at hcut
  push Not at hcut
  obtain ⟨i, message, hmessage, hrole, input, hinput, hcut⟩ := hcut
  obtain ⟨hfinite, hnodup⟩ := chatInput hchat hmessage hinput
  have hmarked := (hunmarked i message hmessage hrole).2 input hinput
  have hchanged : ¬ sameFields (compactToolInput runtime settings input) input = true := fun h =>
    hcut ((compactToolInput_of_not_marked hmarked hfinite hnodup).mp h)
  have hne : compactToolInput runtime settings input ≠ input := fun h =>
    hchanged (by rw [h]; exact sameFields_self hnodup)
  have hscrubbed : scrubbedInput runtime settings input = compactToolInput runtime settings input :=
    if_neg hchanged
  obtain ⟨sent, h, hsent, hh, hinputs⟩ := exists_messageInputs_tierPayload runtime settings
    request tier hmessage
  rw [if_pos hrole] at hh
  intro heq
  rw [heq, hmessage, Option.some_inj] at hsent
  subst hsent
  obtain ⟨j, hj, hinput⟩ := List.getElem_of_mem hinput
  have hback : some input = some (h input) := by
    have hitem := congrArg (fun inputs => inputs[j]?) hinputs
    rw [List.getElem?_map, List.getElem?_eq_getElem hj, hinput] at hitem
    exact Option.some.inj hitem
  obtain rfl | ⟨rfl, -⟩ := hh
  · exact hne (hscrubbed.symm.trans (Option.some.inj hback).symm)
  · apply compactToolInput_twice_ne hworse hmarked hne
    rw [← hscrubbed]
    exact (Option.some.inj hback).symm

/-! ### The contract of a run -/

section

variable (runtime settings request)

def SendsWhatFits (payload : Dict) :
    EStateM.Result RequestError Objects (Nat × Option BudgetProof) → Prop
  | .ok (out, _) objects => ∃ sent, objects[out]? = some sent ∧ Fits runtime request sent
  | .error (.budgetExceeded _) _ =>
      ¬ Fits runtime request (tierPayload runtime settings request payload 4)
  | .error .notJson _ => False

def LeavesPayload (given : Nat) (payload : Dict) :
    EStateM.Result RequestError Objects (Nat × Option BudgetProof) → Prop
  | .ok _ objects => objects[given]? = some payload
  | .error _ objects => objects[given]? = some payload

def SendsFittingWhole (payload : Dict) :
    EStateM.Result RequestError Objects (Nat × Option BudgetProof) → Prop
  | .ok (out, _) objects =>
      Fits runtime request payload → Unmarked runtime payload → objects[out]? = some payload
  | .error _ _ => ¬ (Fits runtime request payload ∧ Unmarked runtime payload)

structure MeetsContract (given : Nat) (payload : Dict)
    (result : EStateM.Result RequestError Objects (Nat × Option BudgetProof)) : Prop where
  sends : SendsWhatFits runtime settings request payload result
  leaves : LeavesPayload given payload result
  whole : SendsFittingWhole runtime request payload result

end

theorem not_fits_of_refused {payload : Dict} (h : Refused runtime request payload) :
    ¬ Fits runtime request payload := by
  obtain ⟨proof, hproject, hfits⟩ := h
  rintro ⟨proof', hproject', hfits'⟩
  rw [hproject] at hproject'
  rw [Except.ok.inj hproject'] at hfits
  rw [hfits] at hfits'
  exact Bool.false_ne_true hfits'

theorem Settles.sent {tiers : Nat → Dict} {objects : Objects}
    {result : EStateM.Result RequestError Objects (Nat × Option BudgetProof)} {sent : Dict}
    (h : Settles runtime request tiers 0 objects result) (hsent : sentPayload result = some sent) :
    ∃ tier ≤ 4, sent = tiers tier ∧ Fits runtime request (tiers tier) ∧
      ∀ earlier < tier, ¬ Fits runtime request (tiers earlier) := by
  cases result with
  | error e later =>
      rw [sentPayload] at hsent
      exact nomatch hsent
  | ok value later =>
      obtain ⟨out, proof⟩ := value
      obtain ⟨-, tier, -, htier, hout, ⟨proof, -, hfits, -, hproject⟩, hearlier⟩ := h
      rw [sentPayload, hout, Option.some_inj] at hsent
      exact ⟨tier, htier, hsent.symm, ⟨proof.measured, hproject, hfits⟩, fun earlier hlt =>
        not_fits_of_refused (hearlier earlier (Nat.zero_le _) hlt)⟩

theorem sent_eq_of_budget_nonpos {objects : Objects} {given : Nat} {payload sent : Dict}
    (hgiven : objects[given]? = some payload) (hfinite : isFinite (.obj payload) = true)
    (hbudget : request.proofBudget ≤ 0)
    (hrun : sentPayload (proveOrCompactProviderPayload runtime settings request given objects) =
      some sent) : sent = payload := by
  rw [proveOrCompactProviderPayload, if_pos hbudget, run_bind (run_load hgiven), if_pos hfinite] at hrun
  exact Option.some.inj (hrun.symm.trans hgiven)

theorem settles_sound {payload : Dict} (hfinite : isFinite (.obj payload) = true) {given : Nat}
    {objects : Objects} (hgiven : objects[given]? = some payload)
    {result : EStateM.Result RequestError Objects (Nat × Option BudgetProof)}
    (hsettles : Settles runtime request (tierPayload runtime settings request payload) 0 objects result) :
    SendsWhatFits runtime settings request payload result ∧ LeavesPayload given payload result := by
  have hstays {later : Objects} (hbegins : objects <+: later) : later[given]? = some payload := by
    obtain ⟨copies, rfl⟩ := hbegins
    rwa [List.getElem?_append_left (List.getElem?_eq_some_iff.mp hgiven).1]
  match result, hsettles with
  | .ok (out, _) later, ⟨hbegins, tier, _, _, hout, ⟨sent, _, hfits, _, hproject⟩, _⟩ =>
      exact ⟨⟨_, hout, sent.measured, hproject, hfits⟩, hstays hbegins⟩
  | .error (.budgetExceeded _) later, ⟨hbegins, hall⟩ =>
      exact ⟨not_fits_of_refused (hall 4 (by omega) le_rfl), hstays hbegins⟩
  | .error .notJson later, ⟨_, tier, _, hbad⟩ =>
      rw [isFinite_tierPayload hfinite tier] at hbad
      exact absurd hbad (by simp)

/-- A run meets its contract when the scrub pass shortens no input of a request that fits and
carries no marker. While a shortened text may not grow it meets it only then. -/
theorem proveOrCompactProviderPayload_sound_iff {objects : Objects} {given : Nat} {payload : Dict}
    (hgiven : objects[given]? = some payload) (hchat : ChatShaped payload)
    (hbudget : 0 < request.proofBudget) (henvelope : request.envelope = chatRequestEnvelope) :
    let result := proveOrCompactProviderPayload runtime settings request given objects
    let holds := Fits runtime request payload → Unmarked runtime payload →
      InputsStayWhole runtime settings payload
    (holds → MeetsContract runtime settings request given payload result) ∧
      (settings.neverWorse = true →
        (MeetsContract runtime settings request given payload result ↔ holds)) := by
  intro result holds
  have hsettles : Settles runtime request (tierPayload runtime settings request payload) 0 objects
      result :=
    settles_proveOrCompactProviderPayload runtime settings hgiven hbudget (by rw [henvelope]; rfl)
  obtain ⟨hsends, hleaves⟩ := settles_sound hchat.finite hgiven hsettles
  have hmeets (hholds : holds) : MeetsContract runtime settings request given payload result := by
    refine ⟨hsends, hleaves, ?_⟩
    have hfirst (hfits : Fits runtime request payload) (hunmarked : Unmarked runtime payload) :
        tierPayload runtime settings request payload 0 = payload :=
      scrub_eq_self hchat hunmarked (hholds hfits hunmarked)
    match result, hsettles with
    | .ok (out, _) later, ⟨_, tier, _, _, hout, _, hearlier⟩ =>
        intro hfits hunmarked
        have hzero := hfirst hfits hunmarked
        cases tier with
        | zero => rwa [hzero] at hout
        | succ tier =>
            have hrefused := not_fits_of_refused (hearlier 0 le_rfl (by omega))
            rw [hzero] at hrefused
            exact absurd hfits hrefused
    | .error (.budgetExceeded _) later, ⟨_, hall⟩ =>
        rintro ⟨hfits, hunmarked⟩
        have hrefused := not_fits_of_refused (hall 0 le_rfl (by omega))
        rw [hfirst hfits hunmarked] at hrefused
        exact hrefused hfits
    | .error .notJson later, ⟨_, tier, _, hbad⟩ =>
        rw [isFinite_tierPayload hchat.finite tier] at hbad
        exact absurd hbad (by simp)
  refine ⟨hmeets, fun hworse => ⟨fun hmeet hfits hunmarked => ?_, hmeets⟩⟩
  have hwhole := hmeet.whole
  by_contra hcut
  match result, hsettles, hwhole with
  | .ok (out, _) later, ⟨_, tier, _, _, hout, _, _⟩, hwhole =>
      have hsame := hwhole hfits hunmarked
      rw [hout, Option.some_inj] at hsame
      exact tierPayload_ne hworse hchat hunmarked hcut tier hsame
  | .error _ later, _, hwhole => exact hwhole ⟨hfits, hunmarked⟩

/-- One tool was used, with a text of its own as its input, and answered. -/
def toolUsed (text : Str) : Dict :=
  fieldsOf [("messages", .arr [
    .obj (fieldsOf [("role", .str "user".toList), ("content", .str "hi".toList)]),
    .obj (fieldsOf [("role", .str "assistant".toList), ("content", .arr [
      .obj (fieldsOf [("type", .str "tool_use".toList), ("id", .str "t1".toList),
        ("name", .str "write".toList), ("input", .obj (fieldsOf [("text", .str text)]))])])]),
    .obj (fieldsOf [("role", .str "user".toList), ("content", .arr [
      .obj (fieldsOf [("type", .str "tool_result".toList), ("tool_use_id", .str "t1".toList),
        ("content", .str "ok".toList)])])])])]

def thousandDigest : String := "44f8354494a5ba03ba1792a8d3e9c534c47a9181980fde7a3f44b06ef2ae7c7f"

/-- A run for a short input. -/
theorem proveOrCompactProviderPayload_sound_short :
    let runtime := plainRuntime ""
    let payload := toolUsed "short".toList
    let result := proveOrCompactProviderPayload runtime .default (chatRequest 100000) 0 [payload]
    let holds := Fits runtime (chatRequest 100000) payload → Unmarked runtime payload →
      InputsStayWhole runtime .default payload
    (holds → MeetsContract runtime .default (chatRequest 100000) 0 payload result) ∧
      (Settings.default.neverWorse = true →
        (MeetsContract runtime .default (chatRequest 100000) 0 payload result ↔ holds)) :=
  proveOrCompactProviderPayload_sound_iff rfl (by decide +kernel) (by decide) rfl

def sendsOther (payload : Dict) : EStateM.Result RequestError Objects (Nat × Option BudgetProof) → Bool
  | .ok (out, _) objects => decide (objects[out]? ≠ some payload)
  | .error _ _ => false

theorem not_meetsContract_of_sendsOther {given : Nat} {payload : Dict}
    {result : EStateM.Result RequestError Objects (Nat × Option BudgetProof)}
    (hfits : Fits runtime request payload) (hunmarked : Unmarked runtime payload)
    (hother : sendsOther payload result = true) :
    ¬ MeetsContract runtime settings request given payload result := by
  intro hmeets
  have hwhole := hmeets.whole
  match result, hother, hwhole with
  | .ok _ _, hother, hwhole => exact of_decide_eq_true hother (hwhole hfits hunmarked)
  | .error _ _, hother, _ => exact Bool.false_ne_true hother

/-- A request that fits a large budget many times over is sent with its input shortened. -/
theorem fitting_request_sent_shortened :
    let runtime := plainRuntime thousandDigest
    let payload := toolUsed (List.replicate 1000 'x')
    ChatShaped payload ∧ Fits runtime (chatRequest 100000) payload ∧ Unmarked runtime payload ∧
      ¬ MeetsContract runtime .default (chatRequest 100000) 0 payload
        (proveOrCompactProviderPayload runtime .default (chatRequest 100000) 0 [payload]) := by
  have hfits : Fits (plainRuntime thousandDigest) (chatRequest 100000)
      (toolUsed (List.replicate 1000 'x')) := by decide +kernel
  have hunmarked : Unmarked (plainRuntime thousandDigest) (toolUsed (List.replicate 1000 'x')) := by
    decide +kernel
  refine ⟨by decide +kernel, hfits, hunmarked, ?_⟩
  exact not_meetsContract_of_sendsOther hfits hunmarked (by decide +kernel)

end OpenStarry.RequestProof
