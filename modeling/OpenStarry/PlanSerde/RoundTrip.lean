import OpenStarry.PlanSerde.Parsed

/-!
# What a persisted plan is resumed as

A plan comes back as it was just when the fields that the parser takes over in any false form are of
the kind that reading gives back: a text, and an integer that is no truth value. A blank label by
language is lost.
-/

namespace OpenStarry.PlanSerde

open Lib
open Lib.Text
open PyValue (record Survives IsJson)

/-! ### The plans in question -/

/-- The free-form mappings and the defaults of a plan are values of JSON. -/
structure MetaPlan.HasJsonFields (plan : MetaPlan) : Prop where
  withArgs : ∀ step ∈ plan.steps, (PyValue.dict step.withArgs).IsJson
  toolArgs : ∀ step ∈ plan.steps, (PyValue.dict step.toolArgs).IsJson
  default : ∀ step ∈ plan.steps, ∀ config ∈ step.clarifyConfig, ∀ field ∈ config.fields,
    field.default.IsJson
  requestTemplate : (PyValue.dict plan.requestTemplate).IsJson
  outputContract : (PyValue.dict plan.outputContract).IsJson
  evalPrompts : ∀ prompt ∈ plan.evalPrompts, (PyValue.dict prompt).IsJson

def IsText (value : PyValue) : Prop := ∃ s, value = .str s

/-- The fields of a form that reading turns into texts and an integer are such already. -/
structure ClarifyStepConfig.IsCanonical (config : ClarifyStepConfig) : Prop where
  skipIf : IsText config.skipIf
  nlExtractTier : IsText config.nlExtractTier
  timeoutHours : ∃ hours, config.timeoutHours = .int hours

def MetaPlan.IsCanonical (plan : MetaPlan) : Prop :=
  ∀ step ∈ plan.steps, NoBlank step.labelByLanguage ∧
    ∀ config ∈ step.clarifyConfig, config.IsCanonical

/-! ### Reading what was written -/

section

variable {reader : Reader} {entries : Entries} {key : String}

theorem orElse_str (env : Runtime) (s : Str) : orElse env (.str s) (.str []) = .str s := by
  rw [orElse, truthy]
  by_cases h : s = []
  · simp [h]
  · simp [h]

theorem orElse_list (env : Runtime) (items : List PyValue) :
    orElse env (.list items) (.list []) = .list items := by
  cases items <;> rfl

theorem orElse_dict (env : Runtime) (fields : Entries) :
    orElse env (.dict fields) (.dict []) = .dict fields := by
  cases fields <;> rfl

theorem textOf_eq (s : Str) (h : get entries key = .str s) : textOf reader entries key "" = s := by
  rw [textOf, h]
  have hempty : "".toList = [] := rfl
  rw [hempty, orElse_str]
  rfl

theorem textOf_eq_of_ne (s : Str) {default : String} (h : get entries key = .str s) (hne : s ≠ []) :
    textOf reader entries key default = s := by
  have htrue : truthy reader.toRuntime (.str s) = true := decide_eq_true hne
  rw [textOf, h, orElse, if_pos htrue]
  rfl

theorem textsIn_eq (texts : List Str) (h : get entries key = textList texts) :
    textsIn reader entries key = .ok texts := by
  rw [textsIn, h, textList, orElse_list, itemsOf, Except.map, List.map_map]
  exact congrArg Except.ok (List.map_id' texts)

theorem mappingIn_eq (fields : Entries) (h : get entries key = .dict fields) :
    mappingIn reader entries key = .ok fields := by
  rw [mappingIn, h, orElse_dict, entriesOf]

theorem foldl_assign_eq {texts front : List (Str × Str)}
    (hnodup : ((front ++ texts).map Prod.fst).Nodup) :
    texts.foldl (fun d p => Keyed.assign Prod.fst p d) front = front ++ texts := by
  induction texts generalizing front with
  | nil => exact (List.append_nil front).symm
  | cons p rest ih =>
      have hfresh : ∀ q ∈ front, q.1 ≠ p.1 := by
        intro q hq heq
        rw [List.map_append, List.map_cons, List.nodup_middle, List.nodup_cons] at hnodup
        apply hnodup.1
        rw [← heq]
        exact List.mem_append_left _ (List.mem_map_of_mem hq)
      rw [List.foldl_cons, Keyed.assign_of_fresh hfresh, ih (by simpa using hnodup)]
      simp

theorem textDictIn_eq (texts : List (Str × Str)) (h : get entries key = textDict texts)
    (hlocalized : Localized texts) (hnoBlank : NoBlank texts) :
    textDictIn reader entries key = .ok texts := by
  have hpairs : mappingIn reader entries key =
      .ok (texts.map fun p => (PyValue.str p.1, PyValue.str p.2)) := by
    apply mappingIn_eq
    rw [h, textDict, record, List.map_map]
    rfl
  rw [textDictIn, hpairs, Except.map, List.map_map]
  congr 1
  have hself : (texts.map ((fun p : PyValue × PyValue =>
      (text reader.toRuntime p.1, text reader.toRuntime p.2)) ∘
        fun p => (PyValue.str p.1, PyValue.str p.2))) = texts := List.map_id' texts
  rw [hself, List.filter_eq_self.mpr]
  · exact foldl_assign_eq hlocalized.nodup
  · intro p hp
    rw [decide_eq_true_eq]
    exact ⟨hlocalized.key p.1 (List.mem_map_of_mem hp), hnoBlank p hp⟩

end

/-! ### Forms -/

section

variable (reader : Reader)

theorem clarifyField_round_trip {field : ClarifyField} (h : ParsedField field) :
    clarifyFieldFromJsonable reader (clarifyFieldToJsonable field) = .ok field := by
  rw [clarifyFieldToJsonable, record, clarifyFieldFromJsonable,
    textDictIn_eq field.promptByLanguage rfl h.localized h.noBlank, ok_bind,
    textsIn_eq field.choices rfl, ok_bind, textOf_eq field.prompt rfl]
  rfl

theorem clarifyFields_round_trip {fields : List ClarifyField} (h : ∀ field ∈ fields, ParsedField field) :
    (fields.map clarifyFieldToJsonable).mapM (clarifyFieldFromJsonable reader) = .ok fields := by
  rw [mapM_eq_ok_iff_forall₂, List.forall₂_map_left_iff, List.forall₂_same]
  exact fun field hfield => clarifyField_round_trip reader (h field hfield)

theorem clarifyConfig_round_trip {config : ClarifyStepConfig} (h : ParsedConfig config)
    (hcanonical : config.IsCanonical) :
    clarifyConfigFromJsonable reader (clarifyConfigToJsonable (some config)) =
      .ok (some config) := by
  obtain ⟨skipIf, hskipIf⟩ := hcanonical.skipIf
  obtain ⟨tier, htier⟩ := hcanonical.nlExtractTier
  obtain ⟨hours, hhours⟩ := hcanonical.timeoutHours
  obtain ⟨count, hcount, hne⟩ := h.timeoutHours
  rw [hhours, asInt, Option.some_inj] at hcount
  have htrue : truthy reader.toRuntime (.int hours) = true := by
    rw [hcount]
    exact decide_eq_true hne
  rw [clarifyConfigToJsonable, record, clarifyConfigFromJsonable, hskipIf, htier, hhours]
  generalize hraw : List.map _ _ = raw
  have hfields : get raw "fields" = .list (config.fields.map clarifyFieldToJsonable) := by
    rw [← hraw]
    rfl
  have htimeout : getOr raw "timeout_hours" (.int 24) = .int hours := by
    rw [← hraw]
    rfl
  have hextract : get raw "nl_extract" = .bool config.nlExtract := by
    rw [← hraw]
    rfl
  rw [hfields, orElse_list, itemsOf, ok_bind, clarifyFields_round_trip reader h.fields, ok_bind,
    textsIn_eq config.cancelKeywords (by rw [← hraw]; rfl), ok_bind, htimeout, orElse, if_pos htrue,
    intOfValue, asInt, ok_bind,
    textDictIn_eq config.introByLanguage (by rw [← hraw]; rfl) h.localized h.noBlank, ok_bind,
    textOf_eq_of_ne config.mode (by rw [← hraw]; rfl) h.mode,
    textOf_eq skipIf (by rw [← hraw]; rfl), textOf_eq config.intro (by rw [← hraw]; rfl),
    textOf_eq tier (by rw [← hraw]; rfl), hextract, ← hskipIf, ← htier, ← hhours]
  rfl

/-! ### Steps and plans -/

theorem step_round_trip (index : Nat) {step : MetaStep} (h : ParsedStep step)
    (hlabels : NoBlank step.labelByLanguage)
    (hcanonical : ∀ config ∈ step.clarifyConfig, config.IsCanonical) :
    stepFromJsonable reader index (stepToJsonable step) = .ok step := by
  have hclarify : clarifyConfigFromJsonable reader (clarifyConfigToJsonable step.clarifyConfig) =
      .ok step.clarifyConfig := by
    cases hconfig : step.clarifyConfig with
    | none => rfl
    | some config =>
        exact clarifyConfig_round_trip reader (h.clarify config hconfig) (hcanonical config hconfig)
  rw [stepToJsonable, record, stepFromJsonable]
  generalize hraw : List.map _ _ = raw
  have hroute : routeFrom reader index raw = .ok step.route := by
    have hget : get raw "route" = .list (step.route.map routeCaseToJsonable) := by
      rw [← hraw]
      rfl
    have hcases : (step.route.map routeCaseToJsonable).filterMap (routeCaseFromJsonable reader) =
        step.route := by
      rw [List.filterMap_map]
      exact List.filterMap_some
    rw [routeFrom, hget, orElse_list]
    exact congrArg Except.ok hcases
  have hconfig : get raw "clarify_config" = clarifyConfigToJsonable step.clarifyConfig := by
    rw [← hraw]
    rfl
  have hid : getOr raw "id" (.str []) = .str step.id := by
    rw [← hraw]
    rfl
  have hskill : getOr raw "skill" (.str []) = .str step.skill := by
    rw [← hraw]
    rfl
  have hkind : getOr raw "kind" (.str "agent".toList) = .str step.kind := by
    rw [← hraw]
    rfl
  have hemits : get raw "progress_emits" = .bool step.progressEmits := by
    rw [← hraw]
    rfl
  rw [hroute, ok_bind, mappingIn_eq step.withArgs (by rw [← hraw]; rfl), ok_bind,
    textsIn_eq step.dependsOn (by rw [← hraw]; rfl), ok_bind,
    textsIn_eq step.outputChoices (by rw [← hraw]; rfl), ok_bind,
    mappingIn_eq step.toolArgs (by rw [← hraw]; rfl), ok_bind,
    textsIn_eq step.toolAllowlist (by rw [← hraw]; rfl), ok_bind, hconfig, hclarify, ok_bind,
    textDictIn_eq step.labelByLanguage (by rw [← hraw]; rfl) h.localized hlabels, ok_bind, hid, hskill,
    hkind, hemits, textOf_eq step.when (by rw [← hraw]; rfl),
    textOf_eq step.tool (by rw [← hraw]; rfl), textOf_eq step.onFailure (by rw [← hraw]; rfl),
    textOf_eq step.sideEffect (by rw [← hraw]; rfl), textOf_eq step.label (by rw [← hraw]; rfl)]
  rfl

theorem steps_round_trip {steps : List MetaStep} (h : ∀ step ∈ steps, ParsedStep step)
    (hcanonical : ∀ step ∈ steps, NoBlank step.labelByLanguage ∧
      ∀ config ∈ step.clarifyConfig, config.IsCanonical) (index : Nat) :
    stepsFromJsonable reader index (steps.map stepToJsonable) = .ok steps := by
  induction steps generalizing index with
  | nil => rfl
  | cons step rest ih =>
      rw [List.forall_mem_cons] at h hcanonical
      rw [List.map_cons, stepsFromJsonable,
        step_round_trip reader index h.1 hcanonical.1.1 hcanonical.1.2, ok_bind, ih h.2 hcanonical.2,
        ok_bind]
      rfl

theorem planDict_envelope (fields : List (Str × PyValue)) :
    planDict [(.str "v".toList, .int planSerdeVersion), (.str "plan".toList, record fields)] =
      .ok (fields.map fun p => (.str p.1, p.2)) := rfl

theorem evalPrompts_round_trip (prompts : List Entries) :
    mappingsOf (.list (prompts.map .dict)) = prompts := by
  rw [mappingsOf, List.filterMap_map]
  exact List.filterMap_some

theorem listTexts_textList (texts : List Str) : listTexts reader (textList texts) = texts := by
  rw [textList, listTexts, List.map_map]
  exact List.map_id' texts

theorem fromJsonable_toJsonable {plan : MetaPlan} (h : ParsedPlan plan)
    (hcanonical : plan.IsCanonical) : fromJsonable reader (toJsonable plan) = .ok plan := by
  have hpriority : intOfValue reader (orElse reader.toRuntime (.int plan.priority) (.int 0)) =
      .ok plan.priority := by
    rw [orElse, truthy]
    split
    · rfl
    · rename_i hzero
      rw [decide_eq_true_eq, not_not] at hzero
      rw [hzero]
      rfl
  rw [toJsonable, record, List.map_cons, List.map_cons, List.map_nil, fromJsonable, planToJsonable,
    planDict_envelope, ok_bind]
  generalize hraw : List.map _ _ = raw
  have hsteps : stepsFrom reader raw = .ok plan.steps := by
    have hget : getOr raw "steps" (.list []) = .list (plan.steps.map stepToJsonable) := by
      rw [← hraw]
      rfl
    rw [stepsFrom, hget]
    exact steps_round_trip reader h.steps hcanonical 0
  have hname : getOr raw "name" (.str []) = .str plan.name := by
    rw [← hraw]
    rfl
  have hget : get raw "priority" = .int plan.priority := by
    rw [← hraw]
    rfl
  have htemplate : get raw "request_template" = .dict plan.requestTemplate := by
    rw [← hraw]
    rfl
  have hcontract : get raw "output_contract" = .dict plan.outputContract := by
    rw [← hraw]
    rfl
  have hprompts : get raw "eval_prompts" = .list (plan.evalPrompts.map .dict) := by
    rw [← hraw]
    rfl
  have hkeys : get raw "preference_keys" = textList plan.preferenceKeys := by
    rw [← hraw]
    rfl
  have htags : get raw "policy_tags" = textList plan.policyTags := by
    rw [← hraw]
    rfl
  rw [hsteps, ok_bind, textsIn_eq plan.triggers (by rw [← hraw]; rfl), ok_bind, hget, hpriority,
    ok_bind, hname, textOf_eq plan.fallbackBody (by rw [← hraw]; rfl),
    textOf_eq_of_ne plan.finalTextMode (by rw [← hraw]; rfl) h.finalTextMode, htemplate, hcontract,
    hprompts, evalPrompts_round_trip, hkeys, listTexts_textList, htags, listTexts_textList]
  rfl

end

/-! ### The text of a plan -/

theorem survives_textList (texts : List Str) : (textList texts).Survives := by
  apply PyValue.survives_list
  intro x hx
  obtain ⟨s, -, rfl⟩ := List.mem_map.mp hx
  exact PyValue.survives_str s

theorem survives_textDict {texts : List (Str × Str)} (h : Localized texts) :
    (textDict texts).Survives := by
  apply PyValue.survives_record
  · rw [List.map_map]
    exact h.nodup
  · intro p hp
    obtain ⟨q, -, rfl⟩ := List.mem_map.mp hp
    exact PyValue.survives_str q.2

theorem survives_of_isBound {value : PyValue} (h : IsBound value) : value.Survives := by
  rcases h with rfl | h
  · exact PyValue.survives_none
  · cases value with
    | bool b => exact PyValue.survives_bool b
    | int number => exact PyValue.survives_int number
    | _ => exact Bool.noConfusion h

theorem survives_record_of_keys (keys : List String) {fields : List (Str × PyValue)}
    (hkeys : fields.map Prod.fst = keys.map String.toList) (hnodup : keys.Nodup)
    (h : ∀ p ∈ fields, p.2.Survives) : (record fields).Survives := by
  apply PyValue.survives_record
  · rw [hkeys]
    exact hnodup.map fun _ _ heq => String.toList_inj.mp heq
  · exact h

theorem survives_clarifyField {field : ClarifyField} (h : ParsedField field)
    (hdefault : field.default.IsJson) : (clarifyFieldToJsonable field).Survives := by
  apply survives_record_of_keys ["name", "type", "required", "prompt", "prompt_by_language",
    "choices", "default", "min", "max", "max_chars"] rfl (by decide)
  simp only [List.forall_mem_cons]
  refine ⟨PyValue.survives_str _, PyValue.survives_str _, PyValue.survives_bool _,
    PyValue.survives_str _, survives_textDict h.localized, survives_textList _,
    PyValue.survives_of_isJson hdefault, survives_of_isBound h.min, survives_of_isBound h.max,
    survives_of_isBound h.maxChars, ?_⟩
  exact fun p hp => absurd hp List.not_mem_nil

theorem survives_clarifyConfig {config : ClarifyStepConfig} (h : ParsedConfig config)
    (hcanonical : config.IsCanonical) (hdefaults : ∀ field ∈ config.fields, field.default.IsJson) :
    (clarifyConfigToJsonable (some config)).Survives := by
  obtain ⟨skipIf, hskipIf⟩ := hcanonical.skipIf
  obtain ⟨tier, htier⟩ := hcanonical.nlExtractTier
  obtain ⟨hours, hhours⟩ := hcanonical.timeoutHours
  have hfields : (PyValue.list (config.fields.map clarifyFieldToJsonable)).Survives := by
    apply PyValue.survives_list
    intro value hvalue
    obtain ⟨field, hfield, rfl⟩ := List.mem_map.mp hvalue
    exact survives_clarifyField (h.fields field hfield) (hdefaults field hfield)
  apply survives_record_of_keys ["mode", "fields", "skip_if", "cancel_keywords", "timeout_hours",
    "intro", "intro_by_language", "nl_extract", "nl_extract_tier"] rfl (by decide)
  simp only [List.forall_mem_cons, hskipIf, htier, hhours]
  refine ⟨PyValue.survives_str _, hfields, PyValue.survives_str _, survives_textList _,
    PyValue.survives_int _, PyValue.survives_str _, survives_textDict h.localized,
    PyValue.survives_bool _, PyValue.survives_str _, ?_⟩
  exact fun p hp => absurd hp List.not_mem_nil

theorem survives_routeCase (case : RouteCase) : (routeCaseToJsonable case).Survives := by
  apply survives_record_of_keys ["when", "to"] rfl (by decide)
  simp only [List.forall_mem_cons]
  refine ⟨PyValue.survives_str _, PyValue.survives_str _, ?_⟩
  exact fun p hp => absurd hp List.not_mem_nil

theorem survives_step {plan : MetaPlan} {step : MetaStep} (hstep : step ∈ plan.steps)
    (h : ParsedStep step) (hjson : plan.HasJsonFields)
    (hcanonical : ∀ config ∈ step.clarifyConfig, config.IsCanonical) :
    (stepToJsonable step).Survives := by
  have hroute : (PyValue.list (step.route.map routeCaseToJsonable)).Survives := by
    apply PyValue.survives_list
    intro value hvalue
    obtain ⟨case, -, rfl⟩ := List.mem_map.mp hvalue
    exact survives_routeCase case
  have hclarify : (clarifyConfigToJsonable step.clarifyConfig).Survives := by
    cases hconfig : step.clarifyConfig with
    | none => exact PyValue.survives_none
    | some config =>
        exact survives_clarifyConfig (h.clarify config hconfig) (hcanonical config hconfig)
          (hjson.default step hstep config hconfig)
  apply survives_record_of_keys ["id", "skill", "kind", "with_args", "depends_on", "when", "route",
    "output_choices", "tool", "tool_args", "tool_allowlist", "on_failure", "side_effect",
    "clarify_config", "label", "label_by_language", "progress_emits"] rfl (by decide)
  simp only [List.forall_mem_cons]
  refine ⟨PyValue.survives_str _, PyValue.survives_str _, PyValue.survives_str _,
    PyValue.survives_of_isJson (hjson.withArgs step hstep), survives_textList _,
    PyValue.survives_str _, hroute, survives_textList _, PyValue.survives_str _,
    PyValue.survives_of_isJson (hjson.toolArgs step hstep), survives_textList _,
    PyValue.survives_str _, PyValue.survives_str _, hclarify, PyValue.survives_str _,
    survives_textDict h.localized, PyValue.survives_bool _, ?_⟩
  exact fun p hp => absurd hp List.not_mem_nil

theorem survives_plan {plan : MetaPlan} (h : ParsedPlan plan) (hjson : plan.HasJsonFields)
    (hcanonical : plan.IsCanonical) : (toJsonable plan).Survives := by
  have hsteps : (PyValue.list (plan.steps.map stepToJsonable)).Survives := by
    apply PyValue.survives_list
    intro value hvalue
    obtain ⟨step, hstep, rfl⟩ := List.mem_map.mp hvalue
    exact survives_step hstep (h.steps step hstep) hjson (hcanonical step hstep).2
  have hprompts : (PyValue.list (plan.evalPrompts.map .dict)).Survives := by
    apply PyValue.survives_list
    intro value hvalue
    obtain ⟨prompt, hprompt, rfl⟩ := List.mem_map.mp hvalue
    exact PyValue.survives_of_isJson (hjson.evalPrompts prompt hprompt)
  have hplan : (planToJsonable plan).Survives := by
    apply survives_record_of_keys ["name", "triggers", "priority", "fallback_body",
      "final_text_mode", "request_template", "output_contract", "eval_prompts", "preference_keys",
      "policy_tags", "steps"] rfl (by decide)
    simp only [List.forall_mem_cons]
    refine ⟨PyValue.survives_str _, survives_textList _, PyValue.survives_int _,
      PyValue.survives_str _, PyValue.survives_str _,
      PyValue.survives_of_isJson hjson.requestTemplate,
      PyValue.survives_of_isJson hjson.outputContract, hprompts, survives_textList _,
      survives_textList _, hsteps, ?_⟩
    exact fun p hp => absurd hp List.not_mem_nil
  apply survives_record_of_keys ["v", "plan"] rfl (by decide)
  simp only [List.forall_mem_cons]
  refine ⟨PyValue.survives_int _, hplan, ?_⟩
  exact fun p hp => absurd hp List.not_mem_nil

/-! ### What reading gives back -/

section

variable {reader : Reader}

theorem noBlank_of_textDictIn {entries : Entries} {key : String} {texts : List (Str × Str)}
    (h : textDictIn reader entries key = .ok texts) : NoBlank texts := by
  rw [textDictIn, map_eq_ok] at h
  obtain ⟨pairs, -, rfl⟩ := h
  intro p hp
  rcases Keyed.mem_of_mem_foldl_assign hp with hp | hp
  · exact (of_decide_eq_true (List.mem_filter.mp hp).2).2
  · exact absurd hp List.not_mem_nil

theorem isCanonical_of_clarifyConfigFromJsonable {value : PyValue} {config : ClarifyStepConfig}
    (h : clarifyConfigFromJsonable reader value = .ok (some config)) : config.IsCanonical := by
  cases value with
  | dict raw =>
      rw [clarifyConfigFromJsonable] at h
      simp only [bind_eq_ok] at h
      obtain ⟨fieldsRaw, -, fields, -, keywords, -, hours, -, texts, -, hconfig⟩ := h
      rw [← Option.some.inj (pure_eq_ok.mp hconfig)]
      exact ⟨⟨_, rfl⟩, ⟨_, rfl⟩, ⟨_, rfl⟩⟩
  | none => exact absurd (Except.ok.inj h) (by simp)
  | _ => exact absurd h (by simp [clarifyConfigFromJsonable])

theorem stepFromJsonable_spec {index : Nat} {value : PyValue} {step : MetaStep}
    (h : stepFromJsonable reader index value = .ok step) :
    NoBlank step.labelByLanguage ∧ ∀ config ∈ step.clarifyConfig, config.IsCanonical := by
  cases value with
  | dict raw =>
      rw [stepFromJsonable] at h
      simp only [bind_eq_ok] at h
      obtain ⟨route, -, withArgs, -, dependsOn, -, choices, -, toolArgs, -, allowlist, -, clarify,
        hclarify, labels, hlabels, hstep⟩ := h
      rw [← pure_eq_ok.mp hstep]
      refine ⟨noBlank_of_textDictIn hlabels, fun config hconfig => ?_⟩
      have hconfig : clarify = some config := hconfig
      exact isCanonical_of_clarifyConfigFromJsonable (hconfig ▸ hclarify)
  | _ => exact absurd h (by simp [stepFromJsonable])

theorem stepsFromJsonable_spec {index : Nat} {values : List PyValue} {steps : List MetaStep}
    (h : stepsFromJsonable reader index values = .ok steps) :
    ∀ step ∈ steps, NoBlank step.labelByLanguage ∧
      ∀ config ∈ step.clarifyConfig, config.IsCanonical := by
  induction values generalizing index steps with
  | nil =>
      rw [stepsFromJsonable] at h
      rw [← Except.ok.inj h]
      exact fun _ hstep => absurd hstep List.not_mem_nil
  | cons value rest ih =>
      rw [stepsFromJsonable, bind_eq_ok] at h
      obtain ⟨step, hstep, h⟩ := h
      rw [bind_eq_ok] at h
      obtain ⟨others, hothers, h⟩ := h
      rw [← pure_eq_ok.mp h]
      exact List.forall_mem_cons.mpr ⟨stepFromJsonable_spec hstep, ih hothers⟩

theorem isCanonical_of_fromJsonable {value : PyValue} {plan : MetaPlan}
    (h : fromJsonable reader value = .ok plan) : plan.IsCanonical := by
  cases value with
  | dict payload =>
      rw [fromJsonable] at h
      simp only [bind_eq_ok] at h
      obtain ⟨dict, -, steps, hsteps, triggers, -, priority, -, hplan⟩ := h
      rw [← pure_eq_ok.mp hplan]
      rw [stepsFrom] at hsteps
      split at hsteps
      · exact stepsFromJsonable_spec hsteps
      · exact absurd hsteps (by simp)
  | _ => exact absurd h (by simp [fromJsonable])

end

/-! ### Persisting and resuming -/

theorem persisted_eq {reader : Reader} {plan : MetaPlan} (h : ParsedPlan plan)
    (hjson : plan.HasJsonFields) (hcanonical : plan.IsCanonical) :
    persisted reader plan = some plan := by
  rw [persisted, PyValue.reload_eq (survives_plan h hjson hcanonical), Option.bind_some,
    fromJsonable_toJsonable reader h hcanonical]
  rfl

/-- A parsed plan comes back from its JSON form, with its digest, just when it is canonical. -/
theorem persisted_eq_iff {reader : Reader} (sha256 : Str → Str) {spec : SkillSpec} {plan : MetaPlan}
    (hparsed : parseMetaPlan reader.toRuntime spec = .ok (some plan)) (hjson : plan.HasJsonFields) :
    (persisted reader plan = some plan ∧
      (persisted reader plan).bind (planDigest sha256) = planDigest sha256 plan) ↔
      plan.IsCanonical := by
  constructor
  · intro h
    rw [persisted] at h
    obtain ⟨payload, -, hread⟩ := Option.bind_eq_some_iff.mp h.1
    exact isCanonical_of_fromJsonable (toOption_eq_some.mp hread)
  · intro hcanonical
    have hback : persisted reader plan = some plan :=
      persisted_eq (parsedPlan_of_parse hparsed) hjson hcanonical
    exact ⟨hback, by rw [hback, Option.bind_some]⟩

/-! ### A plan of one question -/

def plainReader : Reader where
  repr := fun _ => []
  isTrue := fun _ => true
  lower := List.map Char.toLower
  title := id
  compiles := fun _ => true
  strip_title := fun _ => Iff.rfl
  items := fun _ => none
  pairs := fun _ => none
  number := fun _ => none

/-- The skill that asks for a topic, with this value for `skip_if`. -/
def askSpec (skipIf : PyValue) : SkillSpec where
  name := "brief".toList
  kind := "meta".toList
  triggers := .list [.str "brief".toList]
  content := []
  compositionRaw := record
    [("steps".toList, .list [record
      [("id".toList, .str "ask".toList),
        ("kind".toList, .str "user_input".toList),
        ("label".toList, .str "Ask".toList),
        ("clarify".toList, record
          [("fields".toList, .list [record
            [("name".toList, .str "topic".toList), ("type".toList, .str "string".toList)]]),
            ("skip_if".toList, skipIf)])]])]

def askPlan (skipIf : PyValue) : MetaPlan where
  name := "brief".toList
  triggers := ["brief".toList]
  priority := 0
  steps :=
    [{ id := "ask".toList
       skill := "ask".toList
       kind := "user_input".toList
       clarifyConfig := some
         { mode := "form".toList
           fields := [{ name := "topic".toList, type := "string".toList }, additionalNotesField]
           skipIf }
       label := "Ask".toList
       labelByLanguage := [("en".toList, "Ask".toList)] }]

theorem isJson_emptyDict : (PyValue.dict []).IsJson := ⟨.obj [], ⟨List.nodup_nil, trivial⟩, rfl, rfl⟩

theorem hasJsonFields_askPlan (skipIf : PyValue) : (askPlan skipIf).HasJsonFields where
  withArgs := fun _ hstep => List.mem_singleton.mp hstep ▸ isJson_emptyDict
  toolArgs := fun _ hstep => List.mem_singleton.mp hstep ▸ isJson_emptyDict
  default := by
    intro step hstep config hconfig field hfield
    rw [List.mem_singleton.mp hstep] at hconfig
    rw [← Option.some.inj hconfig] at hfield
    have hdefault : field.default = .none := by
      rcases List.mem_pair.mp hfield with rfl | rfl <;> rfl
    exact ⟨.null, trivial, rfl, hdefault.symm⟩
  requestTemplate := isJson_emptyDict
  outputContract := isJson_emptyDict
  evalPrompts := fun _ hprompt => absurd hprompt List.not_mem_nil

theorem isCanonical_askPlan (s : Str) : (askPlan (.str s)).IsCanonical := by
  intro step hstep
  rw [List.mem_singleton.mp hstep]
  refine ⟨?_, fun config hconfig => ?_⟩
  · intro p hp
    rw [List.mem_singleton.mp hp]
    decide
  · rw [← Option.some.inj hconfig]
    exact ⟨⟨s, rfl⟩, ⟨[], rfl⟩, ⟨24, rfl⟩⟩

theorem persisted_eq_iff_without_skipIf :
    parseMetaPlan plainReader.toRuntime (askSpec (.str [])) = .ok (some (askPlan (.str []))) ∧
      (askPlan (.str [])).HasJsonFields ∧
      persisted plainReader (askPlan (.str [])) = some (askPlan (.str [])) ∧
      (persisted plainReader (askPlan (.str []))).bind (planDigest id) =
        planDigest id (askPlan (.str [])) := by
  have hparsed :
      parseMetaPlan plainReader.toRuntime (askSpec (.str [])) = .ok (some (askPlan (.str []))) := rfl
  have hjson := hasJsonFields_askPlan (.str [])
  exact ⟨hparsed, hjson, (persisted_eq_iff id hparsed hjson).mpr (isCanonical_askPlan [])⟩

/-- A null `skip_if` is taken over by the parser and comes back as an empty text. -/
theorem persisted_ne_of_null_skipIf :
    ¬∀ (reader : Reader) (sha256 : Str → Str) (spec : SkillSpec) (plan : MetaPlan),
      parseMetaPlan reader.toRuntime spec = .ok (some plan) → plan.HasJsonFields →
        persisted reader plan = some plan ∧
          (persisted reader plan).bind (planDigest sha256) = planDigest sha256 plan := by
  intro h
  have hback := (h plainReader id (askSpec .none) (askPlan .none) rfl (hasJsonFields_askPlan _)).1
  rw [persisted] at hback
  obtain ⟨payload, -, hread⟩ := Option.bind_eq_some_iff.mp hback
  have hcanonical := isCanonical_of_fromJsonable (toOption_eq_some.mp hread)
  obtain ⟨s, hs⟩ := ((hcanonical _ (List.mem_singleton.mpr rfl)).2 _ rfl).skipIf
  exact absurd hs (by simp)

end OpenStarry.PlanSerde
