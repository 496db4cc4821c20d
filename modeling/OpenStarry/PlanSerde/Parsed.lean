import OpenStarry.Lib.Outcome
import OpenStarry.PlanSerde.Serde

/-!
# What a parsed plan satisfies

The texts by language have distinct keys that are not blank, those of prompts are not blank either,
bounds are integers or missing, and a mode is never empty.
-/

namespace OpenStarry.PlanSerde

open Lib
open Lib.Text

/-! ### Facts about plans -/

def NoBlank (texts : List (Str × Str)) : Prop := ∀ p ∈ texts, strip p.2 ≠ []

/-- Texts by language: distinct keys, none of them blank. -/
structure Localized (texts : List (Str × Str)) : Prop where
  nodup : (texts.map Prod.fst).Nodup
  key : ∀ key ∈ texts.map Prod.fst, strip key ≠ []

def IsBound (value : PyValue) : Prop := value = .none ∨ (asInt value).isSome = true

structure ParsedField (field : ClarifyField) : Prop where
  localized : Localized field.promptByLanguage
  noBlank : NoBlank field.promptByLanguage
  min : IsBound field.min
  max : IsBound field.max
  maxChars : IsBound field.maxChars

structure ParsedConfig (config : ClarifyStepConfig) : Prop where
  mode : config.mode ≠ []
  fields : ∀ field ∈ config.fields, ParsedField field
  timeoutHours : ∃ hours, asInt config.timeoutHours = some hours ∧ hours ≠ 0
  localized : Localized config.introByLanguage
  noBlank : NoBlank config.introByLanguage

structure ParsedStep (step : MetaStep) : Prop where
  localized : Localized step.labelByLanguage
  clarify : ∀ config ∈ step.clarifyConfig, ParsedConfig config

structure ParsedPlan (plan : MetaPlan) : Prop where
  finalTextMode : plan.finalTextMode ≠ []
  steps : ∀ step ∈ plan.steps, ParsedStep step

/-! ### Localized texts -/

def languages : List Str := ["zh".toList, "en".toList]

theorem localized_of_sublist {texts : List (Str × Str)} {keys : List Str}
    (h : (texts.map Prod.fst).Sublist keys) (hnodup : keys.Nodup)
    (hkeys : ∀ key ∈ keys, strip key ≠ []) : Localized texts :=
  ⟨h.nodup hnodup, fun key hkey => hkeys key (h.subset hkey)⟩

theorem localized_languages {texts : List (Str × Str)}
    (h : (texts.map Prod.fst).Sublist languages) : Localized texts :=
  localized_of_sublist h (by decide) (by decide)

theorem noBlank_nil : NoBlank [] := fun _ hp => absurd hp List.not_mem_nil

theorem noBlank_two {key key' left right : Str} (hleft : strip left ≠ []) (hright : strip right ≠ []) :
    NoBlank [(key, left), (key', right)] := by
  intro p hp
  simp only [List.mem_cons, List.not_mem_nil, or_false] at hp
  rcases hp with rfl | rfl
  · exact hleft
  · exact hright

theorem splitBilingualText_spec (text : Str) :
    Localized (splitBilingualText text) ∧ NoBlank (splitBilingualText text) := by
  have hnil : Localized [] ∧ NoBlank [] := ⟨localized_languages (List.nil_sublist _), noBlank_nil⟩
  rw [splitBilingualText]
  split
  · exact hnil
  · split
    · exact hnil
    · rename_i left right hparts
      split_ifs with hblank hzh hen
      · exact hnil
      · rw [not_or, ← strip_strip left, ← strip_strip right] at hblank
        exact ⟨localized_languages (List.Sublist.refl _), noBlank_two hblank.1 hblank.2⟩
      · rw [not_or, ← strip_strip left, ← strip_strip right] at hblank
        have hkeys : Localized [("en".toList, strip left), ("zh".toList, strip right)] :=
          localized_of_sublist (List.Sublist.refl languages.reverse) (by decide) (by decide)
        exact ⟨hkeys, noBlank_two hblank.1 hblank.2⟩
      · exact hnil

def IsLanguageText (language : String) (found : Option (Str × Str)) : Prop :=
  ∀ p ∈ found, p.1 = language.toList ∧ strip p.2 ≠ []

theorem localized_filterMap {zh en : Option (Str × Str)} (hzh : IsLanguageText "zh" zh)
    (hen : IsLanguageText "en" en) :
    Localized ([zh, en].filterMap id) ∧ NoBlank ([zh, en].filterMap id) := by
  constructor
  · apply localized_languages
    cases zh with
    | none =>
        cases en with
        | none => exact List.nil_sublist _
        | some en =>
            have hkey := (hen en rfl).1
            simp [hkey, languages]
    | some zh =>
        have hkey := (hzh zh rfl).1
        cases en with
        | none => simp [hkey, languages]
        | some en =>
            have hkey' := (hen en rfl).1
            simp [hkey, hkey', languages]
  · intro p hp
    simp only [List.mem_filterMap, List.mem_cons, List.not_mem_nil, or_false, id_eq] at hp
    obtain ⟨found, rfl | rfl, hfound⟩ := hp
    · exact (hzh p hfound).2
    · exact (hen p hfound).2

def localizedText (env : Runtime) (raw : Entries) (stem : String) (error : String → ParseError)
    (language : String) : Except ParseError (Option (Str × Str)) :=
  match getOr raw (stem ++ language) (.str []) with
  | .str s => .ok (if strip s = [] then none else some (language.toList, s))
  | value => if truthy env value then .error (error language) else .ok none

theorem localizedTexts_eq (env : Runtime) (raw : Entries) (stem : String)
    (error : String → ParseError) :
    localizedTexts env raw stem error =
      (["zh", "en"].mapM (localizedText env raw stem error) >>= fun texts =>
        pure (texts.filterMap id)) := rfl

theorem localizedTexts_spec {env : Runtime} {raw : Entries} {stem : String}
    {error : String → ParseError} {texts : List (Str × Str)}
    (h : localizedTexts env raw stem error = .ok texts) : Localized texts ∧ NoBlank texts := by
  rw [localizedTexts_eq, bind_eq_ok] at h
  obtain ⟨found, hfound, htexts⟩ := h
  rw [pure_eq_ok] at htexts
  have hlanguage : ∀ {language : String} {result : Option (Str × Str)},
      localizedText env raw stem error language = .ok result →
      IsLanguageText language result := by
    intro language result hresult p hp
    unfold localizedText at hresult
    split at hresult
    · have heq := Except.ok.inj hresult
      split at heq
      · rw [← heq] at hp
        exact absurd hp (Option.not_mem_none _)
      · rename_i hblank
        rw [← heq, Option.mem_some_iff] at hp
        rw [← hp]
        exact ⟨rfl, hblank⟩
    · split at hresult
      · exact absurd hresult (by simp)
      · rw [← Except.ok.inj hresult] at hp
        exact absurd hp (Option.not_mem_none _)
  rw [List.mapM_cons, bind_eq_ok] at hfound
  obtain ⟨zh, hzh, hrest⟩ := hfound
  rw [bind_eq_ok] at hrest
  obtain ⟨rest, hrest, hfound⟩ := hrest
  rw [List.mapM_cons, bind_eq_ok] at hrest
  obtain ⟨en, hen, hrest⟩ := hrest
  rw [← htexts, ← pure_eq_ok.mp hfound]
  have hrest : [en] = rest := pure_eq_ok.mp hrest
  rw [← hrest]
  exact localized_filterMap (hlanguage hzh) (hlanguage hen)

theorem localizedOr_spec {texts : List (Str × Str)} (h : Localized texts ∧ NoBlank texts)
    (text : Str) : Localized (localizedOr texts text) ∧ NoBlank (localizedOr texts text) := by
  rw [localizedOr]
  split
  · exact splitBilingualText_spec text
  · exact h

theorem localized_labelByLanguage (label : Str) (raw : Entries) :
    Localized (labelByLanguage label raw) := by
  have hlanguage : ∀ language : String, IsLanguageText language
      ((nonBlank (get raw ("label_" ++ language))).map fun s => (language.toList, strip s)) := by
    intro language p hp
    obtain ⟨s, hs, rfl⟩ := Option.mem_map.mp hp
    refine ⟨rfl, ?_⟩
    rw [strip_strip]
    intro hblank
    rw [nonBlank.eq_def] at hs
    split at hs
    · rename_i found hfound
      split at hs
      · exact Option.not_mem_none _ hs
      · rename_i hne
        rw [Option.mem_some_iff] at hs
        exact hne (hs ▸ hblank)
    · exact Option.not_mem_none _ hs
  have hfound := localized_filterMap (hlanguage "zh") (hlanguage "en")
  rw [labelByLanguage]
  split
  · exact hfound.1
  · rename_i hnone
    apply localized_languages
    simp only [List.filterMap_cons, List.filterMap_nil] at hnone ⊢
    cases hzh : nonBlank (get raw ("label_" ++ "zh")) with
    | none =>
        cases hen : nonBlank (get raw ("label_" ++ "en")) with
        | none =>
            simp only [Option.map_none, List.nil_append]
            exact List.Sublist.cons _ (List.Sublist.refl _)
        | some en =>
            rw [hzh, hen] at hnone
            simp at hnone
    | some zh =>
        cases hen : nonBlank (get raw ("label_" ++ "en")) with
        | none =>
            simp only [Option.map_none, Option.map_some]
            exact List.Sublist.refl _
        | some en =>
            rw [hzh, hen] at hnone
            simp at hnone

/-! ### Fields -/

theorem isBound_of_parseFieldBounds {stepId name type : Str} {index : Nat} {raw : Entries}
    {bounds : PyValue × PyValue} (h : parseFieldBounds stepId index name type raw = .ok bounds) :
    IsBound bounds.1 ∧ IsBound bounds.2 := by
  have hbound : ∀ {value : PyValue}, ¬(!isNone value && (asInt value).isNone) = true →
      IsBound value := by
    intro value hvalue
    cases value with
    | none => exact Or.inl rfl
    | bool b => exact Or.inr rfl
    | int number => exact Or.inr rfl
    | _ => exact absurd rfl hvalue
  have hmissing : ∀ {value : PyValue}, isNone value = true → IsBound value := by
    intro value hvalue
    cases value with
    | none => exact Or.inl rfl
    | _ => exact Bool.noConfusion hvalue
  rw [parseFieldBounds] at h
  split at h
  · split at h
    · exact absurd h (by simp)
    · rename_i hmin
      split at h
      · exact absurd h (by simp)
      · rename_i hmax
        have hpair : bounds = (get raw "min", get raw "max") := by
          split at h
          · split at h
            · exact absurd h (by simp)
            · exact (Except.ok.inj h).symm
          · exact (Except.ok.inj h).symm
        rw [hpair]
        exact ⟨hbound hmin, hbound hmax⟩
  · split at h
    · exact absurd h (by simp)
    · rename_i hnone
      rw [Bool.or_eq_true, not_or, Bool.not_eq_true', Bool.not_eq_true', Bool.not_eq_false,
        Bool.not_eq_false] at hnone
      rw [← Except.ok.inj h]
      exact ⟨hmissing hnone.1, hmissing hnone.2⟩

theorem isBound_of_parseFieldMaxChars {stepId name type : Str} {index : Nat} {raw : Entries}
    {maxChars : PyValue} (h : parseFieldMaxChars stepId index name type raw = .ok maxChars) :
    IsBound maxChars := by
  rw [parseFieldMaxChars] at h
  split at h
  · rename_i hnone
    rw [← Except.ok.inj h]
    cases hvalue : get raw "max_chars" with
    | none => exact Or.inl rfl
    | _ =>
        rw [hvalue] at hnone
        exact Bool.noConfusion hnone
  · split at h
    · split at h
      · rename_i hcount
        rw [← Except.ok.inj h]
        cases hvalue : asInt (get raw "max_chars") with
        | none =>
            rw [hvalue] at hcount
            exact Bool.noConfusion hcount
        | some count => exact Or.inr (by rw [hvalue]; rfl)
      · exact absurd h (by simp)
    · exact absurd h (by simp)

theorem parsedField_of_parse {env : Runtime} {stepId : Str} {index : Nat} {raw : PyValue}
    {field : ClarifyField} (h : parseClarifyField stepId index env raw = .ok field) :
    ParsedField field := by
  cases raw with
  | dict raw =>
      rw [parseClarifyField] at h
      simp only [bind_eq_ok] at h
      obtain ⟨name, -, type, -, required, -, choices, -, bounds, hbounds, maxChars, hmaxChars, -, -,
        prompt, -, texts, htexts, hfield⟩ := h
      rw [← pure_eq_ok.mp hfield]
      have hspec := localizedOr_spec (localizedTexts_spec htexts) prompt
      obtain ⟨hmin, hmax⟩ := isBound_of_parseFieldBounds hbounds
      exact ⟨hspec.1, hspec.2, hmin, hmax, isBound_of_parseFieldMaxChars hmaxChars⟩
  | _ => exact absurd h (by simp [parseClarifyField])

theorem parsedField_additionalNotes : ParsedField additionalNotesField where
  localized := localized_languages (List.Sublist.refl _)
  noBlank := noBlank_two (by decide) (by decide)
  min := Or.inl rfl
  max := Or.inl rfl
  maxChars := Or.inr rfl

theorem parsedField_of_parseFields {env : Runtime} {stepId : Str} {seenNames : List Str} {index : Nat}
    {raws : List PyValue} {fields : List ClarifyField}
    (h : parseClarifyFields env stepId seenNames index raws = .ok fields) :
    ∀ field ∈ fields, ParsedField field := by
  induction raws generalizing seenNames index fields with
  | nil =>
      rw [parseClarifyFields] at h
      rw [← Except.ok.inj h]
      exact fun _ hfield => absurd hfield List.not_mem_nil
  | cons raw rest ih =>
      rw [parseClarifyFields, bind_eq_ok] at h
      obtain ⟨field, hfield, h⟩ := h
      split at h
      · exact absurd h (by simp)
      · rw [bind_eq_ok] at h
        obtain ⟨others, hothers, h⟩ := h
        rw [← pure_eq_ok.mp h]
        exact List.forall_mem_cons.mpr ⟨parsedField_of_parse hfield, ih hothers⟩

theorem parsedField_of_completeFields {stepId mode : Str} {fields complete : List ClarifyField}
    (h : completeFields stepId mode fields = .ok complete)
    (hfields : ∀ field ∈ fields, ParsedField field) : ∀ field ∈ complete, ParsedField field := by
  rw [completeFields, ite_error_eq_ok] at h
  rw [← Except.ok.inj h.2]
  split
  · exact hfields
  · intro field hfield
    rcases List.mem_append.mp hfield with hfield | hfield
    · exact hfields field hfield
    · rw [List.mem_singleton.mp hfield]
      exact parsedField_additionalNotes

/-! ### Forms, steps and plans -/

theorem mode_of_parse {stepId mode : Str} {raw : Entries}
    (h : parseClarifyMode stepId raw = .ok mode) : mode ≠ [] := by
  rw [parseClarifyMode] at h
  split at h
  · split at h
    · rename_i hmode
      rw [← Except.ok.inj h]
      rcases hmode with rfl | rfl <;> decide
    · exact absurd h (by simp)
  · exact absurd h (by simp)

theorem timeoutHours_of_parse {stepId : Str} {raw : Entries} {value : PyValue}
    (h : parseTimeoutHours stepId raw = .ok value) :
    ∃ hours, asInt value = some hours ∧ hours ≠ 0 := by
  rw [parseTimeoutHours] at h
  split at h
  · rename_i hrange
    rw [← Except.ok.inj h]
    cases hhours : asInt (getOr raw "timeout_hours" (.int 24)) with
    | none =>
        rw [hhours] at hrange
        exact Bool.noConfusion hrange
    | some hours =>
        rw [hhours, Option.any_some, Bool.and_eq_true, decide_eq_true_eq] at hrange
        exact ⟨hours, rfl, by omega⟩
  · exact absurd h (by simp)

theorem parsedConfig_of_parse {env : Runtime} {stepId : Str} {raw : PyValue}
    {config : ClarifyStepConfig} (h : parseClarifyConfig env stepId raw = .ok config) :
    ParsedConfig config := by
  cases raw with
  | dict raw =>
      rw [parseClarifyConfig] at h
      simp only [bind_eq_ok] at h
      obtain ⟨mode, hmode, given, hgiven, fields, hfields, skipIf, -, keywords, -, hours, hhours,
        intro, -, texts, htexts, nlExtract, -, tier, -, hconfig⟩ := h
      rw [← pure_eq_ok.mp hconfig]
      have hspec := localizedOr_spec (localizedTexts_spec htexts) intro
      have hparsed : ∀ field ∈ given, ParsedField field := by
        rw [parseGivenFields] at hgiven
        split at hgiven
        · exact parsedField_of_parseFields hgiven
        · exact absurd hgiven (by simp)
      exact
        { mode := mode_of_parse hmode
          fields := parsedField_of_completeFields hfields hparsed
          timeoutHours := timeoutHours_of_parse hhours
          localized := hspec.1
          noBlank := hspec.2 }
  | _ => exact absurd h (by simp [parseClarifyConfig])

theorem parsedStep_of_parse {env : Runtime} {seenIds : List Str} {index : Nat} {raw : PyValue}
    {step : MetaStep} (h : parseStep env seenIds index raw = .ok step) : ParsedStep step := by
  cases raw with
  | dict raw =>
      rw [parseStep] at h
      simp only [bind_eq_ok] at h
      obtain ⟨stepId, -, kind, -, skill, -, dependsOn, -, withArgs, -, items, -, route, -, when, -,
        choices, -, tool, -, allowlist, -, onFailure, -, sideEffect, -, clarify, hclarify, label, -,
        emits, -, hstep⟩ := h
      rw [← pure_eq_ok.mp hstep]
      refine ⟨localized_labelByLanguage label raw, fun config hconfig => ?_⟩
      have hconfig : clarify = some config := hconfig
      rw [parseClarify] at hclarify
      split at hclarify
      · rw [map_eq_ok] at hclarify
        obtain ⟨parsed, hparsed, heq⟩ := hclarify
        rw [hconfig, Option.some_inj] at heq
        exact heq ▸ parsedConfig_of_parse hparsed
      · split at hclarify
        · rw [hconfig] at hclarify
          exact absurd (Except.ok.inj hclarify) (by simp)
        · exact absurd hclarify (by simp)
  | _ => exact absurd h (by simp [parseStep])

theorem parsedStep_of_parseSteps {env : Runtime} {seenIds : List Str} {index : Nat}
    {raws : List PyValue} {steps : List MetaStep} (h : parseSteps env seenIds index raws = .ok steps) :
    ∀ step ∈ steps, ParsedStep step := by
  induction raws generalizing seenIds index steps with
  | nil =>
      rw [parseSteps] at h
      rw [← Except.ok.inj h]
      exact fun _ hstep => absurd hstep List.not_mem_nil
  | cons raw rest ih =>
      rw [parseSteps, bind_eq_ok] at h
      obtain ⟨step, hstep, h⟩ := h
      rw [bind_eq_ok] at h
      obtain ⟨others, hothers, h⟩ := h
      rw [← pure_eq_ok.mp h]
      exact List.forall_mem_cons.mpr ⟨parsedStep_of_parse hstep, ih hothers⟩

theorem planFinalTextMode_ne_nil (env : Runtime) (spec : SkillSpec) :
    planFinalTextMode env spec ≠ [] := by
  rw [planFinalTextMode]
  split
  · decide
  · assumption

theorem parsedPlan_of_parse {env : Runtime} {spec : SkillSpec} {plan : MetaPlan}
    (h : parseMetaPlan env spec = .ok (some plan)) : ParsedPlan plan := by
  rw [parseMetaPlan] at h
  split at h
  · exact absurd (Except.ok.inj h) (by simp)
  · split at h
    · split at h
      · rw [bind_eq_ok] at h
        obtain ⟨steps, hsteps, h⟩ := h
        rw [bind_eq_ok] at h
        obtain ⟨-, -, h⟩ := h
        rw [← Option.some.inj (pure_eq_ok.mp h)]
        exact ⟨planFinalTextMode_ne_nil env spec, parsedStep_of_parseSteps hsteps⟩
      · exact absurd h (by simp)
    · exact absurd h (by simp)

end OpenStarry.PlanSerde
