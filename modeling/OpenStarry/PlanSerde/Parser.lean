import OpenStarry.PlanSerde.Composition

/-!
# The parser of compositions

`parse_meta_plan` with every check, in the source's order.
-/

namespace OpenStarry.PlanSerde

open Lib
open Lib.Text

/-! ### Clarify forms -/

def isLowerLetter (c : Char) : Bool := 'a' ≤ c && c ≤ 'z'

def isFieldWord : Str → Bool
  | [] => false
  | c :: rest =>
      isLowerLetter c && rest.all (fun c => isLowerLetter c || c.isDigit || c == '_') &&
        rest.length ≤ 31

/-- `^[a-z][a-z0-9_]{0,31}$`, where `$` also stands before a line end at the end. -/
def isFieldName (name : Str) : Bool :=
  isFieldWord name || (name.getLast? == some '\n' && isFieldWord name.dropLast)

def clarifyTypes : List Str := ["string", "enum", "int", "bool"].map String.toList

def additionalNotesField : ClarifyField where
  name := "additional_notes".toList
  type := "string".toList
  prompt := "其他可能有用的备注、限制或背景 / Additional notes, constraints, or context".toList
  promptByLanguage :=
    [("zh".toList, "其他可能有用的备注、限制或背景".toList),
      ("en".toList, "Additional notes, constraints, or context".toList)]
  maxChars := .int 2000

section

variable (stepId : Str) (index : Nat)

def parseFieldType (raw : Entries) : Except ParseError Str :=
  match get raw "type" with
  | .str type => if type ∈ clarifyTypes then .ok type else .error (.fieldType stepId index)
  | .list _ | .dict _ => .error .unhashable
  | _ => .error (.fieldType stepId index)

def nonBlankTexts (error : Nat → ParseError) : Nat → List PyValue → Except ParseError (List Str)
  | _, [] => .ok []
  | position, item :: rest =>
      match nonBlank item with
      | none => .error (error position)
      | some s => (nonBlankTexts error (position + 1) rest).map (s :: ·)

def parseFieldChoices (name type : Str) (raw : Entries) : Except ParseError (List Str) :=
  if type = "enum".toList then
    match getOr raw "choices" (.list []) with
    | .list (item :: items) => do
        let choices ← nonBlankTexts (.fieldChoice stepId index) 0 (item :: items)
        if choices.Nodup then pure choices else .error (.fieldChoicesNotUnique stepId index name)
    | _ => .error (.fieldEnumChoices stepId index name)
  else
    let choices := getOr raw "choices" (.list [])
    if isNone choices || isEmptyList choices then .ok []
    else .error (.fieldChoicesOnlyEnum stepId index name)

/-- The lower and the upper bound as they are given. -/
def parseFieldBounds (name type : Str) (raw : Entries) : Except ParseError (PyValue × PyValue) :=
  let min := get raw "min"
  let max := get raw "max"
  if type = "int".toList then
    if !isNone min && (asInt min).isNone then .error (.fieldMin stepId index name)
    else if !isNone max && (asInt max).isNone then .error (.fieldMax stepId index name)
    else
      match asInt min, asInt max with
      | some low, some high =>
          if high < low then .error (.fieldMinAboveMax stepId index name) else .ok (min, max)
      | _, _ => .ok (min, max)
  else if !isNone min || !isNone max then .error (.fieldBoundsOnlyInt stepId index name)
  else .ok (min, max)

def parseFieldMaxChars (name type : Str) (raw : Entries) : Except ParseError PyValue :=
  let maxChars := get raw "max_chars"
  if isNone maxChars then .ok maxChars
  else if type = "string".toList then
    if (asInt maxChars).any fun count => 1 ≤ count && count ≤ 4000 then .ok maxChars
    else .error (.fieldMaxChars stepId index name)
  else .error (.fieldMaxCharsOnlyString stepId index name)

def checkIntDefault (name : Str) (min max default : PyValue) : Except ParseError Unit :=
  match default with
  | .int value =>
      if (asInt min).any fun low => value < low then .error (.fieldDefaultBelowMin stepId index name)
      else if (asInt max).any fun high => high < value then
        .error (.fieldDefaultAboveMax stepId index name)
      else .ok ()
  | _ => .error (.fieldDefaultNotInt stepId index name)

def checkStringDefault (name : Str) (maxChars default : PyValue) : Except ParseError Unit :=
  match default with
  | .str s =>
      if (asInt maxChars).any fun most => most < (s.length : Int) then
        .error (.fieldDefaultTooLong stepId index name)
      else .ok ()
  | _ => .error (.fieldDefaultNotString stepId index name)

def checkFieldDefault (name type : Str) (choices : List Str) (min max maxChars default : PyValue) :
    Except ParseError Unit :=
  if isNone default then .ok ()
  else if type = "enum".toList then
    match default with
    | .str s =>
        if s ∈ choices then .ok () else .error (.fieldDefaultNotChoice stepId index name)
    | _ => .error (.fieldDefaultNotChoice stepId index name)
  else if type = "int".toList then checkIntDefault stepId index name min max default
  else if type = "bool".toList then
    match default with
    | .bool _ => .ok ()
    | _ => .error (.fieldDefaultNotBool stepId index name)
  else checkStringDefault stepId index name maxChars default

def parseFieldName (raw : Entries) : Except ParseError Str :=
  match get raw "name" with
  | .str name => if isFieldName name then .ok name else .error (.fieldName stepId index)
  | _ => .error (.fieldName stepId index)

def parseFieldRequired (name : Str) (raw : Entries) : Except ParseError Bool :=
  match getOr raw "required" (.bool false) with
  | .bool required =>
      if required && !isNone (get raw "default") then
        .error (.fieldRequiredDefault stepId index name)
      else .ok required
  | _ => .error (.fieldRequired stepId index name)

def parseFieldPrompt (name : Str) (raw : Entries) : Except ParseError Str :=
  match getOr raw "prompt" (.str []) with
  | .str prompt => .ok prompt
  | _ => .error (.fieldPrompt stepId index name)

def parseClarifyField (env : Runtime) : PyValue → Except ParseError ClarifyField
  | .dict raw => do
      let name ← parseFieldName stepId index raw
      let type ← parseFieldType stepId index raw
      let required ← parseFieldRequired stepId index name raw
      let default := get raw "default"
      let choices ← parseFieldChoices stepId index name type raw
      let (min, max) ← parseFieldBounds stepId index name type raw
      let maxChars ← parseFieldMaxChars stepId index name type raw
      checkFieldDefault stepId index name type choices min max maxChars default
      let prompt ← parseFieldPrompt stepId index name raw
      let texts ← localizedTexts env raw "prompt_" (.fieldPromptLanguage stepId index name)
      pure { name, type, required, prompt, promptByLanguage := localizedOr texts prompt
             choices, default, min, max, maxChars }
  | _ => .error (.fieldNotMapping stepId index)

end

section

variable (env : Runtime) (stepId : Str)

def parseClarifyFields : List Str → Nat → List PyValue → Except ParseError (List ClarifyField)
  | _, _, [] => .ok []
  | seenNames, index, raw :: rest => do
      let field ← parseClarifyField stepId index env raw
      if field.name ∈ seenNames then .error (.clarifyDuplicateName stepId field.name)
      else do
        let fields ← parseClarifyFields (field.name :: seenNames) (index + 1) rest
        pure (field :: fields)

def parseGivenFields (raw : Entries) : Except ParseError (List ClarifyField) :=
  match get raw "fields" with
  | .list (first :: rest) => parseClarifyFields env stepId [] 0 (first :: rest)
  | _ => .error (.clarifyFields stepId)

def completeFields (mode : Str) (fields : List ClarifyField) :
    Except ParseError (List ClarifyField) :=
  let fields :=
    if additionalNotesField.name ∈ fields.map (·.name) then fields else fields ++ [additionalNotesField]
  let most := if mode = "chat".toList then 5 else 13
  if most < fields.length then .error (.clarifyTooManyFields stepId fields.length most)
  else .ok fields

def parseClarifyMode (raw : Entries) : Except ParseError Str :=
  match getOr raw "mode" (.str "form".toList) with
  | .str mode =>
      if mode = "form".toList ∨ mode = "chat".toList then .ok mode else .error (.clarifyMode stepId)
  | _ => .error (.clarifyMode stepId)

def parseSkipIf (raw : Entries) : Except ParseError PyValue :=
  let skipIf := getOr raw "skip_if" (.str [])
  if truthy env skipIf then
    match skipIf with
    | .str expression =>
        if env.compiles expression then .ok skipIf else .error (.clarifySkipIfNotCompiled stepId)
    | _ => .error (.clarifySkipIfNotString stepId)
  else .ok skipIf

def parseCancelKeywords (raw : Entries) : Except ParseError (List Str) :=
  let keywords := getOr raw "cancel_keywords" (.list [])
  if truthy env keywords then
    match keywords with
    | .list items => do
        let texts ← nonBlankTexts (fun _ => .clarifyCancelKeywords stepId) 0 items
        pure (texts.map fun s => env.lower (strip s))
    | _ => .error (.clarifyCancelKeywords stepId)
  else
    -- an empty text, list or dict has no items; `None`, `False` and zero cannot be gone through
    match keywords with
    | .none | .bool _ | .int _ | .float _ => .error .notIterable
    | _ => .ok []

def parseTimeoutHours (raw : Entries) : Except ParseError PyValue :=
  let hours := getOr raw "timeout_hours" (.int 24)
  if (asInt hours).any fun count => 1 ≤ count && count ≤ 168 then .ok hours
  else .error (.clarifyTimeout stepId)

def parseIntro (raw : Entries) : Except ParseError Str :=
  match getOr raw "intro" (.str []) with
  | .str intro => .ok intro
  | _ => .error (.clarifyIntro stepId)

def parseNlExtract (raw : Entries) : Except ParseError Bool :=
  match getOr raw "nl_extract" (.bool false) with
  | .bool extract => .ok extract
  | _ => .error (.clarifyNlExtract stepId)

def parseNlExtractTier (nlExtract : Bool) (raw : Entries) : Except ParseError PyValue :=
  let tier := getOr raw "nl_extract_tier" (.str [])
  match tier with
  | .str _ => .ok (if nlExtract then tier else .str [])
  | _ =>
      if truthy env tier then .error (.clarifyTier stepId)
      else .ok (if nlExtract then tier else .str [])

def parseClarifyConfig : PyValue → Except ParseError ClarifyStepConfig
  | .dict raw => do
      let mode ← parseClarifyMode stepId raw
      let given ← parseGivenFields env stepId raw
      let fields ← completeFields stepId mode given
      let skipIf ← parseSkipIf env stepId raw
      let cancelKeywords ← parseCancelKeywords env stepId raw
      let timeoutHours ← parseTimeoutHours stepId raw
      let intro ← parseIntro stepId raw
      let texts ← localizedTexts env raw "intro_" (.clarifyIntroLanguage stepId)
      let nlExtract ← parseNlExtract stepId raw
      let nlExtractTier ← parseNlExtractTier env stepId nlExtract raw
      pure { mode, fields, skipIf, cancelKeywords, timeoutHours, intro
             introByLanguage := localizedOr texts intro, nlExtract, nlExtractTier }
  | _ => .error (.clarifyRequired stepId)

/-! ### Steps -/

def supportedKinds : List Str :=
  ["agent", "llm_classify", "llm_chat", "tool_call", "skill_exec", "user_input"].map String.toList

def parseStepId (seenIds : List Str) (index : Nat) (raw : Entries) : Except ParseError Str :=
  match get raw "id" with
  | .str stepId =>
      if stepId = [] then .error (.missingId index)
      else if stepId ∈ seenIds then .error (.duplicateStepId stepId)
      else .ok stepId
  | _ => .error (.missingId index)

def parseKind (raw : Entries) : Except ParseError Str :=
  match getOr raw "kind" (.str "agent".toList) with
  | .str kind => if kind ∈ supportedKinds then .ok kind else .error (.unsupportedKind stepId)
  | _ => .error (.unsupportedKind stepId)

def parseSkill (kind : Str) (raw : Entries) : Except ParseError Str :=
  let required := kind = "agent".toList ∨ kind = "skill_exec".toList
  match getOr raw "skill" (.str []) with
  | .str skill =>
      if required then if skill = [] then .error (.missingSkill stepId kind) else .ok skill
      else .ok (if skill = [] then stepId else skill)
  | _ => if required then .error (.missingSkill stepId kind) else .error (.skillNotString stepId)

def optionalList (error : ParseError) (value : PyValue) : Except ParseError (List PyValue) :=
  match orElse env value (.list []) with
  | .list items => .ok items
  | _ => .error error

def optionalMapping (error : ParseError) (value : PyValue) : Except ParseError Entries :=
  match orElse env value (.dict []) with
  | .dict entries => .ok entries
  | _ => .error error

def parseRouteCase (index : Nat) : PyValue → Except ParseError RouteCase
  | .dict item =>
      match nonBlank (get item "when") with
      | none => .error (.routeMissingWhen stepId index)
      | some when =>
          match nonBlank (get item "to") with
          | none => .error (.routeMissingTo stepId index)
          | some target => .ok ⟨when, target⟩
  | _ => .error (.routeItemNotMapping stepId index)

def parseRoute : Nat → List PyValue → Except ParseError (List RouteCase)
  | _, [] => .ok []
  | index, item :: rest => do
      let case ← parseRouteCase stepId index item
      let cases ← parseRoute (index + 1) rest
      pure (case :: cases)

def optionalText (error : ParseError) : PyValue → Except ParseError Str
  | .none => .ok []
  | .str s => if s = [] then .ok [] else if strip s = [] then .error error else .ok (strip s)
  | _ => .error error

def parseOutputChoices (kind : Str) (raw : PyValue) : Except ParseError (List Str) :=
  if kind = "llm_classify".toList then
    match raw with
    | .list (item :: items) => do
        let choices ← nonBlankTexts (.choiceInvalid stepId) 0 (item :: items)
        if choices.Nodup then pure choices else .error (.choicesNotUnique stepId)
    | _ => .error (.choicesRequired stepId)
  else if isNone raw || isEmptyList raw then .ok []
  else .error (.choicesOnlyClassify stepId)

def parseToolCall (kind : Str) (toolRaw toolArgsRaw : PyValue) : Except ParseError (Str × Entries) :=
  if kind = "tool_call".toList then
    match nonBlank toolRaw with
    | none => .error (.toolRequired stepId)
    | some tool => do
        let args ← optionalMapping env (.toolArgsNotMapping stepId) toolArgsRaw
        pure (tool, args)
  else if !(isNone toolRaw || isEmptyText toolRaw) then .error (.toolOnlyToolCall stepId)
  else if !(isNone toolArgsRaw || isEmptyDict toolArgsRaw) then
    .error (.toolArgsOnlyToolCall stepId)
  else .ok ([], [])

def parseToolAllowlist (kind : Str) (raw : PyValue) (tool : Str) : Except ParseError (List Str) :=
  if isNone raw || isEmptyList raw then .ok []
  else
    match raw with
    | .list items => do
        let names ← nonBlankTexts (.allowlistItemInvalid stepId) 0 items
        if kind ≠ "tool_call".toList then .error (.allowlistOnlyToolCall stepId kind)
        else if tool ∉ names then .error (.toolNotAllowed stepId tool)
        else pure names
    | _ => .error (.allowlistNotList stepId)

def externalPaidSubmit : Str := "external_paid_submit".toList

def parseSideEffect (kind : Str) (raw : Entries) : Except ParseError Str :=
  match getOr raw "side_effect" (.str []) with
  | .none => .ok []
  | .str s =>
      if s = [] then .ok []
      else if s = externalPaidSubmit then
        if kind = "skill_exec".toList then .ok s else .error (.paidSubmitNotSkillExec stepId)
      else .error (.sideEffectInvalid stepId)
  | _ => .error (.sideEffectInvalid stepId)

def parseClarify (kind : Str) (raw : Entries) : Except ParseError (Option ClarifyStepConfig) :=
  if kind = "user_input".toList then
    (parseClarifyConfig env stepId (get raw "clarify")).map some
  else if isNone (get raw "clarify") then .ok none
  else .error (.clarifyOnlyUserInput stepId)

def parseProgressEmits (kind : Str) (raw : Entries) : Except ParseError Bool :=
  match get raw "progress_emits" with
  | .none => .ok (kind ≠ "tool_call".toList)
  | .bool emits => .ok emits
  | _ => .error (.progressEmitsNotBool stepId)

end

section

variable (env : Runtime)

def parseStep (seenIds : List Str) (index : Nat) : PyValue → Except ParseError MetaStep
  | .dict raw => do
      let stepId ← parseStepId seenIds index raw
      let kind ← parseKind stepId raw
      let skill ← parseSkill stepId kind raw
      let dependsOn ← optionalList env (.dependsOnNotList stepId) (get raw "depends_on")
      let withArgs ← optionalMapping env (.withNotMapping stepId) (get raw "with")
      let routeItems ← optionalList env (.routeNotList stepId) (get raw "route")
      let route ← parseRoute stepId 0 routeItems
      let when ← optionalText (.whenInvalid stepId) (get raw "when")
      let outputChoices ← parseOutputChoices stepId kind (get raw "output_choices")
      let (tool, toolArgs) ← parseToolCall env stepId kind (get raw "tool") (get raw "tool_args")
      let toolAllowlist ← parseToolAllowlist stepId kind (get raw "tool_allowlist") tool
      let onFailure ← optionalText (.onFailureInvalid stepId) (get raw "on_failure")
      let sideEffect ← parseSideEffect stepId kind raw
      let clarifyConfig ← parseClarify env stepId kind raw
      let label ← parseLabel env stepId raw
      let progressEmits ← parseProgressEmits stepId kind raw
      pure { id := stepId, skill, withArgs, dependsOn := dependsOn.map (text env), when, route, kind
             outputChoices, tool, toolArgs, toolAllowlist, onFailure, sideEffect, clarifyConfig
             label, labelByLanguage := labelByLanguage label raw, progressEmits }
  | _ => .error (.stepNotMapping index)

def parseSteps : List Str → Nat → List PyValue → Except ParseError (List MetaStep)
  | _, _, [] => .ok []
  | seenIds, index, raw :: rest => do
      let step ← parseStep env seenIds index raw
      let steps ← parseSteps (step.id :: seenIds) (index + 1) rest
      pure (step :: steps)

def MetaStep.scheduled (step : MetaStep) : MetaSkill.MetaStep where
  id := String.ofList step.id
  skill := String.ofList step.skill
  kind := (MetaSkill.StepKind.ofString (String.ofList step.kind)).getD .agent
  dependsOn := step.dependsOn.map String.ofList
  when := String.ofList step.when
  route := step.route.map fun case => ⟨String.ofList case.when, String.ofList case.target⟩
  onFailure := String.ofList step.onFailure
  sideEffect := String.ofList step.sideEffect

/-! ### Plans -/

def checkAcrossSteps (steps : List MetaStep) : Except ParseError Unit :=
  (do
    MetaSkill.ensureAcyclic (steps.map MetaStep.scheduled)
    MetaSkill.ensureOnFailureValid (steps.map MetaStep.scheduled)).mapError .acrossSteps

def planTriggers (spec : SkillSpec) : List Str :=
  match orElse env spec.triggers (.list []) with
  | .list items => items.map (text env)
  | value => [text env value]

def planFinalTextMode (spec : SkillSpec) : Str :=
  let mode := strip (text env (orElse env spec.finalTextMode (.str "auto".toList)))
  if mode = [] then "auto".toList else mode

/-- `dict(value) if isinstance(value, dict) else {}`. -/
def mappingOr : PyValue → Entries
  | .dict entries => entries
  | _ => []

def mappingsOf : PyValue → List Entries
  | .list items => items.filterMap fun item => match item with
      | .dict entries => some entries
      | _ => none
  | _ => []

def textsOf : PyValue → List Str
  | .list items => (items.map (text env)).filter fun s => strip s ≠ []
  | _ => []

def parseMetaPlan (spec : SkillSpec) : Except ParseError (Option MetaPlan) :=
  if spec.kind ≠ "meta".toList then .ok none
  else
    match spec.compositionRaw with
    | .dict composition =>
        match get composition "steps" with
        | .list (first :: rest) => do
            let steps ← parseSteps env [] 0 (first :: rest)
            checkAcrossSteps steps
            pure (some
              { name := spec.name
                triggers := planTriggers env spec
                priority := spec.metaPriority
                steps
                fallbackBody := spec.content
                finalTextMode := planFinalTextMode env spec
                requestTemplate := mappingOr spec.requestTemplate
                outputContract := mappingOr spec.outputContract
                evalPrompts := mappingsOf spec.evalPrompts
                preferenceKeys := textsOf env spec.preferenceKeys
                policyTags := textsOf env spec.policyTags })
        | _ => .error .stepsNotNonEmptyList
    | _ => .error .missingComposition

end

end OpenStarry.PlanSerde
