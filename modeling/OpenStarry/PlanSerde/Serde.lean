import OpenStarry.PlanSerde.Parser

/-!
# Plans as JSON and back

`to_jsonable` writes every field of a plan into a dict with a version envelope; `from_jsonable` reads
such a dict, each field with its own default for what is missing or false.
-/

namespace OpenStarry.PlanSerde

open Lib
open Lib.Text
open PyValue (record)

def planSerdeVersion : Int := 2

/-! ### Writing -/

def textList (texts : List Str) : PyValue := .list (texts.map .str)

def textDict (texts : List (Str × Str)) : PyValue := record (texts.map fun p => (p.1, .str p.2))

def clarifyFieldToJsonable (field : ClarifyField) : PyValue :=
  record
    [("name".toList, .str field.name),
      ("type".toList, .str field.type),
      ("required".toList, .bool field.required),
      ("prompt".toList, .str field.prompt),
      ("prompt_by_language".toList, textDict field.promptByLanguage),
      ("choices".toList, textList field.choices),
      ("default".toList, field.default),
      ("min".toList, field.min),
      ("max".toList, field.max),
      ("max_chars".toList, field.maxChars)]

def clarifyConfigToJsonable : Option ClarifyStepConfig → PyValue
  | none => .none
  | some config =>
      record
        [("mode".toList, .str config.mode),
          ("fields".toList, .list (config.fields.map clarifyFieldToJsonable)),
          ("skip_if".toList, config.skipIf),
          ("cancel_keywords".toList, textList config.cancelKeywords),
          ("timeout_hours".toList, config.timeoutHours),
          ("intro".toList, .str config.intro),
          ("intro_by_language".toList, textDict config.introByLanguage),
          ("nl_extract".toList, .bool config.nlExtract),
          ("nl_extract_tier".toList, config.nlExtractTier)]

def routeCaseToJsonable (case : RouteCase) : PyValue :=
  record [("when".toList, .str case.when), ("to".toList, .str case.target)]

def stepToJsonable (step : MetaStep) : PyValue :=
  record
    [("id".toList, .str step.id),
      ("skill".toList, .str step.skill),
      ("kind".toList, .str step.kind),
      ("with_args".toList, .dict step.withArgs),
      ("depends_on".toList, textList step.dependsOn),
      ("when".toList, .str step.when),
      ("route".toList, .list (step.route.map routeCaseToJsonable)),
      ("output_choices".toList, textList step.outputChoices),
      ("tool".toList, .str step.tool),
      ("tool_args".toList, .dict step.toolArgs),
      ("tool_allowlist".toList, textList step.toolAllowlist),
      ("on_failure".toList, .str step.onFailure),
      ("side_effect".toList, .str step.sideEffect),
      ("clarify_config".toList, clarifyConfigToJsonable step.clarifyConfig),
      ("label".toList, .str step.label),
      ("label_by_language".toList, textDict step.labelByLanguage),
      ("progress_emits".toList, .bool step.progressEmits)]

def planToJsonable (plan : MetaPlan) : PyValue :=
  record
    [("name".toList, .str plan.name),
      ("triggers".toList, textList plan.triggers),
      ("priority".toList, .int plan.priority),
      ("fallback_body".toList, .str plan.fallbackBody),
      ("final_text_mode".toList, .str plan.finalTextMode),
      ("request_template".toList, .dict plan.requestTemplate),
      ("output_contract".toList, .dict plan.outputContract),
      ("eval_prompts".toList, .list (plan.evalPrompts.map .dict)),
      ("preference_keys".toList, textList plan.preferenceKeys),
      ("policy_tags".toList, textList plan.policyTags),
      ("steps".toList, .list (plan.steps.map stepToJsonable))]

def toJsonable (plan : MetaPlan) : PyValue :=
  record [("v".toList, .int planSerdeVersion), ("plan".toList, planToJsonable plan)]

/-! ### Reading -/

/-- What is left to Python besides: the items of a value that is no list, the entries of one that is
no dict, and the integer of one that is none. -/
structure Reader extends Runtime where
  items : PyValue → Option (List PyValue)
  pairs : PyValue → Option Entries
  number : PyValue → Option Int

/-- The messages of `ValueError`; the last stands for the errors of Python itself. -/
inductive SerdeError
  | payloadNotDict
  | versionNotSupported (version : PyValue)
  | planMissing
  | stepsNotList
  | stepNotMapping (index : Nat)
  | routeNotList (index : Nat)
  | python

section

variable (reader : Reader)

def itemsOf : PyValue → Except SerdeError (List PyValue)
  | .list items => .ok items
  | value => (reader.items value).elim (.error .python) .ok

/-- `dict(value)`. -/
def entriesOf : PyValue → Except SerdeError Entries
  | .dict entries => .ok entries
  | value => (reader.pairs value).elim (.error .python) .ok

/-- `int(value)`. -/
def intOfValue (value : PyValue) : Except SerdeError Int :=
  match asInt value with
  | some number => .ok number
  | none => (reader.number value).elim (.error .python) .ok

/-- `str(entries.get(key) or default)`. -/
def textOf (entries : Entries) (key : String) (default : String) : Str :=
  text reader.toRuntime (orElse reader.toRuntime (get entries key) (.str default.toList))

/-- `tuple(str(item) for item in entries.get(key) or [])`. -/
def textsIn (entries : Entries) (key : String) : Except SerdeError (List Str) :=
  (itemsOf reader (orElse reader.toRuntime (get entries key) (.list []))).map
    (List.map (text reader.toRuntime))

/-- `dict(entries.get(key) or {})`. -/
def mappingIn (entries : Entries) (key : String) : Except SerdeError Entries :=
  entriesOf reader (orElse reader.toRuntime (get entries key) (.dict []))

def textDictIn (entries : Entries) (key : String) : Except SerdeError (List (Str × Str)) :=
  (mappingIn reader entries key).map fun pairs =>
    ((pairs.map fun p => (text reader.toRuntime p.1, text reader.toRuntime p.2)).filter fun p =>
      strip p.1 ≠ [] ∧ strip p.2 ≠ []).foldl (fun d p => Keyed.assign Prod.fst p d) []

def clarifyFieldFromJsonable : PyValue → Except SerdeError ClarifyField
  | .dict raw => do
      let promptByLanguage ← textDictIn reader raw "prompt_by_language"
      let choices ← textsIn reader raw "choices"
      pure
        { name := text reader.toRuntime (getOr raw "name" (.str []))
          type := text reader.toRuntime (getOr raw "type" (.str "string".toList))
          required := truthy reader.toRuntime (get raw "required")
          prompt := textOf reader raw "prompt" ""
          promptByLanguage
          choices
          default := get raw "default"
          min := get raw "min"
          max := get raw "max"
          maxChars := get raw "max_chars" }
  | _ => .error .python

def clarifyConfigFromJsonable : PyValue → Except SerdeError (Option ClarifyStepConfig)
  | .none => .ok none
  | .dict raw => do
      let fieldsRaw ← itemsOf reader (orElse reader.toRuntime (get raw "fields") (.list []))
      let fields ← fieldsRaw.mapM (clarifyFieldFromJsonable reader)
      let cancelKeywords ← textsIn reader raw "cancel_keywords"
      let timeoutHours ← intOfValue reader
        (orElse reader.toRuntime (getOr raw "timeout_hours" (.int 24)) (.int 24))
      let introByLanguage ← textDictIn reader raw "intro_by_language"
      pure (some
        { mode := textOf reader raw "mode" "form"
          fields
          skipIf := .str (textOf reader raw "skip_if" "")
          cancelKeywords
          timeoutHours := .int timeoutHours
          intro := textOf reader raw "intro" ""
          introByLanguage
          nlExtract := truthy reader.toRuntime (get raw "nl_extract")
          nlExtractTier := .str (textOf reader raw "nl_extract_tier" "") })
  | _ => .error .python

def has (entries : Entries) (key : String) : Bool :=
  entries.any fun entry => match entry.1 with
    | .str s => s == key.toList
    | _ => false

def routeCaseFromJsonable : PyValue → Option RouteCase
  | .dict raw =>
      if has raw "when" && has raw "to" then
        some ⟨text reader.toRuntime (get raw "when"), text reader.toRuntime (get raw "to")⟩
      else none
  | _ => none

def routeFrom (index : Nat) (raw : Entries) : Except SerdeError (List RouteCase) :=
  match orElse reader.toRuntime (get raw "route") (.list []) with
  | .list items => .ok (items.filterMap (routeCaseFromJsonable reader))
  | _ => .error (.routeNotList index)

def progressEmitsFrom (kind : Str) : PyValue → Bool
  | .bool emits => emits
  | _ => kind ≠ "tool_call".toList

def stepFromJsonable (index : Nat) : PyValue → Except SerdeError MetaStep
  | .dict raw => do
      let route ← routeFrom reader index raw
      let kind := text reader.toRuntime (getOr raw "kind" (.str "agent".toList))
      let withArgs ← mappingIn reader raw "with_args"
      let dependsOn ← textsIn reader raw "depends_on"
      let outputChoices ← textsIn reader raw "output_choices"
      let toolArgs ← mappingIn reader raw "tool_args"
      let toolAllowlist ← textsIn reader raw "tool_allowlist"
      let clarifyConfig ← clarifyConfigFromJsonable reader (get raw "clarify_config")
      let labelByLanguage ← textDictIn reader raw "label_by_language"
      pure
        { id := text reader.toRuntime (getOr raw "id" (.str []))
          skill := text reader.toRuntime (getOr raw "skill" (.str []))
          withArgs
          dependsOn
          when := textOf reader raw "when" ""
          route
          kind
          outputChoices
          tool := textOf reader raw "tool" ""
          toolArgs
          toolAllowlist
          onFailure := textOf reader raw "on_failure" ""
          sideEffect := textOf reader raw "side_effect" ""
          clarifyConfig
          label := textOf reader raw "label" ""
          labelByLanguage
          progressEmits := progressEmitsFrom kind (get raw "progress_emits") }
  | _ => .error (.stepNotMapping index)

def stepsFromJsonable : Nat → List PyValue → Except SerdeError (List MetaStep)
  | _, [] => .ok []
  | index, raw :: rest => do
      let step ← stepFromJsonable reader index raw
      let steps ← stepsFromJsonable (index + 1) rest
      pure (step :: steps)

def stepsFrom (plan : Entries) : Except SerdeError (List MetaStep) :=
  match getOr plan "steps" (.list []) with
  | .list items => stepsFromJsonable reader 0 items
  | _ => .error .stepsNotList

def listTexts : PyValue → List Str
  | .list items => items.map (text reader.toRuntime)
  | _ => []

def planDict (payload : Entries) : Except SerdeError Entries :=
  match get payload "v" with
  | .none => .ok payload
  | version =>
      if (asInt version).any fun number => number ≤ planSerdeVersion then
        match getOr payload "plan" (.dict []) with
        | .dict plan => .ok plan
        | _ => .error .planMissing
      else .error (.versionNotSupported version)

def fromJsonable : PyValue → Except SerdeError MetaPlan
  | .dict payload => do
      let plan ← planDict payload
      let steps ← stepsFrom reader plan
      let triggers ← textsIn reader plan "triggers"
      let priority ← intOfValue reader (orElse reader.toRuntime (get plan "priority") (.int 0))
      pure
        { name := text reader.toRuntime (getOr plan "name" (.str []))
          triggers
          priority
          steps
          fallbackBody := textOf reader plan "fallback_body" ""
          finalTextMode := textOf reader plan "final_text_mode" "auto"
          requestTemplate := mappingOr (get plan "request_template")
          outputContract := mappingOr (get plan "output_contract")
          evalPrompts := mappingsOf (get plan "eval_prompts")
          preferenceKeys := listTexts reader (get plan "preference_keys")
          policyTags := listTexts reader (get plan "policy_tags") }
  | _ => .error .payloadNotDict

end

/-! ### Persisting -/

/-- `from_jsonable(json.loads(json.dumps(to_jsonable(plan))))`, `none` where an error is raised. -/
def persisted (reader : Reader) (plan : MetaPlan) : Option MetaPlan :=
  ((toJsonable plan).reload).bind fun payload => (fromJsonable reader payload).toOption

/-- `plan_digest`, `none` where the plan has no JSON form. -/
def planDigest (sha256 : Str → Str) (plan : MetaPlan) : Option Str :=
  (toJsonable plan).toJson?.map fun json =>
    sha256 (Json.dumpsWith Json.defaultSeparators (Json.sortKeys json))

end OpenStarry.PlanSerde
