import OpenStarry.Lib.PyValue
import OpenStarry.MetaSkill.Plan

/-!
# Compositions with everything they say

A meta-skill's composition is read into a plan with all its fields: the arguments, choices, tools and
labels of the steps, and the clarify form of a step that asks the user. What the scheduler reads of a
step is checked as for the scheduler's own plan.
-/

namespace OpenStarry.PlanSerde

open Lib
open Lib.Text

abbrev Entries := List (PyValue × PyValue)

/-! ### Plans -/

structure RouteCase where
  when : Str
  target : Str

structure ClarifyField where
  name : Str
  type : Str
  required : Bool := false
  prompt : Str := []
  promptByLanguage : List (Str × Str) := []
  choices : List Str := []
  default : PyValue := .none
  min : PyValue := .none
  max : PyValue := .none
  maxChars : PyValue := .none

structure ClarifyStepConfig where
  mode : Str
  fields : List ClarifyField
  skipIf : PyValue := .str []
  cancelKeywords : List Str := []
  timeoutHours : PyValue := .int 24
  intro : Str := []
  introByLanguage : List (Str × Str) := []
  nlExtract : Bool := false
  nlExtractTier : PyValue := .str []

structure MetaStep where
  id : Str
  skill : Str
  withArgs : Entries := []
  dependsOn : List Str := []
  when : Str := []
  route : List RouteCase := []
  kind : Str := "agent".toList
  outputChoices : List Str := []
  tool : Str := []
  toolArgs : Entries := []
  toolAllowlist : List Str := []
  onFailure : Str := []
  sideEffect : Str := []
  clarifyConfig : Option ClarifyStepConfig := none
  label : Str := []
  labelByLanguage : List (Str × Str) := []
  progressEmits : Bool := true

structure MetaPlan where
  name : Str
  triggers : List Str
  priority : Int
  steps : List MetaStep
  fallbackBody : Str := []
  finalTextMode : Str := "auto".toList
  requestTemplate : Entries := []
  outputContract : Entries := []
  evalPrompts : List Entries := []
  preferenceKeys : List Str := []
  policyTags : List Str := []

structure SkillSpec where
  name : Str
  kind : Str
  triggers : PyValue
  content : Str
  metaPriority : Int := 0
  compositionRaw : PyValue
  finalTextMode : PyValue := .str "auto".toList
  requestTemplate : PyValue := .dict []
  outputContract : PyValue := .dict []
  evalPrompts : PyValue := .list []
  preferenceKeys : PyValue := .list []
  policyTags : PyValue := .list []

/-! ### Python's part -/

/-- What is left to Python: the text of a value that is none, whether an object is true, the case of
letters, and whether the template engine compiles an expression. -/
structure Runtime where
  repr : PyValue → Str
  isTrue : Str → Bool
  lower : Str → Str
  title : Str → Str
  compiles : Str → Bool
  strip_title : ∀ text, strip text = [] ↔ strip (title text) = []

/-- One constructor for each message of `MetaPlanError`, with what the message names behind the
skill; the last two stand for a `TypeError`. -/
inductive ParseError
  | missingComposition
  | stepsNotNonEmptyList
  | stepNotMapping (index : Nat)
  | missingId (index : Nat)
  | duplicateStepId (stepId : Str)
  | unsupportedKind (stepId : Str)
  | missingSkill (stepId kind : Str)
  | skillNotString (stepId : Str)
  | dependsOnNotList (stepId : Str)
  | withNotMapping (stepId : Str)
  | routeNotList (stepId : Str)
  | routeItemNotMapping (stepId : Str) (index : Nat)
  | routeMissingWhen (stepId : Str) (index : Nat)
  | routeMissingTo (stepId : Str) (index : Nat)
  | whenInvalid (stepId : Str)
  | choicesRequired (stepId : Str)
  | choiceInvalid (stepId : Str) (index : Nat)
  | choicesNotUnique (stepId : Str)
  | choicesOnlyClassify (stepId : Str)
  | toolRequired (stepId : Str)
  | toolArgsNotMapping (stepId : Str)
  | toolOnlyToolCall (stepId : Str)
  | toolArgsOnlyToolCall (stepId : Str)
  | allowlistNotList (stepId : Str)
  | allowlistItemInvalid (stepId : Str) (index : Nat)
  | allowlistOnlyToolCall (stepId kind : Str)
  | toolNotAllowed (stepId tool : Str)
  | onFailureInvalid (stepId : Str)
  | paidSubmitNotSkillExec (stepId : Str)
  | sideEffectInvalid (stepId : Str)
  | clarifyOnlyUserInput (stepId : Str)
  | labelNotString (stepId : Str)
  | progressEmitsNotBool (stepId : Str)
  | clarifyRequired (stepId : Str)
  | clarifyMode (stepId : Str)
  | clarifyFields (stepId : Str)
  | clarifyDuplicateName (stepId name : Str)
  | clarifyTooManyFields (stepId : Str) (count most : Nat)
  | clarifySkipIfNotString (stepId : Str)
  | clarifySkipIfNotCompiled (stepId : Str)
  | clarifyCancelKeywords (stepId : Str)
  | clarifyTimeout (stepId : Str)
  | clarifyIntro (stepId : Str)
  | clarifyIntroLanguage (stepId : Str) (language : String)
  | clarifyNlExtract (stepId : Str)
  | clarifyTier (stepId : Str)
  | fieldNotMapping (stepId : Str) (index : Nat)
  | fieldName (stepId : Str) (index : Nat)
  | fieldType (stepId : Str) (index : Nat)
  | fieldRequired (stepId : Str) (index : Nat) (name : Str)
  | fieldRequiredDefault (stepId : Str) (index : Nat) (name : Str)
  | fieldEnumChoices (stepId : Str) (index : Nat) (name : Str)
  | fieldChoice (stepId : Str) (index choice : Nat)
  | fieldChoicesNotUnique (stepId : Str) (index : Nat) (name : Str)
  | fieldChoicesOnlyEnum (stepId : Str) (index : Nat) (name : Str)
  | fieldMin (stepId : Str) (index : Nat) (name : Str)
  | fieldMax (stepId : Str) (index : Nat) (name : Str)
  | fieldMinAboveMax (stepId : Str) (index : Nat) (name : Str)
  | fieldBoundsOnlyInt (stepId : Str) (index : Nat) (name : Str)
  | fieldMaxChars (stepId : Str) (index : Nat) (name : Str)
  | fieldMaxCharsOnlyString (stepId : Str) (index : Nat) (name : Str)
  | fieldDefaultNotChoice (stepId : Str) (index : Nat) (name : Str)
  | fieldDefaultNotInt (stepId : Str) (index : Nat) (name : Str)
  | fieldDefaultBelowMin (stepId : Str) (index : Nat) (name : Str)
  | fieldDefaultAboveMax (stepId : Str) (index : Nat) (name : Str)
  | fieldDefaultNotBool (stepId : Str) (index : Nat) (name : Str)
  | fieldDefaultNotString (stepId : Str) (index : Nat) (name : Str)
  | fieldDefaultTooLong (stepId : Str) (index : Nat) (name : Str)
  | fieldPrompt (stepId : Str) (index : Nat) (name : Str)
  | fieldPromptLanguage (stepId : Str) (index : Nat) (name : Str) (language : String)
  | acrossSteps (error : MetaSkill.MetaPlanError)
  | notIterable
  | unhashable

/-! ### Values of the composition -/

/-- `entries.get(key, default)`. -/
def getOr (entries : Entries) (key : String) (default : PyValue) : PyValue :=
  ((entries.find? fun entry => match entry.1 with
    | .str s => s == key.toList
    | _ => false).map (·.2)).getD default

/-- `entries.get(key)`, `None` where it is missing. -/
def get (entries : Entries) (key : String) : PyValue := getOr entries key .none

def isNone : PyValue → Bool
  | .none => true
  | _ => false

/-- `value == ""`. -/
def isEmptyText : PyValue → Bool
  | .str [] => true
  | _ => false

def isEmptyList : PyValue → Bool
  | .list [] => true
  | _ => false

def isEmptyDict : PyValue → Bool
  | .dict [] => true
  | _ => false

def nonBlank : PyValue → Option Str
  | .str s => if strip s = [] then none else some s
  | _ => none

/-- The number an `int` is; a `bool` is one too. -/
def asInt : PyValue → Option Int
  | .bool b => some (if b then 1 else 0)
  | .int value => some value
  | _ => none

section

variable (env : Runtime)

def truthy : PyValue → Bool
  | .none => false
  | .bool b => b
  | .int value => value ≠ 0
  | .float repr => !repr.isZero
  | .str s => s ≠ []
  | .list items => !items.isEmpty
  | .dict entries => !entries.isEmpty
  | .other name => env.isTrue name

/-- `str(value)`. -/
def text : PyValue → Str
  | .str s => s
  | value => env.repr value

/-- `value or default`. -/
def orElse (value default : PyValue) : PyValue := if truthy env value then value else default

end

/-! ### Localized texts -/

def isHan (c : Char) : Bool :=
  (0x3400 ≤ c.toNat && c.toNat ≤ 0x9fff) || (0xf900 ≤ c.toNat && c.toNat ≤ 0xfaff)

/-- `re.split(r"\s+/\s+", text, maxsplit=1)`, when there is such a slash. -/
def splitAtSlash : Str → Option (Str × Str)
  | [] => none
  | c :: rest =>
      let behind := (c :: rest).dropWhile isSpace
      if isSpace c ∧ behind.head? = some '/' ∧ behind.tail.head?.any isSpace then
        some ([], behind.tail.dropWhile isSpace)
      else (splitAtSlash rest).map fun parts => (c :: parts.1, parts.2)

def splitBilingualText (text : Str) : List (Str × Str) :=
  if strip text = [] then []
  else
    match splitAtSlash (strip text) with
    | none => []
    | some (left, right) =>
        if strip left = [] ∨ strip right = [] then []
        else if (strip left).any isHan ∧ (strip right).any Char.isAlpha then
          [("zh".toList, strip left), ("en".toList, strip right)]
        else if (strip left).any Char.isAlpha ∧ (strip right).any isHan then
          [("en".toList, strip left), ("zh".toList, strip right)]
        else []

def localizedTexts (env : Runtime) (raw : Entries) (stem : String) (error : String → ParseError) :
    Except ParseError (List (Str × Str)) := do
  let texts ← ["zh", "en"].mapM fun language =>
    match getOr raw (stem ++ language) (.str []) with
    | .str s => .ok (if strip s = [] then none else some (language.toList, s))
    | value => if truthy env value then .error (error language) else .ok none
  pure (texts.filterMap id)

def localizedOr (texts : List (Str × Str)) (text : Str) : List (Str × Str) :=
  if texts = [] then splitBilingualText text else texts

/-! ### Labels -/

def fallbackLabelFromStepId (env : Runtime) (stepId : Str) : Str :=
  let label := env.title (strip (stepId.map fun c => if c = '_' ∨ c = '-' then ' ' else c))
  if label = [] then stepId else label

def parseLabel (env : Runtime) (stepId : Str) (raw : Entries) : Except ParseError Str :=
  match getOr raw "label" (.str []) with
  | .str s => .ok (if strip s = [] then fallbackLabelFromStepId env stepId else strip s)
  | _ => .error (.labelNotString stepId)

def labelByLanguage (label : Str) (raw : Entries) : List (Str × Str) :=
  let localized := ["zh", "en"].filterMap fun language =>
    (nonBlank (get raw ("label_" ++ language))).map fun s => (language.toList, strip s)
  if localized.any fun p => p.1 = "en".toList then localized
  else localized ++ [("en".toList, label)]

end OpenStarry.PlanSerde
