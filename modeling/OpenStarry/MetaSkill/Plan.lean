import OpenStarry.Lib.Text
import Mathlib.Data.List.Dedup
import Mathlib.Data.List.Perm.Subperm

/-!
# Meta-skill plans

A meta-skill is a DAG of steps read from a YAML composition. `parseMetaPlan` checks the raw
composition and returns the plan; `Accepted` collects what every plan it returns satisfies. Only
the fields that the scheduler and the replay gate read are carried: the clarify form, the labels,
the tool arguments and the output choices of a step play no part in what is scheduled, and their
checks can only reject more compositions.
-/

namespace OpenStarry.MetaSkill

open OpenStarry.Lib

/-- A value of the decoded composition. -/
inductive Raw
  | none
  | bool (b : Bool)
  | int (i : Int)
  | str (s : String)
  | list (items : List Raw)
  | dict (entries : List (String × Raw))

def Raw.truthy : Raw → Bool
  | .none => false
  | .bool b => b
  | .int i => i != 0
  | .str s => s != ""
  | .list items => !items.isEmpty
  | .dict entries => !entries.isEmpty

/-- `entries.get(key, default)`. -/
def rawGet (entries : List (String × Raw)) (key : String) (default : Raw) : Raw :=
  match entries.find? (fun entry => entry.1 == key) with
  | some entry => entry.2
  | Option.none => default

/-- `str.strip`. -/
def stripString (s : String) : String := String.ofList (Text.strip s.toList)

inductive StepKind
  | agent
  | llmClassify
  | llmChat
  | toolCall
  | skillExec
  | userInput
  deriving DecidableEq, Repr

/-- The members of `_SUPPORTED_KINDS`. -/
def StepKind.ofString : String → Option StepKind
  | "agent" => some .agent
  | "llm_classify" => some .llmClassify
  | "llm_chat" => some .llmChat
  | "tool_call" => some .toolCall
  | "skill_exec" => some .skillExec
  | "user_input" => some .userInput
  | _ => Option.none

structure RouteCase where
  when : String
  target : String
  deriving DecidableEq, Repr

structure MetaStep where
  id : String
  skill : String
  kind : StepKind := .agent
  dependsOn : List String := []
  when : String := ""
  route : List RouteCase := []
  onFailure : String := ""
  sideEffect : String := ""
  deriving DecidableEq, Repr

structure MetaPlan where
  name : String
  steps : List MetaStep
  deriving DecidableEq, Repr

/-- What the loader hands to the parser: the skill's name, its kind and the raw composition. -/
structure SkillSpec where
  name : String
  kind : String
  compositionRaw : Raw

/-- One constructor for each message of `MetaPlanError`, with the values the message names. -/
inductive MetaPlanError
  | missingComposition
  | stepsNotNonEmptyList
  | stepNotMapping (index : Nat)
  | missingId (index : Nat)
  | duplicateStepId (stepId : String)
  | unsupportedKind (stepId : String)
  | missingSkill (stepId : String)
  | skillNotString (stepId : String)
  | dependsOnNotList (stepId : String)
  | routeNotList (stepId : String)
  | routeItemNotMapping (stepId : String) (index : Nat)
  | routeMissingWhen (stepId : String) (index : Nat)
  | routeMissingTo (stepId : String) (index : Nat)
  | whenInvalid (stepId : String)
  | onFailureInvalid (stepId : String)
  | paidSubmitNotSkillExec (stepId : String)
  | sideEffectInvalid (stepId : String)
  | undefinedDependency (stepId dep : String)
  | dependencyCycle
  | undefinedStepId (stepId : String)
  | onFailureSelf (stepId : String)
  | onFailureUnknown (stepId target : String)
  | onFailureNested (stepId target : String)
  | onFailureDependsOn (stepId target : String)
  | onFailureShared (target prior : String)
  deriving DecidableEq, Repr

/-! ### Topological order -/

abbrev Graph := List (String × List String)

def graphNodes (graph : Graph) : List String :=
  (graph.flatMap fun entry => entry.1 :: entry.2).eraseDups

def predecessors (graph : Graph) (node : String) : List String :=
  (graph.filter fun entry => entry.1 == node).flatMap (·.2)

/-- The nodes that wait for `node`, once for each time they name it. -/
def successors (graph : Graph) (node : String) : List String :=
  graph.flatMap fun entry => (entry.2.filter (· == node)).map fun _ => entry.1

/-- The nodes that become ready when `group` is done. A node is listed when the last of its
predecessors is counted off, hence the last occurrence among the successors of the group. -/
def nextReady (graph : Graph) (done group : List String) : List String :=
  ((group.flatMap (successors graph)).dedup).filter fun node =>
    (predecessors graph node).all fun pred => pred ∈ done ++ group

def staticOrderFrom (graph : Graph) : Nat → List String → List String → List String
  | 0, _, _ => []
  | fuel + 1, done, group =>
      if group = [] then []
      else group ++ staticOrderFrom graph fuel (done ++ group) (nextReady graph done group)

/-- `TopologicalSorter(graph).static_order()`, `none` for `CycleError`. -/
def staticOrder (graph : Graph) : Option (List String) :=
  let nodes := graphNodes graph
  let order := staticOrderFrom graph nodes.length []
    (nodes.filter fun node => predecessors graph node = [])
  if order.length = nodes.length then some order else Option.none

def dependencyGraph (steps : List MetaStep) : Graph := steps.map fun s => (s.id, s.dependsOn)

/-- `{s.id: s for s in steps}[stepId]`: the last step of that id. -/
def stepById (steps : List MetaStep) (stepId : String) : Option MetaStep :=
  steps.reverse.find? fun s => s.id == stepId

def orderSteps (steps : List MetaStep) : List String → Except MetaPlanError (List MetaStep)
  | [] => .ok []
  | sid :: rest =>
      match stepById steps sid with
      | some s => (orderSteps steps rest).map (s :: ·)
      | Option.none => .error (.undefinedStepId sid)

def topologicalOrder (steps : List MetaStep) : Except MetaPlanError (List MetaStep) :=
  match staticOrder (dependencyGraph steps) with
  | some order => orderSteps steps order
  | Option.none => .error .dependencyCycle

/-! ### Parsing one step -/

section Parse

-- `str()` of a value that is not a string already
variable (pyStr : Raw → String)

def parseStepId (seenIds : List String) (index : Nat) (entries : List (String × Raw)) :
    Except MetaPlanError String :=
  match rawGet entries "id" .none with
  | .str stepId =>
      if stepId = "" then .error (.missingId index)
      else if stepId ∈ seenIds then .error (.duplicateStepId stepId)
      else .ok stepId
  | _ => .error (.missingId index)

def parseKind (stepId : String) (entries : List (String × Raw)) : Except MetaPlanError StepKind :=
  match rawGet entries "kind" (.str "agent") with
  | .str kind =>
      match StepKind.ofString kind with
      | some k => .ok k
      | Option.none => .error (.unsupportedKind stepId)
  | _ => .error (.unsupportedKind stepId)

def parseSkill (stepId : String) (kind : StepKind) (entries : List (String × Raw)) :
    Except MetaPlanError String :=
  match rawGet entries "skill" (.str "") with
  | .str skill =>
      if kind = .agent ∨ kind = .skillExec then
        if skill = "" then .error (.missingSkill stepId) else .ok skill
      else .ok (if skill = "" then stepId else skill)
  | _ =>
      if kind = .agent ∨ kind = .skillExec then .error (.missingSkill stepId)
      else .error (.skillNotString stepId)

def dependencyName : Raw → String
  | .str s => s
  | other => pyStr other

def parseDependsOn (stepId : String) (entries : List (String × Raw)) :
    Except MetaPlanError (List String) :=
  let raw := rawGet entries "depends_on" .none
  if raw.truthy then
    match raw with
    | .list items => .ok (items.map (dependencyName pyStr))
    | _ => .error (.dependsOnNotList stepId)
  else .ok []

def nonBlank : Raw → Option String
  | .str s => if stripString s = "" then Option.none else some s
  | _ => Option.none

def parseRouteCases (stepId : String) : Nat → List Raw → Except MetaPlanError (List RouteCase)
  | _, [] => .ok []
  | index, .dict entries :: rest =>
      match nonBlank (rawGet entries "when" .none) with
      | Option.none => .error (.routeMissingWhen stepId index)
      | some when =>
          match nonBlank (rawGet entries "to" .none) with
          | Option.none => .error (.routeMissingTo stepId index)
          | some target => (parseRouteCases stepId (index + 1) rest).map (⟨when, target⟩ :: ·)
  | index, _ :: _ => .error (.routeItemNotMapping stepId index)

/-- `_parse_route(name, step_id, raw.get("route") or [])`. -/
def parseRoute (stepId : String) (entries : List (String × Raw)) :
    Except MetaPlanError (List RouteCase) :=
  let raw := rawGet entries "route" .none
  if raw.truthy then
    match raw with
    | .list items => parseRouteCases stepId 0 items
    | _ => .error (.routeNotList stepId)
  else .ok []

def parseOptionalText (error : MetaPlanError) : Raw → Except MetaPlanError String
  | .none => .ok ""
  | .str s =>
      if s = "" then .ok ""
      else if stripString s = "" then .error error
      else .ok (stripString s)
  | _ => .error error

def parseWhen (stepId : String) (entries : List (String × Raw)) : Except MetaPlanError String :=
  parseOptionalText (.whenInvalid stepId) (rawGet entries "when" .none)

def parseOnFailure (stepId : String) (entries : List (String × Raw)) :
    Except MetaPlanError String :=
  parseOptionalText (.onFailureInvalid stepId) (rawGet entries "on_failure" .none)

def externalPaidSubmit : String := "external_paid_submit"

def parseSideEffect (stepId : String) (kind : StepKind) (entries : List (String × Raw)) :
    Except MetaPlanError String :=
  match rawGet entries "side_effect" (.str "") with
  | .none => .ok ""
  | .str s =>
      if s = "" then .ok ""
      else if s = externalPaidSubmit then
        if kind = .skillExec then .ok s else .error (.paidSubmitNotSkillExec stepId)
      else .error (.sideEffectInvalid stepId)
  | _ => .error (.sideEffectInvalid stepId)

def parseStep (seenIds : List String) (index : Nat) : Raw → Except MetaPlanError MetaStep
  | .dict entries => do
      let stepId ← parseStepId seenIds index entries
      let kind ← parseKind stepId entries
      let skill ← parseSkill stepId kind entries
      let dependsOn ← parseDependsOn pyStr stepId entries
      let route ← parseRoute stepId entries
      let when ← parseWhen stepId entries
      let onFailure ← parseOnFailure stepId entries
      let sideEffect ← parseSideEffect stepId kind entries
      pure { id := stepId, skill, kind, dependsOn, when, route, onFailure, sideEffect }
  | _ => .error (.stepNotMapping index)

def parseSteps : List String → Nat → List Raw → Except MetaPlanError (List MetaStep)
  | _, _, [] => .ok []
  | seenIds, index, raw :: rest =>
      match parseStep pyStr seenIds index raw with
      | .error e => .error e
      | .ok s => (parseSteps (s.id :: seenIds) (index + 1) rest).map (s :: ·)

/-! ### Checks across steps -/

def undefinedDependency (steps : List MetaStep) : Option (String × String) :=
  steps.findSome? fun s =>
    (s.dependsOn.find? fun dep => dep ∉ steps.map (·.id)).map fun dep => (s.id, dep)

def ensureAcyclic (steps : List MetaStep) : Except MetaPlanError Unit :=
  match undefinedDependency steps with
  | some (stepId, dep) => .error (.undefinedDependency stepId dep)
  | Option.none =>
      match staticOrder (dependencyGraph steps) with
      | some _ => .ok ()
      | Option.none => .error .dependencyCycle

/-- The checks on one step's `on_failure` target, given the primaries already seen. -/
def checkOnFailure (steps : List MetaStep) (designatedBy : List (String × String))
    (s : MetaStep) : Except MetaPlanError Unit :=
  if s.onFailure = s.id then .error (.onFailureSelf s.id)
  else
    match stepById steps s.onFailure with
    | Option.none => .error (.onFailureUnknown s.id s.onFailure)
    | some substitute =>
        if substitute.onFailure ≠ "" then .error (.onFailureNested s.id s.onFailure)
        else if substitute.dependsOn ≠ [] then .error (.onFailureDependsOn s.id s.onFailure)
        else
          match designatedBy.find? (fun entry => entry.1 == s.onFailure) with
          | some prior => .error (.onFailureShared s.onFailure prior.2)
          | Option.none => .ok ()

def ensureOnFailureFrom (steps : List MetaStep) :
    List (String × String) → List MetaStep → Except MetaPlanError Unit
  | _, [] => .ok ()
  | designatedBy, s :: rest =>
      if s.onFailure = "" then ensureOnFailureFrom steps designatedBy rest
      else
        match checkOnFailure steps designatedBy s with
        | .error e => .error e
        | .ok () => ensureOnFailureFrom steps ((s.onFailure, s.id) :: designatedBy) rest

def ensureOnFailureValid (steps : List MetaStep) : Except MetaPlanError Unit :=
  ensureOnFailureFrom steps [] steps

/-- The plan of a meta-skill, `none` for a skill of another kind. -/
def parseMetaPlan (spec : SkillSpec) : Except MetaPlanError (Option MetaPlan) :=
  if spec.kind ≠ "meta" then .ok Option.none
  else
    match spec.compositionRaw with
    | .dict composition =>
        match rawGet composition "steps" .none with
        | .list (raw :: raws) => do
            let steps ← parseSteps pyStr [] 0 (raw :: raws)
            ensureAcyclic steps
            ensureOnFailureValid steps
            pure (some { name := spec.name, steps })
        | _ => .error .stepsNotNonEmptyList
    | _ => .error .missingComposition

end Parse

end OpenStarry.MetaSkill
