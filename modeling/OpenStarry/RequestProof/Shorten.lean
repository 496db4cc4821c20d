import OpenStarry.Lib.Dict
import OpenStarry.Lib.JsonLex

/-!
# Shortening of texts

A request that is too large is shortened text by text: a long text keeps its two ends around a note
that tells what is gone, or gives way to a stub.
-/

namespace OpenStarry.RequestProof

open Lib Lib.Text Lib.Json

/-- The safety settings of the compaction, each with a lever in the environment. -/
structure Settings where
  tinyGuardChars : Nat
  protectRecentAssistant : Bool
  protectRecentResults : Nat
  protectErrorResults : Bool
  protectUnresolvedResults : Bool
  skipProjected : Bool
  stubPreviewChars : Nat
  neverWorse : Bool
  deriving DecidableEq, Repr

def Settings.default : Settings where
  tinyGuardChars := 0
  protectRecentAssistant := true
  protectRecentResults := 2
  protectErrorResults := true
  protectUnresolvedResults := true
  skipProjected := true
  stubPreviewChars := 0
  neverWorse := true

/-- What lies outside of this code. -/
structure Runtime where
  /-- `str.lower`. -/
  lower : Str → Str
  /-- The hexadecimal digest of a text in UTF-8. -/
  sha256 : Str → Str
  /-- The tokens of a text, and how they were counted. -/
  estimateTokens : Str → Nat × Str
  /-- A number as Python shows it. -/
  normal : Number → Number

/-- `json.dumps(value, separators=(",", ":"))`, measured. -/
def payloadChars (value : Json) : Nat := (dumps value).length

/-- `value[-count:]` for a positive count. -/
def lastChars (count : Nat) (value : Str) : Str := value.drop (value.length - count)

def excerpt (headChars tailChars : Nat) (note : Nat → Str) (value : Str) : Str :=
  let head := value.take headChars
  let tail := lastChars tailChars value
  let omitted := value.length - head.length - tail.length
  head ++ '\n' :: '\n' :: (note omitted ++ '\n' :: '\n' :: tail)

section

variable (settings : Settings)

def keepOriginalForNeverWorse (original replacement : Json) : Bool :=
  settings.neverWorse && decide (payloadChars original ≤ payloadChars replacement)

def keepSmaller (value compacted : Str) : Str :=
  if keepOriginalForNeverWorse settings (str value) (str compacted) then value else compacted

def shorten (limit : Nat) (compacted : Str → Str) (value : Str) : Str :=
  if value.length ≤ limit then value
  else if value.length ≤ settings.tinyGuardChars then value
  else keepSmaller settings value (compacted value)

def compactString (value : Str) : Str :=
  if value.length ≤ 1200 then value
  else
    keepSmaller settings value (excerpt 900 200
      (fun omitted =>
        "[provider_request_compacted: omitted ".toList ++ (decimal omitted ++ " chars]".toList))
      value)

variable (runtime : Runtime)

def omittedNote (label : Str) (mark : String) (value : Str) (omitted : Nat) : Str :=
  '[' :: 'p' :: ("rovider_request_".toList ++ (label ++ (mark.toList ++
    (": omitted ".toList ++ (decimal omitted ++ (" chars; original_chars=".toList ++
      (decimal value.length ++ ("; sha256=".toList ++ (runtime.sha256 value ++ [']'])))))))))

def compactTailString (label : Str) (value : Str) : Str :=
  shorten settings 640
    (fun value => excerpt 420 120 (omittedNote runtime label "_compacted" value) value) value

def emergencyCompactString (label : Str) (value : Str) : Str :=
  shorten settings 320
    (fun value => excerpt 180 40 (omittedNote runtime label "_emergency_compacted" value) value) value

def hardCompactString (label : Str) (value : Str) : Str :=
  shorten settings 96
    (fun value =>
      "[opensquilla_compacted:".toList ++ (label ++ (':' :: (decimal value.length ++
        (':' :: ((runtime.sha256 value).take 16 ++ [']']))))))
    value

def argumentNote (value : Str) : Str :=
  "[provider_request_tool_input_compacted: original_chars=".toList ++ (decimal value.length ++
    ("; sha256=".toList ++ (runtime.sha256 value ++ [']'])))

def compactArgumentString (preview : Bool) (value : Str) : Str :=
  if preview then compactTailString settings runtime "tool_input".toList value
  else if value.length ≤ settings.tinyGuardChars then value
  else
    let compacted := argumentNote runtime value
    let previewChars := settings.stubPreviewChars
    let withPreviews :=
      value.take previewChars ++ '\n' :: '\n' ::
        (compacted ++ '\n' :: '\n' :: lastChars previewChars value)
    if previewChars ≠ 0 ∧ previewChars * 2 < value.length ∧
        payloadChars (str withPreviews) < payloadChars (str value) then
      keepSmaller settings value withPreviews
    else keepSmaller settings value compacted

end

/-! ### What shortening does -/

section Lemmas

variable {settings : Settings}

theorem keepSmaller_cases (settings : Settings) (value compacted : Str) :
    keepSmaller settings value compacted = value ∨
      keepSmaller settings value compacted = compacted := by
  rw [keepSmaller]
  split_ifs
  · exact .inl rfl
  · exact .inr rfl

theorem shorten_cases (settings : Settings) (limit : Nat) (compacted : Str → Str) (value : Str) :
    shorten settings limit compacted value = value ∨
      limit < value.length ∧ shorten settings limit compacted value = compacted value := by
  rw [shorten]
  split_ifs with hlimit htiny
  · exact .inl rfl
  · exact .inl rfl
  · obtain hkept | hcut := keepSmaller_cases settings value (compacted value)
    · exact .inl hkept
    · exact .inr ⟨by omega, hcut⟩

theorem keepSmaller_lt (hworse : settings.neverWorse = true) {value compacted : Str}
    (hne : keepSmaller settings value compacted ≠ value) :
    payloadChars (str (keepSmaller settings value compacted)) < payloadChars (str value) := by
  rw [keepSmaller] at hne ⊢
  split_ifs at hne ⊢ with hkeep
  · exact absurd rfl hne
  · rw [keepOriginalForNeverWorse, hworse, Bool.true_and, decide_eq_true_eq] at hkeep
    omega

theorem shorten_lt (hworse : settings.neverWorse = true) {limit : Nat} {compacted : Str → Str}
    {value : Str} (hne : shorten settings limit compacted value ≠ value) :
    payloadChars (str (shorten settings limit compacted value)) < payloadChars (str value) := by
  rw [shorten] at hne ⊢
  split_ifs at hne ⊢
  · exact absurd rfl hne
  · exact absurd rfl hne
  · exact keepSmaller_lt hworse hne

theorem shorten_le (hworse : settings.neverWorse = true) (limit : Nat) (compacted : Str → Str)
    (value : Str) :
    payloadChars (str (shorten settings limit compacted value)) ≤ payloadChars (str value) := by
  by_cases hsame : shorten settings limit compacted value = value
  · rw [hsame]
  · exact (shorten_lt hworse hsame).le

theorem shorten_shorten_ne (hworse : settings.neverWorse = true) {limit limit' : Nat}
    {compacted compacted' : Str → Str} {value : Str}
    (hne : shorten settings limit compacted value ≠ value) :
    shorten settings limit' compacted' (shorten settings limit compacted value) ≠ value := by
  intro heq
  have hlt := shorten_lt hworse hne
  have hle := shorten_le hworse limit' compacted' (shorten settings limit compacted value)
  rw [heq] at hle
  omega

theorem length_le_escape (c : Char) : 1 ≤ (escape c).length := by
  unfold escape
  split_ifs <;> simp

theorem length_le_payloadChars (value : Str) : value.length + 2 ≤ payloadChars (str value) := by
  have hlength : value.length ≤ (value.flatMap escape).length := by
    induction value with
    | nil => simp
    | cons c value ih =>
        have hc := length_le_escape c
        rw [List.flatMap_cons, List.length_append, List.length_cons]
        omega
  rw [payloadChars, dumps, dumpsWith, quote, List.length_cons, List.length_append,
    List.length_singleton]
  omega

theorem loads_excerpt (normal : Number → Number) (headChars tailChars : Nat) (label : Str)
    (mark : String) (runtime : Runtime) (value : Str) :
    loads normal (excerpt headChars tailChars (omittedNote runtime label mark value) value) =
      none := by
  have hsplit := loads_note normal (value.take headChars ++ ['\n'])
  simp only [List.append_assoc, List.cons_append, List.nil_append] at hsplit
  rw [excerpt]
  dsimp only [omittedNote, List.cons_append]
  exact hsplit _

end Lemmas

/-!
## Tool arguments and tool inputs

The arguments of a tool call are a text that holds JSON, the input of a `tool_use` block is a dict.
Both are shortened value by value where they can be read, and both give way to a marker where an
earlier shortening leaked into them.
-/

/-! ### Keys in order -/

/-- `json.dumps(…, sort_keys=True)` puts the fields in the order of their keys. -/
def insertField (p : Str × Json) : Dict → Dict
  | [] => [p]
  | q :: rest => if q.1 < p.1 then q :: insertField p rest else p :: q :: rest

mutual

def sortKeys : Json → Json
  | arr items => arr (sortItems items)
  | obj fields => obj (sortFields fields)
  | value => value

def sortItems : List Json → List Json
  | [] => []
  | x :: rest => sortKeys x :: sortItems rest

def sortFields : List (Str × Json) → List (Str × Json)
  | [] => []
  | (key, value) :: rest => insertField (key, sortKeys value) (sortFields rest)

end

/-! ### Markers -/

def toolArgumentProjectionPrefix : Str := "[tool_use_argument_projection]\n".toList

def invalidProviderContextArgumentsKey : String := "_invalid_provider_context_arguments"

def compactedToolArgumentMarkers : List String :=
  ["_opensquilla_compacted_tool_arguments", "_opensquilla_compacted_tool_input"]

def invalidProviderContextArguments : Dict :=
  [(invalidProviderContextArgumentsKey.toList, .bool true),
    ("reason".toList, str "provider_context_omitted".toList)]

section

variable (runtime : Runtime)

def isProviderContextMarkerValue : Json → Bool
  | .bool true => true
  | str s =>
      runtime.lower (strip s) ∈ ["true".toList, "1".toList, "yes".toList, "on".toList]
  | _ => false

def hasCompactedMarker (value : Dict) : Bool :=
  compactedToolArgumentMarkers.any fun marker => isProviderContextMarkerValue runtime (value.get marker)

def hasProviderContextArgumentMarker (value : Dict) : Bool :=
  isProviderContextMarkerValue runtime (value.get invalidProviderContextArgumentsKey) ||
    hasCompactedMarker runtime value

def hasProjectionPrefix (text : Str) : Bool := toolArgumentProjectionPrefix.isPrefixOf text

def hasProjectedValue (value : Dict) : Bool :=
  value.any fun p => p.2.str?.any hasProjectionPrefix

def parsedToolArguments (arguments : Str) : Option Dict := (loads runtime.normal arguments).bind fields?

def toolArgumentsAreInvalidProviderContext (arguments : Str) : Bool :=
  (parsedToolArguments runtime arguments).any fun parsed =>
    isProviderContextMarkerValue runtime (parsed.get invalidProviderContextArgumentsKey)

def toolArgumentsHaveCompactedMarker (arguments : Str) : Bool :=
  (parsedToolArguments runtime arguments).any (hasCompactedMarker runtime)

def toolArgumentsContainProjection (arguments : Str) : Bool :=
  match parsedToolArguments runtime arguments with
  | none => hasProjectionPrefix arguments
  | some parsed => hasProjectedValue parsed

def providerContextArgumentsJson (includeCompactedMarkers : Bool) (arguments : Str) : Option Str :=
  if toolArgumentsAreInvalidProviderContext runtime arguments ||
      toolArgumentsContainProjection runtime arguments ||
      (includeCompactedMarkers && toolArgumentsHaveCompactedMarker runtime arguments) then
    some (dumps (obj invalidProviderContextArguments))
  else none

variable (settings : Settings)

/-! ### Arguments -/

def compactArgumentItem (preview : Bool) (p : Str × Json) : Json :=
  if p.1 = "path".toList ∧ preview = false then p.2
  else mapStr (compactArgumentString settings runtime preview) p.2

/-- The stub for arguments, with the ends of the text when they are asked for. -/
def argumentsStub (value : Str) : Str :=
  let stub : Dict :=
    [("note".toList, str "historical tool arguments omitted for provider context budget".toList),
      ("original_chars".toList, num (.ofNat value.length)),
      ("sha256".toList, str (runtime.sha256 value))]
  let previewChars := settings.stubPreviewChars
  let withPreviews := dumps (obj (stub ++
    [("preview_head".toList, str (value.take previewChars)),
      ("preview_tail".toList, str (lastChars previewChars value))]))
  if previewChars ≠ 0 ∧ previewChars * 2 < value.length ∧
      payloadChars (str withPreviews) < payloadChars (str value) then withPreviews
  else dumps (obj stub)

def compactToolArguments (preview : Bool) (value : Str) : Str :=
  let stubbed :=
    if value.length ≤ settings.tinyGuardChars then value
    else keepSmaller settings value (argumentsStub runtime settings value)
  if preview ∧ value.length ≤ 640 then value
  else
    match loads runtime.normal value with
    | some (.obj parsed) =>
        let compacted := parsed.map fun p => (p.1, compactArgumentItem runtime settings preview p)
        let changed := decide (compacted ≠ parsed)
        if preview && !changed && settings.neverWorse then value
        else if changed || !preview then keepSmaller settings value (dumps (obj compacted))
        else stubbed
    | _ => stubbed

/-- The stub for the arguments of an answered call, at the last tier. -/
def compactToolArgumentsForFinalCap (arguments : Str) : Str :=
  let stub : Dict := [(invalidProviderContextArgumentsKey.toList, .bool true)]
  let previewChars := settings.stubPreviewChars
  let withPreviews := dumps (obj (stub ++
    [("preview_head".toList, str (arguments.take previewChars)),
      ("preview_tail".toList, str (lastChars previewChars arguments))]))
  let stubJson :=
    if previewChars ≠ 0 ∧ previewChars * 2 < arguments.length ∧
        providerContextArgumentsJson runtime true arguments = none ∧
        payloadChars (str withPreviews) < payloadChars (str arguments) then withPreviews
    else dumps (obj stub)
  keepSmaller settings arguments stubJson

/-! ### Inputs -/

/-- The stub for an input that serializes to `raw`. -/
def inputStub (raw : Str) (value : Dict) : Dict :=
  let stub (head tail : Str) : Dict :=
    [("_opensquilla_compacted_tool_input".toList, .bool true),
      ("original_chars".toList, num (.ofNat raw.length)),
      ("sha256".toList, str (runtime.sha256 raw)),
      ("head".toList, str head),
      ("tail".toList, str tail)]
  let previewChars := settings.stubPreviewChars
  let extended := stub (raw.take (max previewChars 360)) (lastChars previewChars raw)
  if 120 < previewChars ∧ payloadChars (obj extended) < payloadChars (obj value) then extended
  else stub (raw.take 360) (lastChars 120 raw)

def compactToolInput (value : Dict) : Dict :=
  let raw := dumps (sortKeys (obj value))
  if hasProviderContextArgumentMarker runtime value then invalidProviderContextArguments
  else if hasProjectedValue value then invalidProviderContextArguments
  else if raw.length ≤ 640 then value
  else if raw.length ≤ settings.tinyGuardChars then value
  else
    let compacted :=
      value.map fun p => (p.1, mapStr (compactTailString settings runtime "tool_input".toList) p.2)
    if compacted ≠ value then compacted
    else if (120 < settings.stubPreviewChars ∨ settings.neverWorse = true) ∧
        isFinite (obj value) = false then
      -- Measuring the input raises here. It stays, and measuring the request raises the same.
      value
    else
      let stub := inputStub runtime settings raw value
      if keepOriginalForNeverWorse settings (obj value) (obj stub) then value else stub

end

end OpenStarry.RequestProof
