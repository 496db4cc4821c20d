import OpenStarry.RequestProof.Projection

/-!
# Proving a request, or compacting it

The payload is an object with an address. A pass copies it and changes only the copy, and the first
payload that fits is sent.
-/

namespace OpenStarry.RequestProof

open Lib Lib.Text Lib.Json

abbrev Objects := List Dict

abbrev PayloadM := EStateM RequestError Objects

def load (payload : Nat) : PayloadM Dict := do return ((← get)[payload]?).getD []

/-- `deepcopy(payload)`: an object of its own. -/
def deepcopy (payload : Nat) : PayloadM Nat := do
  let contents ← load payload
  modifyGet fun objects => (objects.length, objects ++ [contents])

def change (payload : Nat) (f : Dict → Dict) : PayloadM Unit :=
  modify fun objects => objects.modify payload f

def pass (f : Dict → Dict) (payload : Nat) : PayloadM Nat := do
  let compacted ← deepcopy payload
  change compacted f
  return compacted

section

variable (runtime : Runtime) (settings : Settings) (request : Request)

/-- `_scrub_leaked_tool_argument_projections_once`: the copy, when something changed. -/
def scrubOnce (payload : Nat) : PayloadM (Nat × Bool) := do
  let contents ← load payload
  let compacted ← pass (fun contents => (scrubLeakedToolArgumentProjections runtime settings contents).1)
    payload
  if (scrubLeakedToolArgumentProjections runtime settings contents).2 then return (compacted, true)
  else return (payload, false)

def sendOr (payload : Nat) (stamp : Dict → BudgetProof → BudgetProof)
    (refusal : BudgetProof → PayloadM (Nat × Option BudgetProof)) :
    PayloadM (Nat × Option BudgetProof) := do
  let contents ← load payload
  match proveProviderPayload runtime request contents with
  | .ok proof => return (payload, some (stamp contents proof))
  | .error (.budgetExceeded proof) => refusal proof
  | .error .notJson => throw .notJson

def tierPass : Nat → Dict → Dict
  | 1 => compactToolPayload runtime settings request.protectedToolResultIndexes
  | 2 => fun payload =>
      (compactRecentTailPayload runtime settings request.protectedToolResultIndexes payload).1
  | 3 => emergencyCompactCurrentTurnPayload runtime settings request.activeUserMessageIndex
      request.protectedToolResultIndexes
  | _ => finalHardCapPayload runtime settings request.activeUserMessageIndex
      request.protectedToolResultIndexes

def BudgetProof.scrubbed (changed : Bool) (proof : BudgetProof) : BudgetProof :=
  { proof with
    compactNeeded := proof.compactNeeded || changed
    toolArgumentProjectionScrubbed := changed }

def BudgetProof.stamped (tier firstChars chars : Nat) (aggregate : Bool) (proof : BudgetProof) :
    BudgetProof :=
  { proof with
    retryCount := tier
    compactNeeded := true
    compactionTier := tier
    compactionNotSmaller := decide (firstChars ≤ chars)
    aggregateToolArgumentsCompacted := aggregate }

def proveOrCompactProviderPayload (payload : Nat) : PayloadM (Nat × Option BudgetProof) := do
  if request.proofBudget ≤ 0 then
    if isFinite (.obj (← load payload)) then return (payload, none) else throw .notJson
  else if !request.envelope.allowRequestCompaction then
    sendOr runtime request payload (fun _ proof => proof) fun refused =>
      throw (.budgetExceeded refused)
  else
    let (payload, scrubbed) ← scrubOnce runtime settings payload
    sendOr runtime request payload (fun _ => BudgetProof.scrubbed scrubbed) fun first => do
    let stamped (tier : Nat) (aggregate : Bool) (contents : Dict) :=
      BudgetProof.stamped tier first.estimatedChars (payloadChars (.obj contents)) aggregate
    let toolCompacted ← pass (tierPass runtime settings request 1) payload
    sendOr runtime request toolCompacted (stamped 1 false) fun _ => do
    let aggregate := (compactRecentTailPayload runtime settings request.protectedToolResultIndexes
      (← load toolCompacted)).2
    let tailCompacted ← pass (tierPass runtime settings request 2) toolCompacted
    sendOr runtime request tailCompacted (stamped 2 aggregate) fun _ => do
    let emergencyCompacted ← pass (tierPass runtime settings request 3) tailCompacted
    sendOr runtime request emergencyCompacted (stamped 3 aggregate) fun refused => do
    let contents ← load emergencyCompacted
    let hardCompacted ← pass (tierPass runtime settings request 4) emergencyCompacted
    sendOr runtime request hardCompacted (stamped 4 aggregate) fun _ =>
      -- The refusal that is raised is the one of the third tier.
      throw (.budgetExceeded (stamped 4 false contents refused))

def sentPayload : EStateM.Result RequestError Objects (Nat × Option BudgetProof) → Option Dict
  | .ok (out, _) objects => objects[out]?
  | .error _ _ => none

/-- A proof as `project_provider_payload` made it. -/
def BudgetProof.measured (proof : BudgetProof) : BudgetProof :=
  { proof with
    retryCount := 0
    compactNeeded := !proof.fits
    compactionTier := 0
    compactionNotSmaller := false
    toolArgumentProjectionScrubbed := false
    aggregateToolArgumentsCompacted := false }

def tierPayload (payload : Dict) : Nat → Dict
  | 0 => (scrubLeakedToolArgumentProjections runtime settings payload).1
  | tier + 1 => tierPass runtime settings request (tier + 1) (tierPayload payload tier)

/-! ### What a run does -/

variable {runtime settings request}

theorem run_load {objects : Objects} {payload : Nat} {contents : Dict}
    (hpayload : objects[payload]? = some contents) :
    load payload objects = .ok contents objects := by
  have hload : load payload objects = .ok ((objects[payload]?).getD []) objects := rfl
  rw [hload, hpayload]
  rfl

theorem run_bind {α β : Type} {x : PayloadM α} {f : α → PayloadM β} {objects objects' : Objects}
    {a : α} (hrun : x objects = .ok a objects') : (x >>= f) objects = f a objects' := by
  simp only [bind, EStateM.bind, hrun]

theorem run_pass {objects : Objects} {payload : Nat} {contents : Dict}
    (hpayload : objects[payload]? = some contents) (f : Dict → Dict) :
    pass f payload objects = .ok objects.length (objects ++ [f contents]) := by
  have hcopy : deepcopy payload objects = .ok objects.length (objects ++ [contents]) :=
    run_bind (run_load hpayload)
  have hchange : (objects ++ [contents]).modify objects.length f = objects ++ [f contents] := by
    simp [List.modify_eq_set_getElem?]
  rw [pass, run_bind hcopy, run_bind (a := ())]
  · rfl
  · rw [← hchange]
    rfl

theorem exists_run_scrubOnce (runtime : Runtime) (settings : Settings) (request : Request)
    {objects : Objects} {payload : Nat} {contents : Dict}
    (hpayload : objects[payload]? = some contents) :
    ∃ out scrubbed, scrubOnce runtime settings payload objects =
        .ok (out, scrubbed) (objects ++ [(scrubLeakedToolArgumentProjections runtime settings contents).1]) ∧
      (objects ++ [(scrubLeakedToolArgumentProjections runtime settings contents).1])[out]? =
        some (tierPayload runtime settings request contents 0) := by
  rw [scrubOnce, run_bind (run_load hpayload), run_bind (run_pass hpayload _)]
  cases hchanged : (scrubLeakedToolArgumentProjections runtime settings contents).2 with
  | true =>
      refine ⟨objects.length, true, rfl, ?_⟩
      rw [List.getElem?_concat_length]
      rfl
  | false =>
      refine ⟨payload, false, rfl, ?_⟩
      have hsame : (scrubLeakedToolArgumentProjections runtime settings contents).1 = contents := by
        unfold scrubLeakedToolArgumentProjections at hchanged ⊢
        split_ifs at hchanged ⊢
        rfl
      have hin : payload < objects.length := (List.getElem?_eq_some_iff.mp hpayload).1
      rw [List.getElem?_append_left hin, hpayload, tierPayload, hsame]

theorem project_cases (runtime : Runtime) (request : Request) (contents : Dict) :
    (∃ proof, projectProviderPayload runtime request contents = .ok proof ∧ proof.measured = proof) ∨
      projectProviderPayload runtime request contents = .error .notJson ∧
        isFinite (.obj contents) = false := by
  rw [projectProviderPayload]
  by_cases hfinite : isFinite (.obj contents) = false
  · rw [if_pos hfinite]
    exact .inr ⟨rfl, hfinite⟩
  · rw [if_neg hfinite]
    exact .inl ⟨_, rfl, rfl⟩

variable (runtime settings request)

/-- `project_provider_payload` measures the payload, and it does not fit. -/
def Refused (payload : Dict) : Prop :=
  ∃ proof, projectProviderPayload runtime request payload = .ok proof ∧ proof.fits = false

/-- What a run may end with when the payloads of the tiers from `first` on are still to be tried:
the first one that fits with a proof of its own, or a refusal when none does. -/
def Settles (tiers : Nat → Dict) (first : Nat) (objects : Objects) :
    EStateM.Result RequestError Objects (Nat × Option BudgetProof) → Prop
  | .ok (out, proof) objects' =>
      objects <+: objects' ∧ ∃ tier, first ≤ tier ∧ tier ≤ 4 ∧ objects'[out]? = some (tiers tier) ∧
        (∃ sent, proof = some sent ∧ sent.fits = true ∧ sent.compactionTier = tier ∧
          projectProviderPayload runtime request (tiers tier) = .ok sent.measured) ∧
        ∀ earlier, first ≤ earlier → earlier < tier → Refused runtime request (tiers earlier)
  | .error (.budgetExceeded _) objects' =>
      objects <+: objects' ∧
        ∀ tier, first ≤ tier → tier ≤ 4 → Refused runtime request (tiers tier)
  | .error .notJson objects' =>
      objects <+: objects' ∧ ∃ tier ≤ 4, isFinite (.obj (tiers tier)) = false

variable {runtime settings request}

theorem Settles.of_prefix {tiers : Nat → Dict} {first : Nat} {objects later : Objects}
    {result : EStateM.Result RequestError Objects (Nat × Option BudgetProof)}
    (hbegins : objects <+: later) (h : Settles runtime request tiers first later result) :
    Settles runtime request tiers first objects result := by
  match result, h with
  | .ok _ _, h => exact ⟨hbegins.trans h.1, h.2⟩
  | .error (.budgetExceeded _) _, h => exact ⟨hbegins.trans h.1, h.2⟩
  | .error .notJson _, h => exact ⟨hbegins.trans h.1, h.2⟩

theorem settles_sendOr {tiers : Nat → Dict} {tier : Nat} {objects : Objects} {payload : Nat}
    {stamp : Dict → BudgetProof → BudgetProof}
    {refusal : BudgetProof → PayloadM (Nat × Option BudgetProof)}
    (hpayload : objects[payload]? = some (tiers tier)) (htier : tier ≤ 4)
    (hstamp : ∀ proof, proof.measured = proof → (stamp (tiers tier) proof).measured = proof ∧
      (stamp (tiers tier) proof).fits = proof.fits ∧
      (stamp (tiers tier) proof).compactionTier = tier)
    (hrefusal : ∀ proof,
      Settles runtime request tiers (tier + 1) objects (refusal proof objects)) :
    Settles runtime request tiers tier objects
      (sendOr runtime request payload stamp refusal objects) := by
  rw [sendOr, run_bind (run_load hpayload), proveProviderPayload]
  obtain ⟨proof, hproject, hmeasured⟩ | ⟨hproject, hfinite⟩ :=
    project_cases runtime request (tiers tier)
  · rw [hproject]
    dsimp only
    cases hfits : proof.fits with
    | true =>
        obtain ⟨hsame, hstampFits, hstampTier⟩ := hstamp proof hmeasured
        exact ⟨List.prefix_rfl, tier, le_rfl, htier, hpayload,
          ⟨_, rfl, hstampFits.trans hfits, hstampTier, by rw [hsame, hproject]⟩,
          fun earlier hfirst hlast => absurd hlast (by omega)⟩
    | false =>
        have hrefused : Refused runtime request (tiers tier) := ⟨proof, hproject, hfits⟩
        have hnext := hrefusal proof
        change Settles runtime request tiers tier objects (refusal proof objects)
        match refusal proof objects, hnext with
        | .ok _ _, ⟨hbegins, sent, hfirst, hlast, hout, hproof, hearlier⟩ =>
            refine ⟨hbegins, sent, by omega, hlast, hout, hproof, fun earlier hle hlt => ?_⟩
            obtain rfl | hne := Nat.eq_or_lt_of_le hle
            · exact hrefused
            · exact hearlier earlier hne hlt
        | .error (.budgetExceeded _) _, ⟨hbegins, hall⟩ =>
            refine ⟨hbegins, fun other hle hlt => ?_⟩
            obtain rfl | hne := Nat.eq_or_lt_of_le hle
            · exact hrefused
            · exact hall other hne hlt
        | .error .notJson _, h => exact h
  · rw [hproject]
    exact ⟨List.prefix_rfl, tier, htier, hfinite⟩

theorem settles_pass {tiers : Nat → Dict} {tier : Nat} {objects : Objects} {payload : Nat}
    {contents : Dict} {f : Dict → Dict} {next : Nat → PayloadM (Nat × Option BudgetProof)}
    (hpayload : objects[payload]? = some contents)
    (hnext : Settles runtime request tiers tier (objects ++ [f contents])
      (next objects.length (objects ++ [f contents]))) :
    Settles runtime request tiers tier objects ((pass f payload >>= next) objects) := by
  rw [run_bind (run_pass hpayload f)]
  exact hnext.of_prefix (List.prefix_append _ _)

theorem settles_proveOrCompactProviderPayload (runtime : Runtime) (settings : Settings)
    {objects : Objects} {payload : Nat} {contents : Dict}
    (hpayload : objects[payload]? = some contents) (hbudget : 0 < request.proofBudget)
    (hallow : request.envelope.allowRequestCompaction = true) :
    Settles runtime request (tierPayload runtime settings request contents) 0 objects
      (proveOrCompactProviderPayload runtime settings request payload objects) := by
  have hlast (objects : Objects) (contents : Dict) : (objects ++ [contents])[objects.length]? = some contents :=
    List.getElem?_concat_length
  obtain ⟨out, scrubbed, hscrub, hout⟩ :=
    exists_run_scrubOnce runtime settings request hpayload
  rw [proveOrCompactProviderPayload, if_neg (by omega), if_neg (by simp [hallow]), run_bind hscrub]
  apply Settles.of_prefix (List.prefix_append _ _)
  apply settles_sendOr hout (by omega) (fun proof hproof => ⟨hproof, rfl, ?_⟩)
  · intro first
    apply settles_pass hout
    apply settles_sendOr (hlast _ _) (by omega) (fun proof hproof => ⟨hproof, rfl, rfl⟩)
    intro _
    rw [run_bind (run_load (hlast _ _))]
    apply settles_pass (hlast _ _)
    apply settles_sendOr (hlast _ _) (by omega) (fun proof hproof => ⟨hproof, rfl, rfl⟩)
    intro _
    apply settles_pass (hlast _ _)
    apply settles_sendOr (hlast _ _) (by omega) (fun proof hproof => ⟨hproof, rfl, rfl⟩)
    intro refused
    rw [run_bind (run_load (hlast _ _))]
    apply settles_pass (hlast _ _)
    apply settles_sendOr (hlast _ _) (by omega) (fun proof hproof => ⟨hproof, rfl, rfl⟩)
    intro _
    exact ⟨List.prefix_rfl, fun tier hfirst hlast => absurd hlast (by omega)⟩
  · rw [← hproof]
    rfl

end

end OpenStarry.RequestProof
