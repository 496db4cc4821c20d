import Mathlib.Data.List.Sort
import OpenStarry.Lib.Padded

/-!
# The model selector and its fallback chain

A selector has the stored configuration, the chain of configurations in use and the place in it.
Methods that also build a provider give the configuration they build it from; building it does not
change the selector. What the failover hook of a plugin answers is an argument of the call that
asks it. Entries of a router's fallback chain are anything; of a mapping only the two texts that are
read of it matter.
-/

namespace OpenStarry.Provider

open Lib Lib.Text

structure ProviderConfig where
  provider : Str
  model : Str
  apiKey : Str := []
  baseUrl : Str := []
  completeUrl : Str := []
  orgId : Str := []
  proxy : Str := []
  providerRouting : List (Str × Str) := []
  replayProviderState : Bool := true
  requestHeaders : List (Str × Str) := []
  deriving DecidableEq, Repr

structure SelectorConfig where
  primary : ProviderConfig
  fallbacks : List ProviderConfig := []
  deriving DecidableEq, Repr

def SelectorConfig.all (config : SelectorConfig) : List ProviderConfig :=
  config.primary :: config.fallbacks

/-- An entry of a router's fallback chain: `none` when it is no mapping. The texts are `str` of the
values, `none` for a value that is missing or falsy. -/
abbrev RouterEntry := Option (Option Str × Option Str)

namespace RouterEntry

def model (entry : Option Str × Option Str) : Option Str := entry.1

def provider (entry : Option Str × Option Str) : Option Str := entry.2

end RouterEntry

/-! ### Identities -/

structure Identity where
  provider : Str
  model : Str
  apiKey : Str
  baseUrl : Str
  orgId : Str
  proxy : Str
  replayProviderState : Bool
  providerRouting : List (Str × Str)
  requestHeaders : List (Str × Str)
  deriving DecidableEq

/-- `sorted` of pairs of texts. -/
def sortedPairs (pairs : List (Str × Str)) : List (Str × Str) :=
  pairs.insertionSort fun p q => before p.1 q.1 = true ∨ p.1 = q.1 ∧ notAfter p.2 q.2

section

variable (lower : Str → Str)

/-- `_provider_config_identity`. -/
def providerConfigIdentity (cfg : ProviderConfig) : Identity where
  provider := cfg.provider
  model := cfg.model
  apiKey := cfg.apiKey
  baseUrl := cfg.baseUrl
  orgId := cfg.orgId
  proxy := cfg.proxy
  replayProviderState := cfg.replayProviderState
  providerRouting := sortedPairs cfg.providerRouting
  requestHeaders := sortedPairs (cfg.requestHeaders.map fun p => (lower p.1, p.2))

def dedupe (seen : List Identity) : List ProviderConfig → List ProviderConfig
  | [] => []
  | cfg :: rest =>
      if providerConfigIdentity lower cfg ∈ seen then dedupe seen rest
      else cfg :: dedupe (providerConfigIdentity lower cfg :: seen) rest

end

/-- `_without_provider_state_replay`. -/
def withoutProviderStateReplay (cfg : ProviderConfig) : ProviderConfig :=
  { cfg with replayProviderState := false }

/-! ### The selector -/

structure ModelSelector where
  config : SelectorConfig
  chain : List ProviderConfig
  index : Nat
  index_lt : index < chain.length
  /-- Whether there is a plugin with a failover hook. -/
  hasFailoverHook : Bool
  providerStateReplayDisabled : Bool

inductive SelectorError where
  | noMoreFallbacks
  | noFallbackChain
  deriving DecidableEq, Repr

def SelectorError.text : SelectorError → Str
  | noMoreFallbacks => "No more provider fallbacks available".toList
  | noFallbackChain => "No fallback chain available".toList

namespace ModelSelector

/-- `__init__`. -/
def create (config : SelectorConfig) (hasFailoverHook : Bool) : ModelSelector where
  config := config
  chain := config.all
  index := 0
  index_lt := Nat.succ_pos _
  hasFailoverHook := hasFailoverHook
  providerStateReplayDisabled := false

variable (s : ModelSelector)

/-- `self._chain[self._index]`. -/
def current : ProviderConfig := s.chain.get ⟨s.index, s.index_lt⟩

/-- `self._chain[0]`. -/
def head : ProviderConfig := s.chain.get ⟨0, Nat.lt_of_le_of_lt (Nat.zero_le _) s.index_lt⟩

def tail : List ProviderConfig := s.chain.tail

def install (first : ProviderConfig) (rest : List ProviderConfig) : ModelSelector :=
  { s with chain := first :: rest, index := 0, index_lt := Nat.succ_pos _ }

def accept (cfg : ProviderConfig) : ProviderConfig :=
  if s.providerStateReplayDisabled then withoutProviderStateReplay cfg else cfg

def hasFallback : Bool := s.index < s.chain.length - 1

/-- `next_fallback`. -/
def nextFallback : ModelSelector × Except SelectorError ProviderConfig :=
  if h : s.index + 1 < s.chain.length then
    ({ s with index := s.index + 1, index_lt := h }, .ok (s.chain.get ⟨s.index + 1, h⟩))
  else (s, .error .noMoreFallbacks)

/-- `resolve_failover_chain`: the answer is `none` when the hook raises or gives `None`. -/
def resolveFailoverChain (answer : Option (List ProviderConfig)) : List ProviderConfig :=
  if s.hasFailoverHook then answer.getD s.config.fallbacks else s.config.fallbacks

/-- `next_fallback_after_failure`. -/
def nextFallbackAfterFailure (answer : Option (List ProviderConfig)) :
    ModelSelector × Except SelectorError ProviderConfig :=
  let chain := if s.hasFailoverHook then s.resolveFailoverChain answer
    else s.chain.drop (s.index + 1)
  match chain.map s.accept with
  | [] => (s, .error .noFallbackChain)
  | next :: rest =>
      ({ s with chain := s.current :: next :: rest, index := 1
                index_lt := Nat.succ_lt_succ (Nat.succ_pos _) }, .ok next)

/-- `reset`. -/
def reset : ModelSelector :=
  { s with index := 0, index_lt := Nat.lt_of_le_of_lt (Nat.zero_le _) s.index_lt }

/-- `sync_primary`. -/
def syncPrimary (cfg : ProviderConfig) : ModelSelector :=
  { s with config := { s.config with primary := s.accept cfg }, chain := s.accept cfg :: s.tail
           index := 0, index_lt := Nat.succ_pos _ }

/-- `disable_provider_state_replay`. -/
def disableProviderStateReplay : ModelSelector :=
  { s with
    providerStateReplayDisabled := true
    config := { primary := withoutProviderStateReplay s.config.primary
                fallbacks := s.config.fallbacks.map withoutProviderStateReplay }
    chain := s.chain.map withoutProviderStateReplay
    index_lt := by rw [List.length_map]; exact s.index_lt }

/-- `clone`. -/
def clone : ModelSelector :=
  { create s.config s.hasFailoverHook with
    providerStateReplayDisabled := s.providerStateReplayDisabled }

/-! Overrides compare identities. -/

variable (lower : Str → Str)

/-- `override_provider_config`. -/
def overrideProviderConfig (cfg : ProviderConfig) : ModelSelector :=
  s.install (s.accept cfg) (dedupe lower [providerConfigIdentity lower (s.accept cfg)] s.chain)

def forModel (cfg : ProviderConfig) (model : Str) : ProviderConfig where
  provider := cfg.provider
  model := model
  apiKey := cfg.apiKey
  baseUrl := cfg.baseUrl
  completeUrl := cfg.completeUrl
  orgId := cfg.orgId
  proxy := cfg.proxy
  requestHeaders := cfg.requestHeaders
  providerRouting := cfg.providerRouting
  replayProviderState := cfg.replayProviderState

/-- `override_model`. -/
def overrideModel (model : Str) : ModelSelector :=
  if model ≠ [] ∧ model ≠ s.head.model then
    s.install (forModel s.head model)
      (dedupe lower [providerConfigIdentity lower (forModel s.head model)] s.chain)
  else s

/-- `override_original_primary_model`. -/
def overrideOriginalPrimaryModel (model : Str) : ModelSelector :=
  let restored := { s.config.primary with
    model := if model = [] then s.config.primary.model else model }
  s.install restored
    (dedupe lower [providerConfigIdentity lower restored] (s.config.fallbacks ++ s.chain))

/-- The fallback that one entry of a router's chain stands for. -/
def routerFallback (entry : RouterEntry) : Option ProviderConfig :=
  match entry with
  | none => none
  | some fields =>
      let candidateModel := strip ((RouterEntry.model fields).getD [])
      if candidateModel = [] then none
      else
        let named := strip ((RouterEntry.provider fields).getD s.head.provider)
        let candidateProvider := if named = [] then s.head.provider else named
        -- The dict of the chain keeps the last configuration of a provider and model.
        match s.tail.reverse.find? fun cfg =>
            cfg.provider = candidateProvider ∧ cfg.model = candidateModel with
        | some existing => some existing
        | none =>
            if candidateProvider ≠ s.head.provider then none
            else some (forModel s.head candidateModel)

/-- `override_model_with_fallback_chain`. -/
def overrideModelWithFallbackChain (model : Str) (fallbackChain : List RouterEntry) :
    ModelSelector :=
  let s := s.overrideModel lower model
  if fallbackChain = [] then s
  else
    s.install s.head (dedupe lower [providerConfigIdentity lower s.head]
      (fallbackChain.filterMap s.routerFallback ++ s.tail))

end ModelSelector

end OpenStarry.Provider
