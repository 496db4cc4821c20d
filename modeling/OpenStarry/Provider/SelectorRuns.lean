import OpenStarry.Provider.Selector

/-!
# Whole runs of a selector and its clones

A run makes calls on a selector and on clones of it, in any order. Every configuration in use keeps
the endpoint and the credentials of one that was supplied; once replay is disabled it stays off in
the selector and in every clone that descends from it.
-/

namespace OpenStarry.Provider

open Lib Lib.Text

/-! ### Calls -/

inductive Call where
  | overrideProviderConfig (cfg : ProviderConfig)
  | overrideModel (model : Str)
  | overrideModelWithFallbackChain (model : Str) (fallbackChain : List RouterEntry)
  | overrideOriginalPrimaryModel (model : Str)
  | syncPrimary (cfg : ProviderConfig)
  | nextFallback
  | nextFallbackAfterFailure (answer : Option (List ProviderConfig))
  | reset
  | disableProviderStateReplay

def Call.supplies : Call → List ProviderConfig
  | .overrideProviderConfig cfg | .syncPrimary cfg => [cfg]
  | .nextFallbackAfterFailure answer => answer.getD []
  | _ => []

section

variable (lower : Str → Str)

/-- The selector after a call. -/
def Call.run (s : ModelSelector) : Call → ModelSelector
  | .overrideProviderConfig cfg => s.overrideProviderConfig lower cfg
  | .overrideModel model => s.overrideModel lower model
  | .overrideModelWithFallbackChain model fallbackChain =>
      s.overrideModelWithFallbackChain lower model fallbackChain
  | .overrideOriginalPrimaryModel model => s.overrideOriginalPrimaryModel lower model
  | .syncPrimary cfg => s.syncPrimary cfg
  | .nextFallback => s.nextFallback.1
  | .nextFallbackAfterFailure answer => (s.nextFallbackAfterFailure answer).1
  | .reset => s.reset
  | .disableProviderStateReplay => s.disableProviderStateReplay

/-! ### Runs -/

/-- A call on one of the selectors, or a clone of it, which is put behind the others. -/
inductive Action where
  | call (i : Nat) (call : Call)
  | clone (i : Nat)

def Action.supplies : Action → List ProviderConfig
  | .call _ c => c.supplies
  | .clone _ => []

def Action.step (pool : List ModelSelector) : Action → List ModelSelector
  | .call i c => pool.modify i fun s => c.run lower s
  | .clone i => pool ++ (pool[i]?.map ModelSelector.clone).toList

def run (pool : List ModelSelector) (actions : List Action) : List ModelSelector :=
  actions.foldl (Action.step lower) pool

def markClones (marked : List Nat) (size : Nat) : List Action → List Nat
  | [] => marked
  | .call _ _ :: rest => markClones marked size rest
  | .clone i :: rest =>
      if i < size then markClones (if i ∈ marked then marked ++ [size] else marked) (size + 1) rest
      else markClones marked size rest

end

/-! ### What a selector keeps -/

/-- What must come from one configuration. -/
structure Endpoint where
  provider : Str
  apiKey : Str
  baseUrl : Str
  completeUrl : Str
  orgId : Str
  proxy : Str
  requestHeaders : List (Str × Str)
  deriving DecidableEq

def ProviderConfig.endpoint (cfg : ProviderConfig) : Endpoint :=
  ⟨cfg.provider, cfg.apiKey, cfg.baseUrl, cfg.completeUrl, cfg.orgId, cfg.proxy, cfg.requestHeaders⟩

def ModelSelector.configurations (s : ModelSelector) : List ProviderConfig :=
  s.chain ++ s.config.all

def IgnoresModel (P : ProviderConfig → Prop) : Prop :=
  ∀ cfg model, P cfg → P { cfg with model }

def ModelSelector.All (s : ModelSelector) (P : ProviderConfig → Prop) : Prop :=
  ∀ cfg ∈ s.configurations, P cfg

section

variable {P : ProviderConfig → Prop} {s : ModelSelector}

theorem all_iff : s.All P ↔
    (∀ cfg ∈ s.chain, P cfg) ∧ P s.config.primary ∧ ∀ cfg ∈ s.config.fallbacks, P cfg := by
  rw [ModelSelector.All, ModelSelector.configurations, List.forall_mem_append, SelectorConfig.all,
    List.forall_mem_cons]

theorem mem_of_mem_dedupe {lower : Str → Str} {seen : List Identity} {cfg : ProviderConfig}
    {candidates : List ProviderConfig} (h : cfg ∈ dedupe lower seen candidates) :
    cfg ∈ candidates := by
  induction candidates generalizing seen with
  | nil => exact h
  | cons first rest ih =>
      rw [dedupe] at h
      split_ifs at h with hseen
      · exact List.mem_cons_of_mem _ (ih h)
      · obtain h | h := List.mem_cons.mp h
        · exact h ▸ List.mem_cons_self
        · exact List.mem_cons_of_mem _ (ih h)

theorem head_mem (s : ModelSelector) : s.head ∈ s.chain := List.get_mem _ _

theorem current_mem (s : ModelSelector) : s.current ∈ s.chain := List.get_mem _ _

theorem all_install {lower : Str → Str} {first : ProviderConfig} {seen : List Identity}
    {candidates : List ProviderConfig} (h : s.All P) (hfirst : P first)
    (hcandidates : ∀ cfg ∈ candidates, P cfg) :
    (s.install first (dedupe lower seen candidates)).All P := by
  obtain ⟨-, hconfig⟩ := all_iff.mp h
  rw [all_iff]
  refine ⟨List.forall_mem_cons.mpr ⟨hfirst, fun cfg hcfg => ?_⟩, hconfig⟩
  exact hcandidates cfg (mem_of_mem_dedupe hcfg)

end

/-! ### What a call keeps -/

section

variable {P : ProviderConfig → Prop} (hmodel : IgnoresModel P) {lower : Str → Str}
  {s : ModelSelector}

include hmodel

theorem all_overrideModel (h : s.All P) (model : Str) : (s.overrideModel lower model).All P := by
  have hchain := (all_iff.mp h).1
  unfold ModelSelector.overrideModel
  split_ifs
  · exact all_install h (hmodel _ _ (hchain _ (head_mem s))) hchain
  · exact h

theorem routerFallback_of_all (h : s.All P) {entry : RouterEntry} {cfg : ProviderConfig}
    (hcfg : s.routerFallback entry = some cfg) : P cfg := by
  have hchain := (all_iff.mp h).1
  unfold ModelSelector.routerFallback at hcfg
  cases entry with
  | none => exact absurd hcfg nofun
  | some fields =>
      dsimp only at hcfg
      by_cases hnone : strip ((RouterEntry.model fields).getD []) = []
      · rw [if_pos hnone] at hcfg
        exact absurd hcfg nofun
      · rw [if_neg hnone] at hcfg
        generalize (if strip ((RouterEntry.provider fields).getD s.head.provider) = [] then
          s.head.provider else strip ((RouterEntry.provider fields).getD s.head.provider)) =
            candidateProvider at hcfg
        split at hcfg
        · rename_i existing hfound
          obtain rfl := Option.some.inj hcfg
          have hmem := List.mem_reverse.mp (List.mem_of_find?_eq_some hfound)
          exact hchain _ (List.mem_of_mem_tail hmem)
        · split_ifs at hcfg
          obtain rfl := Option.some.inj hcfg
          exact hmodel _ _ (hchain _ (head_mem s))

theorem all_overrideModelWithFallbackChain (h : s.All P) (model : Str)
    (fallbackChain : List RouterEntry) :
    (s.overrideModelWithFallbackChain lower model fallbackChain).All P := by
  have hoverridden := @all_overrideModel _ hmodel lower _ h model
  have hchain := (all_iff.mp hoverridden).1
  unfold ModelSelector.overrideModelWithFallbackChain
  dsimp only
  split_ifs
  · exact hoverridden
  · refine all_install hoverridden (hchain _ (head_mem _)) ?_
    rw [List.forall_mem_append]
    constructor
    · intro cfg hcfg
      obtain ⟨entry, -, hentry⟩ := List.mem_filterMap.mp hcfg
      exact routerFallback_of_all hmodel hoverridden hentry
    · exact fun cfg hcfg => hchain cfg (List.mem_of_mem_tail hcfg)

theorem all_overrideOriginalPrimaryModel (h : s.All P) (model : Str) :
    (s.overrideOriginalPrimaryModel lower model).All P := by
  obtain ⟨hchain, hprimary, hfallbacks⟩ := all_iff.mp h
  unfold ModelSelector.overrideOriginalPrimaryModel
  exact all_install h (hmodel _ _ hprimary) (List.forall_mem_append.mpr ⟨hfallbacks, hchain⟩)

end

def KeptWithoutReplay (P : ProviderConfig → Prop) : Prop :=
  ∀ cfg, P cfg → P (withoutProviderStateReplay cfg)

section

variable {P : ProviderConfig → Prop} (hkept : KeptWithoutReplay P) {s : ModelSelector}

include hkept

theorem accept_of {cfg : ProviderConfig} (h : P cfg) : P (s.accept cfg) := by
  unfold ModelSelector.accept
  split_ifs
  · exact hkept cfg h
  · exact h

theorem all_disable (h : s.All P) : s.disableProviderStateReplay.All P := by
  obtain ⟨hchain, hprimary, hfallbacks⟩ := all_iff.mp h
  rw [all_iff]
  exact ⟨List.forall_mem_map.mpr fun cfg hcfg => hkept cfg (hchain cfg hcfg), hkept _ hprimary,
    List.forall_mem_map.mpr fun cfg hcfg => hkept cfg (hfallbacks cfg hcfg)⟩

theorem all_nextFallbackAfterFailure (h : s.All P) {answer : Option (List ProviderConfig)}
    (hanswer : ∀ cfg ∈ answer.getD [], P (s.accept cfg)) :
    (s.nextFallbackAfterFailure answer).1.All P := by
  obtain ⟨hchain, hprimary, hfallbacks⟩ := all_iff.mp h
  have hstored : ∀ cfg ∈ s.config.fallbacks, P (s.accept cfg) :=
    fun cfg hcfg => accept_of hkept (hfallbacks cfg hcfg)
  have hnext : ∀ cfg ∈ (if s.hasFailoverHook then s.resolveFailoverChain answer
      else s.chain.drop (s.index + 1)).map s.accept, P cfg := by
    rw [List.forall_mem_map]
    intro cfg hcfg
    split_ifs at hcfg with hhook
    · rw [ModelSelector.resolveFailoverChain, if_pos hhook] at hcfg
      cases answer with
      | none => exact hstored cfg hcfg
      | some chain => exact hanswer cfg hcfg
    · exact accept_of hkept (hchain cfg (List.mem_of_mem_drop hcfg))
  unfold ModelSelector.nextFallbackAfterFailure
  dsimp only
  split
  · exact h
  · rename_i next rest hrest
    rw [hrest] at hnext
    rw [all_iff]
    exact ⟨List.forall_mem_cons.mpr ⟨hchain _ (current_mem s), hnext⟩, hprimary, hfallbacks⟩

theorem all_run (hmodel : IgnoresModel P) {lower : Str → Str} {c : Call} (h : s.All P)
    (hsupplied : ∀ cfg ∈ c.supplies, P (s.accept cfg)) : (c.run lower s).All P := by
  obtain ⟨hchain, hprimary, hfallbacks⟩ := all_iff.mp h
  cases c with
  | overrideProviderConfig cfg =>
      exact all_install h (hsupplied cfg List.mem_cons_self) hchain
  | overrideModel model => exact all_overrideModel hmodel h model
  | overrideModelWithFallbackChain model fallbackChain =>
      exact all_overrideModelWithFallbackChain hmodel h model fallbackChain
  | overrideOriginalPrimaryModel model => exact all_overrideOriginalPrimaryModel hmodel h model
  | syncPrimary cfg =>
      have hcfg := hsupplied cfg List.mem_cons_self
      exact all_iff.mpr ⟨List.forall_mem_cons.mpr
        ⟨hcfg, fun other hother => hchain other (List.mem_of_mem_tail hother)⟩, hcfg, hfallbacks⟩
  | nextFallback =>
      show s.nextFallback.1.All P
      unfold ModelSelector.nextFallback
      split_ifs
      · exact h
      · exact h
  | nextFallbackAfterFailure answer => exact all_nextFallbackAfterFailure hkept h hsupplied
  | reset => exact h
  | disableProviderStateReplay => exact all_disable hkept h

end

theorem all_clone {P : ProviderConfig → Prop} {s : ModelSelector} (h : s.All P) :
    s.clone.All P := by
  obtain ⟨-, hconfig⟩ := all_iff.mp h
  exact all_iff.mpr ⟨List.forall_mem_cons.mpr hconfig, hconfig⟩

/-! ### Endpoints -/

def TakenWhole (supplied : List ProviderConfig) (cfg : ProviderConfig) : Prop :=
  ∃ source ∈ supplied, cfg.endpoint = source.endpoint

theorem TakenWhole.mono {supplied more : List ProviderConfig} {cfg : ProviderConfig}
    (h : TakenWhole supplied cfg) (hmore : ∀ source ∈ supplied, source ∈ more) :
    TakenWhole more cfg := by
  obtain ⟨source, hsource, hsame⟩ := h
  exact ⟨source, hmore source hsource, hsame⟩

theorem ignoresModel_takenWhole (supplied : List ProviderConfig) :
    IgnoresModel (TakenWhole supplied) := fun _ _ h => h

theorem kept_takenWhole (supplied : List ProviderConfig) :
    KeptWithoutReplay (TakenWhole supplied) := fun _ h => h

theorem ModelSelector.All.imp {P Q : ProviderConfig → Prop} {s : ModelSelector} (h : s.All P)
    (hPQ : ∀ cfg, P cfg → Q cfg) : s.All Q := fun cfg hcfg => hPQ cfg (h cfg hcfg)

section

variable {lower : Str → Str} {pool : List ModelSelector}

theorem mem_step {action : Action} {s : ModelSelector} (h : s ∈ action.step lower pool) :
    s ∈ pool ∨ (∃ i c, action = .call i c ∧ ∃ s₀ ∈ pool, s = c.run lower s₀) ∨
      ∃ s₀ ∈ pool, s = s₀.clone := by
  cases action with
  | call i c =>
      obtain ⟨k, hk, hs⟩ := List.mem_iff_getElem.mp h
      simp only [Action.step, List.length_modify] at hk
      simp only [Action.step, List.getElem_modify] at hs
      split_ifs at hs
      · exact Or.inr (Or.inl ⟨i, c, rfl, pool[k], List.getElem_mem hk, hs.symm⟩)
      · exact Or.inl (hs ▸ List.getElem_mem hk)
  | clone i =>
      obtain h | h := List.mem_append.mp h
      · exact Or.inl h
      · rw [Option.mem_toList] at h
        obtain ⟨s₀, hs₀, hs⟩ := Option.map_eq_some_iff.mp h
        exact Or.inr (Or.inr ⟨s₀, List.mem_of_getElem? hs₀, hs.symm⟩)

theorem takenWhole_step {supplied : List ProviderConfig} {action : Action}
    (h : ∀ s ∈ pool, s.All (TakenWhole supplied)) :
    ∀ s ∈ action.step lower pool, s.All (TakenWhole (supplied ++ action.supplies)) := by
  have hmore : ∀ s ∈ pool, s.All (TakenWhole (supplied ++ action.supplies)) :=
    fun s hs => (h s hs).imp fun cfg hcfg => hcfg.mono fun _ hsource =>
      List.mem_append_left _ hsource
  intro s hs
  obtain hs | ⟨i, c, rfl, s₀, hs₀, rfl⟩ | ⟨s₀, hs₀, rfl⟩ := mem_step hs
  · exact hmore s hs
  · apply all_run (kept_takenWhole _) (ignoresModel_takenWhole _) (hmore s₀ hs₀)
    intro cfg hcfg
    apply accept_of (kept_takenWhole _)
    exact ⟨cfg, List.mem_append_right _ hcfg, rfl⟩
  · exact all_clone (hmore s₀ hs₀)

theorem takenWhole_run {supplied : List ProviderConfig} (actions : List Action)
    (h : ∀ s ∈ pool, s.All (TakenWhole supplied)) :
    ∀ s ∈ run lower pool actions,
      s.All (TakenWhole (supplied ++ actions.flatMap Action.supplies)) := by
  induction actions generalizing pool supplied with
  | nil =>
      rw [List.flatMap_nil, List.append_nil]
      exact h
  | cons action actions ih =>
      rw [List.flatMap_cons, ← List.append_assoc]
      exact ih (takenWhole_step h)

end

/-! ### Replay -/

def ReplayOff (cfg : ProviderConfig) : Prop := cfg.replayProviderState = false

def ModelSelector.Silenced (s : ModelSelector) : Prop :=
  s.providerStateReplayDisabled = true ∧ s.All ReplayOff

theorem silenced_disable (s : ModelSelector) : s.disableProviderStateReplay.Silenced := by
  refine ⟨rfl, all_iff.mpr ⟨?_, rfl, ?_⟩⟩
  · exact List.forall_mem_map.mpr fun _ _ => rfl
  · exact List.forall_mem_map.mpr fun _ _ => rfl

theorem replayDisabled_run (lower : Str → Str) {s : ModelSelector}
    (h : s.providerStateReplayDisabled = true) (c : Call) :
    (c.run lower s).providerStateReplayDisabled = true := by
  have hoverride : ∀ model, (s.overrideModel lower model).providerStateReplayDisabled = true := by
    intro model
    unfold ModelSelector.overrideModel
    split_ifs
    · exact h
    · exact h
  cases c with
  | overrideModel model => exact hoverride model
  | overrideModelWithFallbackChain model fallbackChain =>
      show (s.overrideModelWithFallbackChain lower model fallbackChain).providerStateReplayDisabled
        = true
      unfold ModelSelector.overrideModelWithFallbackChain
      dsimp only
      split_ifs
      · exact hoverride model
      · exact hoverride model
  | nextFallback =>
      show s.nextFallback.1.providerStateReplayDisabled = true
      unfold ModelSelector.nextFallback
      split_ifs
      · exact h
      · exact h
  | nextFallbackAfterFailure answer =>
      show (s.nextFallbackAfterFailure answer).1.providerStateReplayDisabled = true
      unfold ModelSelector.nextFallbackAfterFailure
      dsimp only
      split
      · exact h
      · exact h
  | overrideProviderConfig cfg => exact h
  | overrideOriginalPrimaryModel model => exact h
  | syncPrimary cfg => exact h
  | reset => exact h
  | disableProviderStateReplay => rfl

theorem ModelSelector.Silenced.run {lower : Str → Str} {s : ModelSelector} (h : s.Silenced)
    (c : Call) : (c.run lower s).Silenced := by
  refine ⟨replayDisabled_run lower h.1 c, all_run (fun _ _ => rfl) (fun _ _ h => h) h.2 ?_⟩
  intro cfg _
  rw [ModelSelector.accept, if_pos h.1]
  rfl

theorem ModelSelector.Silenced.clone {s : ModelSelector} (h : s.Silenced) : s.clone.Silenced :=
  ⟨h.1, all_clone h.2⟩

section

variable {lower : Str → Str} {marked : List Nat} {pool : List ModelSelector}

def Quiet (marked : List Nat) (pool : List ModelSelector) : Prop :=
  ∀ k ∈ marked, ∃ s, pool[k]? = some s ∧ s.Silenced

theorem quiet_call (h : Quiet marked pool) (i : Nat) (c : Call) :
    Quiet marked ((Action.call i c).step lower pool) := by
  intro k hk
  obtain ⟨s, hs, hsilenced⟩ := h k hk
  rw [Action.step, List.getElem?_modify, hs]
  by_cases hik : i = k
  · exact ⟨c.run lower s, by simp [hik], hsilenced.run c⟩
  · exact ⟨s, by simp [hik], hsilenced⟩

theorem quiet_clone (h : Quiet marked pool) {i : Nat} (hi : i < pool.length) :
    Quiet (if i ∈ marked then marked ++ [pool.length] else marked)
      ((Action.clone i).step lower pool) := by
  have hget : pool[i]? = some pool[i] := List.getElem?_eq_getElem hi
  have hold : ∀ k ∈ marked, ∃ s, ((Action.clone i).step lower pool)[k]? = some s ∧ s.Silenced := by
    intro k hk
    obtain ⟨s, hs, hsilenced⟩ := h k hk
    have hlt : k < pool.length := (List.getElem?_eq_some_iff.mp hs).1
    rw [Action.step, List.getElem?_append_left hlt]
    exact ⟨s, hs, hsilenced⟩
  split_ifs with hmarked
  · intro k hk
    obtain hk | hk := List.mem_append.mp hk
    · exact hold k hk
    · obtain ⟨s, hs, hsilenced⟩ := h i hmarked
      rw [List.mem_singleton.mp hk, Action.step, hs, List.getElem?_append_right (Nat.le_refl _),
        Nat.sub_self]
      exact ⟨s.clone, rfl, hsilenced.clone⟩
  · exact hold

theorem quiet_run (actions : List Action) (h : Quiet marked pool) :
    Quiet (markClones marked pool.length actions) (run lower pool actions) := by
  induction actions generalizing marked pool with
  | nil => exact h
  | cons action actions ih =>
      cases action with
      | call i c =>
          have hlength : ((Action.call i c).step lower pool).length = pool.length :=
            List.length_modify ..
          have hrest := ih (@quiet_call lower marked pool h i c)
          rw [hlength] at hrest
          exact hrest
      | clone i =>
          rw [markClones]
          by_cases hi : i < pool.length
          · rw [if_pos hi]
            have hlength : ((Action.clone i).step lower pool).length = pool.length + 1 := by
              rw [Action.step, List.getElem?_eq_getElem hi, List.length_append]
              rfl
            have hrest := ih (@quiet_clone lower marked pool h i hi)
            rw [hlength] at hrest
            exact hrest
          · rw [if_neg hi]
            have hsame : (Action.clone i).step lower pool = pool := by
              rw [Action.step, List.getElem?_eq_none (by omega)]
              exact List.append_nil pool
            show Quiet _ (run lower ((Action.clone i).step lower pool) actions)
            rw [hsame]
            exact ih h

end

/-! ### The two guarantees -/

def runFrom (lower : Str → Str) (config : SelectorConfig) (hasFailoverHook : Bool)
    (actions : List Action) : List ModelSelector :=
  run lower [ModelSelector.create config hasFailoverHook] actions

/-- In every reachable state each configuration has the endpoint and the credentials of one that was
supplied, and once replay is disabled it is off in the selector and its clones whatever follows. -/
theorem selector_keeps_endpoints_and_replay_off (lower : Str → Str) (config : SelectorConfig)
    (hasFailoverHook : Bool) (earlier later : List Action) (i : Nat)
    (hi : i < (runFrom lower config hasFailoverHook earlier).length) :
    (∀ s ∈ runFrom lower config hasFailoverHook earlier,
      s.All (TakenWhole (config.all ++ earlier.flatMap Action.supplies))) ∧
    ∀ k ∈ markClones [i] (runFrom lower config hasFailoverHook earlier).length later,
      ∃ s, (runFrom lower config hasFailoverHook
          (earlier ++ .call i .disableProviderStateReplay :: later))[k]? = some s ∧
        s.providerStateReplayDisabled = true ∧ s.All ReplayOff := by
  constructor
  · apply takenWhole_run
    intro s hs cfg hcfg
    rw [List.mem_singleton.mp hs] at hcfg
    obtain hcfg | hcfg := List.mem_append.mp hcfg
    · exact ⟨cfg, hcfg, rfl⟩
    · exact ⟨cfg, hcfg, rfl⟩
  · generalize hpool : runFrom lower config hasFailoverHook earlier = pool at hi ⊢
    have hquiet : Quiet [i] ((Action.call i .disableProviderStateReplay).step lower pool) := by
      intro k hk
      rw [List.mem_singleton.mp hk, Action.step, List.getElem?_modify,
        List.getElem?_eq_getElem hi]
      exact ⟨pool[i].disableProviderStateReplay, by simp [Call.run], silenced_disable _⟩
    have hlength : ((Action.call i .disableProviderStateReplay).step lower pool).length =
        pool.length := List.length_modify ..
    have hrun := @quiet_run lower _ _ later hquiet
    rw [hlength] at hrun
    have hall : runFrom lower config hasFailoverHook
        (earlier ++ .call i .disableProviderStateReplay :: later) =
          run lower ((Action.call i .disableProviderStateReplay).step lower pool) later := by
      rw [← hpool, runFrom, run, List.foldl_append]
      rfl
    rw [hall]
    exact hrun

/-- Replay is disabled in a selector whose model was overridden, which is then cloned and gets a
chain from a plugin. -/
theorem selector_overridden_disabled_cloned :
    ∃ s, (runFrom id ⟨⟨"openai".toList, "a".toList, [], [], [], [], [], [], true, []⟩, []⟩ true
        ([.call 0 (.overrideModel "b".toList)] ++ .call 0 .disableProviderStateReplay ::
          [.clone 0, .call 1 (.nextFallbackAfterFailure
            (some [⟨"azure".toList, "c".toList, [], [], [], [], [], [], true, []⟩]))]))[1]? = some s ∧
      s.providerStateReplayDisabled = true ∧ s.All ReplayOff :=
  (selector_keeps_endpoints_and_replay_off id
    ⟨⟨"openai".toList, "a".toList, [], [], [], [], [], [], true, []⟩, []⟩ true
    [.call 0 (.overrideModel "b".toList)]
    [.clone 0, .call 1 (.nextFallbackAfterFailure
      (some [⟨"azure".toList, "c".toList, [], [], [], [], [], [], true, []⟩]))]
    0 (by decide)).2 1 (by decide)

end OpenStarry.Provider
