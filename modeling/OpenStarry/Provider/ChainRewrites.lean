import OpenStarry.Provider.Selector

/-!
# The rewrites of the fallback chain

Four methods of the selector put a new head before the chain. Each keeps of two entries with one
identity the first only.
-/

namespace OpenStarry.Provider

open Lib Lib.Text

/-- The entries agree in what their identity is made of: the names of headers are compared without
their case, and the complete URL is not compared. -/
structure SameDeployment (lower : Str → Str) (a b : ProviderConfig) : Prop where
  provider : a.provider = b.provider
  model : a.model = b.model
  apiKey : a.apiKey = b.apiKey
  baseUrl : a.baseUrl = b.baseUrl
  orgId : a.orgId = b.orgId
  proxy : a.proxy = b.proxy
  replay : a.replayProviderState = b.replayProviderState
  routing : a.providerRouting.Perm b.providerRouting
  headers : (a.requestHeaders.map fun p => (lower p.1, p.2)).Perm
    (b.requestHeaders.map fun p => (lower p.1, p.2))

/-- What a rewrite of the chain `old` leaves: the head that was asked for, the entries of `front`, and
the others in their order, none of them twice, with an entry for every old one. -/
structure Rewritten (agree : ProviderConfig → ProviderConfig → Prop) (old : List ProviderConfig)
    (head : ProviderConfig) (front : List ProviderConfig) (s : ModelSelector) : Prop where
  head_eq : s.chain.head? = some head
  index_eq : s.index = 0
  nodup : s.chain.Nodup
  kept : ∀ cfg ∈ old, ∃ kept ∈ s.chain, agree kept cfg
  order : ∃ moved rest, s.chain.tail = moved ++ rest ∧ moved.Sublist front ∧ rest.Sublist old ∧
    ∀ cfg ∈ front, ∃ kept ∈ head :: moved, agree kept cfg

/-! ### Leaving out repetitions -/

section

variable (lower : Str → Str) {seen : List Identity} {cfg : ProviderConfig}
  {l l' : List ProviderConfig}

theorem sameDeployment_of_identity {a b : ProviderConfig}
    (h : providerConfigIdentity lower a = providerConfigIdentity lower b) :
    SameDeployment lower a b := by
  have hperm : ∀ p q : List (Str × Str), sortedPairs p = sortedPairs q → p.Perm q := by
    intro p q hsorted
    have hp : (sortedPairs p).Perm p := List.perm_insertionSort _ p
    have hq : (sortedPairs q).Perm q := List.perm_insertionSort _ q
    rw [hsorted] at hp
    exact hp.symm.trans hq
  simp only [providerConfigIdentity, Identity.mk.injEq] at h
  obtain ⟨hprovider, hmodel, hkey, hurl, horg, hproxy, hreplay, hrouting, hheaders⟩ := h
  exact ⟨hprovider, hmodel, hkey, hurl, horg, hproxy, hreplay, hperm _ _ hrouting,
    hperm _ _ hheaders⟩

theorem sublist_dedupe (seen : List Identity) (l : List ProviderConfig) :
    (dedupe lower seen l).Sublist l := by
  induction l generalizing seen with
  | nil => exact List.Sublist.refl _
  | cons first rest ih =>
      rw [dedupe]
      split_ifs
      · exact (ih seen).cons first
      · exact (ih _).cons_cons first

theorem identity_notMem_seen (h : cfg ∈ dedupe lower seen l) :
    providerConfigIdentity lower cfg ∉ seen := by
  induction l generalizing seen with
  | nil => cases h
  | cons first rest ih =>
      rw [dedupe] at h
      split_ifs at h with hseen
      · exact ih h
      · obtain rfl | h := List.mem_cons.1 h
        · exact hseen
        · exact fun hmem => ih h (List.mem_cons_of_mem _ hmem)

theorem nodup_dedupe (seen : List Identity) (l : List ProviderConfig) :
    (dedupe lower seen l).Nodup := by
  induction l generalizing seen with
  | nil => exact List.nodup_nil
  | cons first rest ih =>
      rw [dedupe]
      split_ifs
      · exact ih seen
      · refine List.nodup_cons.2 ⟨fun hmem => ?_, ih _⟩
        exact identity_notMem_seen lower hmem List.mem_cons_self

theorem exists_identity (h : cfg ∈ l) : providerConfigIdentity lower cfg ∈ seen ∨
    ∃ kept ∈ dedupe lower seen l,
      providerConfigIdentity lower kept = providerConfigIdentity lower cfg := by
  induction l generalizing seen with
  | nil => cases h
  | cons first rest ih =>
      rw [dedupe]
      obtain rfl | h := List.mem_cons.1 h
      · split_ifs with hseen
        · exact Or.inl hseen
        · exact Or.inr ⟨cfg, List.mem_cons_self, rfl⟩
      · split_ifs with hseen
        · exact ih h
        · obtain hfirst | ⟨kept, hkept, hsame⟩ := @ih (providerConfigIdentity lower first :: seen) h
          · obtain hfirst | hfirst := List.mem_cons.1 hfirst
            · exact Or.inr ⟨first, List.mem_cons_self, hfirst.symm⟩
            · exact Or.inl hfirst
          · exact Or.inr ⟨kept, List.mem_cons_of_mem _ hkept, hsame⟩

theorem dedupe_append (seen : List Identity) (l l' : List ProviderConfig) :
    ∃ later, dedupe lower seen (l ++ l') = dedupe lower seen l ++ dedupe lower later l' := by
  induction l generalizing seen with
  | nil => exact ⟨seen, rfl⟩
  | cons first rest ih =>
      rw [List.cons_append, dedupe, dedupe]
      split_ifs
      · exact ih seen
      · obtain ⟨later, hlater⟩ := ih (providerConfigIdentity lower first :: seen)
        exact ⟨later, by rw [hlater, List.cons_append]⟩

theorem exists_kept {head : ProviderConfig} (h : cfg ∈ head :: l) :
    ∃ kept ∈ head :: dedupe lower [providerConfigIdentity lower head] l,
      providerConfigIdentity lower kept = providerConfigIdentity lower cfg := by
  obtain rfl | h := List.mem_cons.1 h
  · exact ⟨cfg, List.mem_cons_self, rfl⟩
  · obtain hseen | ⟨kept, hkept, hsame⟩ := exists_identity lower h
    · exact ⟨head, List.mem_cons_self, (List.mem_singleton.1 hseen).symm⟩
    · exact ⟨kept, List.mem_cons_of_mem _ hkept, hsame⟩

/-- What installing a head before the entries of `front` and `rest` leaves of the chain `old`. -/
theorem rewritten_install (s : ModelSelector) {old : List ProviderConfig} (head : ProviderConfig)
    (front rest : List ProviderConfig) (hrest : rest.Sublist old)
    (hold : ∀ cfg ∈ old, ∃ other ∈ head :: (front ++ rest),
      providerConfigIdentity lower other = providerConfigIdentity lower cfg) :
    Rewritten (SameDeployment lower) old head front
      (s.install head (dedupe lower [providerConfigIdentity lower head] (front ++ rest))) := by
  refine ⟨rfl, rfl, ?_, ?_, ?_⟩
  · refine List.nodup_cons.2 ⟨fun hmem => ?_, nodup_dedupe lower _ _⟩
    exact identity_notMem_seen lower hmem (List.mem_singleton_self _)
  · intro cfg hcfg
    obtain ⟨other, hother, hsame⟩ := hold cfg hcfg
    obtain ⟨kept, hkept, hagree⟩ := exists_kept lower hother
    exact ⟨kept, hkept, sameDeployment_of_identity lower (hagree.trans hsame)⟩
  · obtain ⟨later, hlater⟩ := dedupe_append lower [providerConfigIdentity lower head] front rest
    refine ⟨_, _, hlater, sublist_dedupe lower _ _, (sublist_dedupe lower _ _).trans hrest, ?_⟩
    intro cfg hcfg
    obtain ⟨kept, hkept, hagree⟩ := exists_kept lower (List.mem_cons_of_mem head hcfg)
    exact ⟨kept, hkept, sameDeployment_of_identity lower hagree⟩

end

/-! ### The four rewrites -/

namespace ModelSelector

variable (lower : Str → Str) (s : ModelSelector)

/-- The head that `override_model` asks for. -/
def requestedHead (model : Str) : ProviderConfig :=
  if model ≠ [] ∧ model ≠ s.head.model then forModel s.head model else s.head

/-- The head that `override_original_primary_model` asks for. -/
def restoredHead (model : Str) : ProviderConfig :=
  { s.config.primary with model := if model = [] then s.config.primary.model else model }

theorem chain_eq : s.chain = s.head :: s.tail := by
  obtain ⟨config, chain, index, hindex, hook, disabled⟩ := s
  cases chain with
  | nil => exact absurd hindex (Nat.not_lt_zero _)
  | cons first rest => rfl

theorem overrideModel_spec (model : Str) :
    (s.overrideModel lower model).head = s.requestedHead model ∧
      (s.overrideModel lower model).tail.Sublist s.chain ∧
        ∀ cfg ∈ s.chain, ∃ other ∈ (s.overrideModel lower model).chain,
          providerConfigIdentity lower other = providerConfigIdentity lower cfg := by
  unfold overrideModel requestedHead
  split_ifs
  · exact ⟨rfl, sublist_dedupe lower _ _,
      fun cfg hcfg => exists_kept lower (List.mem_cons_of_mem _ hcfg)⟩
  · exact ⟨rfl, List.tail_sublist _, fun cfg hcfg => ⟨cfg, hcfg, rfl⟩⟩

end ModelSelector

/-- What each of the four rewrites leaves, up to the identity of the entries. -/
structure KeepsFallbacks (lower : Str → Str) (s : ModelSelector) : Prop where
  providerConfig : ∀ cfg, Rewritten (SameDeployment lower) s.chain (s.accept cfg) []
    (s.overrideProviderConfig lower cfg)
  model : ∀ model, if model ≠ [] ∧ model ≠ s.head.model
    then Rewritten (SameDeployment lower) s.chain (s.requestedHead model) []
      (s.overrideModel lower model)
    else s.overrideModel lower model = s
  originalPrimary : ∀ model, Rewritten (SameDeployment lower) s.chain (s.restoredHead model)
    s.config.fallbacks (s.overrideOriginalPrimaryModel lower model)
  fallbackChain : ∀ model entries, if entries ≠ []
    then Rewritten (SameDeployment lower) s.chain (s.requestedHead model)
      (entries.filterMap (s.overrideModel lower model).routerFallback)
      (s.overrideModelWithFallbackChain lower model entries)
    else s.overrideModelWithFallbackChain lower model entries = s.overrideModel lower model

theorem keepsFallbacks (lower : Str → Str) (s : ModelSelector) : KeepsFallbacks lower s := by
  have hself : ∀ (head : ProviderConfig) (front : List ProviderConfig), ∀ cfg ∈ s.chain,
      ∃ other ∈ head :: (front ++ s.chain),
        providerConfigIdentity lower other = providerConfigIdentity lower cfg :=
    fun head front cfg hcfg =>
      ⟨cfg, List.mem_cons_of_mem _ (List.mem_append_right _ hcfg), rfl⟩
  refine ⟨fun cfg => ?_, fun model => ?_, fun model => ?_, fun model entries => ?_⟩
  · exact rewritten_install lower s _ [] s.chain (List.Sublist.refl _) (hself _ [])
  · unfold ModelSelector.requestedHead ModelSelector.overrideModel
    split_ifs
    · exact rewritten_install lower s _ [] s.chain (List.Sublist.refl _) (hself _ [])
    · rfl
  · exact rewritten_install lower s _ s.config.fallbacks s.chain (List.Sublist.refl _) (hself _ _)
  · obtain ⟨hhead, htail, hkept⟩ := s.overrideModel_spec lower model
    unfold ModelSelector.overrideModelWithFallbackChain
    dsimp only
    by_cases hentries : entries = []
    · rw [if_neg (not_not.2 hentries), if_pos hentries]
    · rw [if_pos hentries, if_neg hentries, ← hhead]
      refine rewritten_install lower _ _ _ _ htail fun cfg hcfg => ?_
      obtain ⟨other, hother, hsame⟩ := hkept cfg hcfg
      refine ⟨other, ?_, hsame⟩
      rw [ModelSelector.chain_eq] at hother
      obtain rfl | hother := List.mem_cons.1 hother
      · exact List.mem_cons_self
      · exact List.mem_cons_of_mem _ (List.mem_append_right _ hother)

/-- A selector whose turn was routed to another provider. -/
def routed : ModelSelector where
  config := ⟨⟨"openai".toList, "gpt".toList, [], [], [], [], [], [], true, []⟩,
    [⟨"deepseek".toList, "chat".toList, [], [], [], [], [], [], true, []⟩]⟩
  chain := [⟨"anthropic".toList, "opus".toList, [], [], [], [], [], [], true, []⟩,
    ⟨"openai".toList, "gpt".toList, [], [], [], [], [], [], true, []⟩,
    ⟨"deepseek".toList, "chat".toList, [], [], [], [], [], [], true, []⟩]
  index := 1
  index_lt := by decide
  hasFailoverHook := false
  providerStateReplayDisabled := false

/-- Restoring the primary puts the fallbacks of the configuration before the chain, and asking for the
model of the head leaves the index where it is. -/
theorem routed_rewrites :
    ¬ Rewritten (· = ·) routed.chain (routed.restoredHead "gpt-mini".toList) []
        (routed.overrideOriginalPrimaryModel id "gpt-mini".toList) ∧
      ¬ Rewritten (· = ·) routed.chain (routed.requestedHead "opus".toList) []
        (routed.overrideModel id "opus".toList) := by
  constructor
  · intro h
    obtain ⟨moved, rest, htail, hmoved, hrest, -⟩ := h.order
    rw [List.sublist_nil.1 hmoved, List.nil_append] at htail
    rw [← htail] at hrest
    revert hrest
    decide +kernel
  · intro h
    exact absurd h.index_eq (by decide +kernel)

end OpenStarry.Provider
