import OpenStarry.Sandbox.SessionContext

/-!
# Grants across persistence

What a session's run context holds after it has been written into the origin and read back: the
mounts granted for one action are gone, and the grants of the chat are there.
-/

namespace OpenStarry.Sandbox

open Lib
open Lib.Text

/-! ### The payload of a context -/

/-- A payload by the lists of its items. -/
def payloadOf (context : RunContext) (mounts domains bundles publicNetwork : List Json) : Dict :=
  [("run_mode".toList, .str context.runMode.text.toList),
    ("run_mode_source".toList, optionalText context.runModeSource),
    ("workspace".toList, optionalText context.workspace),
    ("mounts".toList, .arr mounts), ("domains".toList, .arr domains),
    ("bundles".toList, .arr bundles), ("public_network".toList, .arr publicNetwork),
    ("temporary_grants".toList, .arr (context.temporaryGrants.map TemporaryGrant.toPayload))]

section

variable (env : ContextEnv) (context : RunContext) (mounts domains bundles publicNetwork : List Json)

theorem withoutMaterializedUserGrants_payloadOf :
    withoutMaterializedUserGrants env (.obj (payloadOf context mounts domains bundles publicNetwork)) =
      .obj (payloadOf context (mounts.filter (isSessionItem env)) (domains.filter (isSessionItem env))
        (bundles.filter (isSessionBundle env)) (publicNetwork.filter (isSessionItem env))) := by
  rfl

theorem normalizeRunMode_text (mode : RunMode) :
    normalizeRunMode env (.str mode.text.toList) = some mode := by
  have hlower : env.unicode.lower (strip mode.text.toList) = mode.text.toList := by
    rw [env.unicode.lower_ascii]
    · cases mode <;> decide
    · cases mode <;> decide
  rw [normalizeRunMode, hlower, if_neg (by cases mode <;> decide)]
  cases mode <;> decide

end

/-- What is read back of a context: its persisted grants, less those of the user's store. -/
def savedContext (env : ContextEnv) (context : RunContext) : RunContext :=
  let persisted := sessionPersistedContext context
  let workspace := workspaceFromPayload env (optionalText context.workspace)
  let sessionItems (items : List Json) : Json := .arr (items.filter (isSessionItem env))
  { runMode := context.runMode
    workspace
    mounts :=
      mountsFromPayload env workspace (sessionItems (persisted.mounts.map MountGrant.toPayload))
    domains := domainsFromPayload env (sessionItems (persisted.domains.map DomainGrant.toPayload))
    bundles := bundlesFromPayload env
      (.arr ((persisted.bundles.map PackageBundleGrant.toPayload).filter (isSessionBundle env)))
    publicNetwork := publicNetworksFromPayload env
      (sessionItems (persisted.publicNetwork.map PublicNetworkGrant.toPayload))
    temporaryGrants := context.temporaryGrants.filterMap fun grant =>
      temporaryFromPayload grant.toPayload
    runModeSource := runModeSourceFromPayload (optionalText context.runModeSource)
    source := "saved".toList }

section

variable {env : ContextEnv} {sessions sessions' : Sessions} {sessionKey : Str} {context : RunContext}

theorem publicNetworksFromPayload_either (env : ContextEnv) (items : List Json) :
    publicNetworksFromPayload env (either (.arr items) .null) =
      publicNetworksFromPayload env (.arr items) := by
  cases items with
  | nil => rfl
  | cons item rest => rfl

theorem contextFromPayload_of_payload (env : ContextEnv) (context : RunContext)
    (mounts domains bundles publicNetwork : List Json) (source : Str) :
    contextFromPayload env (.obj (payloadOf context mounts domains bundles publicNetwork)) source =
      some
        { runMode := context.runMode
          workspace := workspaceFromPayload env (optionalText context.workspace)
          mounts := mountsFromPayload env
            (workspaceFromPayload env (optionalText context.workspace)) (.arr mounts)
          domains := domainsFromPayload env (.arr domains)
          bundles := bundlesFromPayload env (.arr bundles)
          publicNetwork := publicNetworksFromPayload env (.arr publicNetwork)
          temporaryGrants :=
            temporaryGrantsFromPayload (.arr (context.temporaryGrants.map TemporaryGrant.toPayload))
          runModeSource := runModeSourceFromPayload (optionalText context.runModeSource)
          source } := by
  have hhas : (payloadOf context mounts domains bundles publicNetwork).has "run_mode" = true := rfl
  have hmode : normalizeRunMode env
      ((payloadOf context mounts domains bundles publicNetwork).get "run_mode") =
        some context.runMode := normalizeRunMode_text env context.runMode
  rw [contextFromPayload, Json.fields?, Option.bind_eq_bind, Option.bind_some]
  simp only [hhas, hmode, Bool.not_true, Bool.false_eq_true, if_false, Option.bind_eq_bind,
    Option.bind_some]
  rw [← publicNetworksFromPayload_either]
  rfl

theorem contextFromPayload_payloadOf :
    contextFromPayload env (withoutMaterializedUserGrants env
      (.obj (sessionPersistedContext context).toOriginPayload)) "saved".toList =
      some (savedContext env context) := by
  have hpayload : (sessionPersistedContext context).toOriginPayload =
      payloadOf context ((sessionPersistedContext context).mounts.map MountGrant.toPayload)
        ((sessionPersistedContext context).domains.map DomainGrant.toPayload)
        ((sessionPersistedContext context).bundles.map PackageBundleGrant.toPayload)
        ((sessionPersistedContext context).publicNetwork.map PublicNetworkGrant.toPayload) := rfl
  rw [hpayload, withoutMaterializedUserGrants_payloadOf]
  rw [contextFromPayload_of_payload, savedContext, temporaryGrantsFromPayload, Json.items,
    List.filterMap_map]
  rfl

theorem getRunContext_of_persist (hpersist : persistRunContext sessions sessionKey context = .ok sessions')
    (workspace : Option Str) (includeUserGrants : Bool) :
    getRunContext env sessions' sessionKey workspace includeUserGrants =
      if includeUserGrants then withUserGrants env (savedContext env context)
      else savedContext env context := by
  rw [persistRunContext] at hpersist
  cases hsession : sessions sessionKey with
  | none =>
      rw [hsession] at hpersist
      simp at hpersist
  | some origin =>
      rw [hsession] at hpersist
      obtain rfl := Except.ok.inj hpersist
      have hsaved : savedRunContext env (.obj ((originDict origin).set runContextOriginKey
          (.obj (sessionPersistedContext context).toOriginPayload))) =
          some (savedContext env context) := by
        rw [savedRunContext, originDict, Json.fields?, Option.getD_some, Dict.get_set_self]
        exact contextFromPayload_payloadOf
      rw [getRunContext]
      simp only [if_true, Option.bind_some, hsaved, Option.getD_some]

end

/-! ### The grants of the user's store -/

section

variable (env : ContextEnv) (context : RunContext)

def userMounts : List MountGrant :=
  mountsFromPayload env context.workspace (env.userGrants.get "mounts")

theorem withUserGrants_workspace : (withUserGrants env context).workspace = context.workspace := by
  rw [withUserGrants]
  split <;> rfl

theorem withUserGrants_temporaryGrants :
    (withUserGrants env context).temporaryGrants = context.temporaryGrants := by
  rw [withUserGrants]
  split <;> rfl

theorem mem_of_mem_withUserGrants_mounts {grant : MountGrant}
    (h : grant ∈ (withUserGrants env context).mounts) :
    grant ∈ context.mounts ∨ grant ∈ userMounts env context := by
  rw [withUserGrants] at h
  split at h
  · exact Or.inl h
  · exact Keyed.mem_of_mem_overlay h

variable {env context}

theorem mem_withUserGrants_mounts {grants : List MountGrant} {grant : MountGrant}
    (hcollect : context.mounts = Keyed.collect MountGrant.path grants) (h : grant ∈ context.mounts) :
    grant ∈ (withUserGrants env context).mounts := by
  rw [withUserGrants]
  split
  · exact h
  · dsimp only
    rw [hcollect] at h ⊢
    exact Keyed.mem_overlay_collect h

theorem mem_withUserGrants_domains {grants : List DomainGrant} {grant : DomainGrant}
    (hcollect : context.domains = Keyed.collect DomainGrant.domain grants)
    (h : grant ∈ context.domains) : grant ∈ (withUserGrants env context).domains := by
  rw [withUserGrants]
  split
  · exact h
  · dsimp only
    rw [hcollect] at h ⊢
    exact Keyed.mem_overlay_collect h

theorem mem_withUserGrants_bundles {grants : List PackageBundleGrant} {grant : PackageBundleGrant}
    (hcollect : context.bundles = Keyed.collect PackageBundleGrant.bundleId grants)
    (h : grant ∈ context.bundles) : grant ∈ (withUserGrants env context).bundles := by
  rw [withUserGrants]
  split
  · exact h
  · dsimp only
    rw [hcollect] at h ⊢
    exact Keyed.mem_overlay_collect h

theorem mem_withUserGrants_publicNetwork {grants : List PublicNetworkGrant}
    {grant : PublicNetworkGrant}
    (hcollect : context.publicNetwork = Keyed.collect PublicNetworkGrant.scope grants)
    (h : grant ∈ context.publicNetwork) : grant ∈ (withUserGrants env context).publicNetwork := by
  rw [withUserGrants]
  split
  · exact h
  · dsimp only
    rw [hcollect] at h ⊢
    exact Keyed.mem_overlay_collect h

end

/-! ### Grants that are read back -/

/-- The grant is read as `g`, and no later one that is carried over is read under the same key. -/
def LastRead {α κ : Type} (key : α → κ) (carried : α → Bool) (read : α → Option α) (grants : List α)
    (grant g : α) : Prop :=
  ∃ before after, grants = before ++ grant :: after ∧ read grant = some g ∧
    ∀ other ∈ after, carried other = true → ∀ g', read other = some g' → key g' ≠ key g

section

variable {α κ : Type} [DecidableEq κ] {key : α → κ} {carried : α → Bool} {fromPayload : Json → Option α}
  {toPayload : α → Json} {grants : List α} {grant g : α} {keep : Json → Bool}

def readBack (key : α → κ) (carried : α → Bool) (toPayload : α → Json) (keep : Json → Bool)
    (fromPayload : Json → Option α) (grants : List α) : List α :=
  Keyed.collect key
    ((((grants.filter carried).map toPayload).filter keep).filterMap fromPayload)

theorem mem_readBack
    (hlast : LastRead key carried (fun grant => fromPayload (toPayload grant)) grants grant g)
    (hcarried : carried grant = true) (hkeep : keep (toPayload grant) = true) :
    g ∈ readBack key carried toPayload keep fromPayload grants := by
  obtain ⟨before, after, rfl, hread, hafter⟩ := hlast
  rw [readBack, List.filter_append, List.filter_cons_of_pos hcarried, List.map_append, List.map_cons,
    List.filter_append, List.filter_cons_of_pos hkeep, List.filterMap_append,
    List.filterMap_cons_some hread]
  apply Keyed.mem_collect
  intro x hx
  obtain ⟨item, hitem, hx⟩ := List.mem_filterMap.mp hx
  obtain ⟨other, hother, rfl⟩ := List.mem_map.mp (List.mem_of_mem_filter hitem)
  obtain ⟨hmem, hcarried⟩ := List.mem_filter.mp hother
  exact hafter other hmem hcarried x hx

theorem exists_of_mem_readBack (h : g ∈ readBack key carried toPayload keep fromPayload grants) :
    ∃ grant ∈ grants, carried grant = true ∧ fromPayload (toPayload grant) = some g := by
  obtain ⟨item, hitem, hread⟩ := List.mem_filterMap.mp (Keyed.mem_of_mem_collect h)
  obtain ⟨grant, hgrant, rfl⟩ := List.mem_map.mp (List.mem_of_mem_filter hitem)
  obtain ⟨hmem, hcarried⟩ := List.mem_filter.mp hgrant
  exact ⟨grant, hmem, hcarried, hread⟩

end

/-! ### After persistence -/

def carriesMount (grant : MountGrant) : Bool := grant.scope ∉ ["workspace".toList, "once".toList]

def carriesDomain (grant : DomainGrant) : Bool := grant.scope ≠ "workspace".toList

def carriesBundle (grant : PackageBundleGrant) : Bool :=
  grant.scope ≠ "workspace".toList || grant.source = "disabled".toList

def carriesPublicNetwork (grant : PublicNetworkGrant) : Bool := grant.scope ≠ "workspace".toList

def ChatKept {α κ : Type} (key : α → κ) (scope : α → Str) (carried : α → Bool) (read : α → Option α)
    (grants rebuilt : List α) : Prop :=
  ∀ grant g, scope grant = "chat".toList → LastRead key carried read grants grant g →
    g ∈ rebuilt ∧ scope g = "chat".toList

section

variable (env : ContextEnv) (context : RunContext)

theorem normalizeScope_chat (default : Str) :
    normalizeScope env (.str "chat".toList) default = "chat".toList := by
  have hlower : env.unicode.lower (strip "chat".toList) = "chat".toList := by
    rw [env.unicode.lower_ascii]
    · decide
    · decide
  rw [normalizeScope, hlower, if_pos (by decide)]

theorem savedContext_mounts_eq : (savedContext env context).mounts =
    readBack MountGrant.path carriesMount MountGrant.toPayload (isSessionItem env)
      (mountFromPayload env (savedContext env context).workspace) context.mounts := rfl

theorem savedContext_domains_eq : (savedContext env context).domains =
    readBack DomainGrant.domain carriesDomain DomainGrant.toPayload (isSessionItem env)
      (domainFromPayload env) context.domains := rfl

theorem savedContext_bundles_eq : (savedContext env context).bundles =
    readBack PackageBundleGrant.bundleId carriesBundle PackageBundleGrant.toPayload
      (isSessionBundle env) (bundleFromPayload env) context.bundles := rfl

theorem savedContext_publicNetwork_eq : (savedContext env context).publicNetwork =
    readBack PublicNetworkGrant.scope carriesPublicNetwork PublicNetworkGrant.toPayload
      (isSessionItem env) (publicNetworkFromPayload env) context.publicNetwork := rfl

variable {env}

theorem mountFromPayload_scope {workspace : Option Str} {grant g : MountGrant}
    (h : mountFromPayload env workspace grant.toPayload = some g) :
    g.scope = normalizeScope env (.str grant.scope) "chat".toList := by
  rw [mountFromPayload] at h
  simp only [Option.bind_eq_bind, Option.bind_eq_some_iff, Option.pure_def] at h
  obtain ⟨fields, hfields, path, -, h⟩ := h
  split at h
  · obtain ⟨normalizedPath, -, h⟩ := Option.bind_eq_some_iff.mp h
    obtain rfl := Option.some.inj h
    obtain rfl := Option.some.inj hfields
    rfl
  · simp at h

theorem domainFromPayload_scope {grant g : DomainGrant}
    (h : domainFromPayload env grant.toPayload = some g) :
    g.scope = normalizeScope env (.str grant.scope) "chat".toList := by
  rw [domainFromPayload] at h
  simp only [Option.bind_eq_bind, Option.bind_eq_some_iff, Option.pure_def] at h
  obtain ⟨fields, hfields, domain, -, h⟩ := h
  split at h
  · simp at h
  · obtain rfl := Option.some.inj h
    obtain rfl := Option.some.inj hfields
    rfl

theorem bundleFromPayload_scope {grant g : PackageBundleGrant}
    (h : bundleFromPayload env grant.toPayload = some g) :
    g.scope = normalizeScope env (.str grant.scope) "workspace".toList := by
  rw [bundleFromPayload] at h
  simp only [Option.bind_eq_bind, Option.bind_eq_some_iff, Option.pure_def] at h
  obtain ⟨fields, hfields, bundleId, -, h⟩ := h
  split at h
  · simp at h
  · obtain rfl := Option.some.inj h
    obtain rfl := Option.some.inj hfields
    rfl

theorem publicNetworkFromPayload_scope {grant g : PublicNetworkGrant}
    (h : publicNetworkFromPayload env grant.toPayload = some g) :
    g.scope = normalizeScope env (.str grant.scope) "chat".toList := by
  rw [publicNetworkFromPayload] at h
  simp only [Option.bind_eq_bind, Option.bind_eq_some_iff, Option.pure_def, Option.some.injEq] at h
  obtain ⟨fields, hfields, rfl⟩ := h
  obtain rfl := Option.some.inj hfields
  rfl

theorem originItemScope_chat {fields : Dict} (hscope : fields.get "scope" = .str "chat".toList)
    (default : Str) : originItemScope env (.obj fields) default = "chat".toList := by
  rw [originItemScope, Json.fields?]
  dsimp only
  rw [hscope, normalizeScope_chat]

theorem isSessionItem_of_chat {fields : Dict} (hscope : fields.get "scope" = .str "chat".toList) :
    isSessionItem env (.obj fields) = true := by
  rw [isSessionItem, originItemScope_chat hscope]
  decide

theorem isSessionBundle_of_chat {fields : Dict} (hscope : fields.get "scope" = .str "chat".toList) :
    isSessionBundle env (.obj fields) = true := by
  rw [isSessionBundle, originItemScope_chat hscope, Bool.or_eq_true]
  exact Or.inl (by decide)

variable (env)

theorem chatKept_mounts : ChatKept MountGrant.path MountGrant.scope carriesMount
    (fun grant => mountFromPayload env (savedContext env context).workspace grant.toPayload)
    context.mounts (savedContext env context).mounts := by
  intro grant g hscope hlast
  constructor
  · rw [savedContext_mounts_eq]
    refine mem_readBack hlast ?_ ?_
    · rw [carriesMount, hscope]
      decide
    · exact isSessionItem_of_chat (by rw [← hscope]; rfl)
  · obtain ⟨-, -, -, hread, -⟩ := hlast
    rw [mountFromPayload_scope hread, hscope, normalizeScope_chat]

theorem chatKept_domains : ChatKept DomainGrant.domain DomainGrant.scope carriesDomain
    (fun grant => domainFromPayload env grant.toPayload)
    context.domains (savedContext env context).domains := by
  intro grant g hscope hlast
  constructor
  · rw [savedContext_domains_eq]
    refine mem_readBack hlast ?_ ?_
    · rw [carriesDomain, hscope]
      decide
    · exact isSessionItem_of_chat (by rw [← hscope]; rfl)
  · obtain ⟨-, -, -, hread, -⟩ := hlast
    rw [domainFromPayload_scope hread, hscope, normalizeScope_chat]

theorem chatKept_bundles : ChatKept PackageBundleGrant.bundleId PackageBundleGrant.scope carriesBundle
    (fun grant => bundleFromPayload env grant.toPayload)
    context.bundles (savedContext env context).bundles := by
  intro grant g hscope hlast
  constructor
  · rw [savedContext_bundles_eq]
    refine mem_readBack hlast ?_ ?_
    · rw [carriesBundle, hscope, Bool.or_eq_true]
      exact Or.inl (by decide)
    · exact isSessionBundle_of_chat (by rw [← hscope]; rfl)
  · obtain ⟨-, -, -, hread, -⟩ := hlast
    rw [bundleFromPayload_scope hread, hscope, normalizeScope_chat]

theorem chatKept_publicNetwork :
    ChatKept PublicNetworkGrant.scope PublicNetworkGrant.scope carriesPublicNetwork
      (fun grant => publicNetworkFromPayload env grant.toPayload)
      context.publicNetwork (savedContext env context).publicNetwork := by
  intro grant g hscope hlast
  constructor
  · rw [savedContext_publicNetwork_eq]
    refine mem_readBack hlast ?_ ?_
    · rw [carriesPublicNetwork, hscope]
      decide
    · exact isSessionItem_of_chat (by rw [← hscope]; rfl)
  · obtain ⟨-, -, -, hread, -⟩ := hlast
    rw [publicNetworkFromPayload_scope hread, hscope, normalizeScope_chat]

end

theorem ChatKept.mono {α κ : Type} {key : α → κ} {scope : α → Str} {carried : α → Bool}
    {read : α → Option α} {grants rebuilt rebuilt' : List α}
    (h : ChatKept key scope carried read grants rebuilt) (hsub : ∀ g ∈ rebuilt, g ∈ rebuilt') :
    ChatKept key scope carried read grants rebuilt' := fun grant g hscope hlast =>
  ⟨hsub g (h grant g hscope hlast).1, (h grant g hscope hlast).2⟩

/-- After a context has been persisted, the one rebuilt from the session carries no mount that was
granted once, the readable temporary grants, and the grants of the chat. -/
theorem getRunContext_after_persist (env : ContextEnv) {sessions sessions' : Sessions} {sessionKey : Str}
    {context : RunContext} (hpersist : persistRunContext sessions sessionKey context = .ok sessions')
    (workspace : Option Str) (includeUserGrants : Bool) :
    let rebuilt := getRunContext env sessions' sessionKey workspace includeUserGrants
    (∀ g ∈ rebuilt.mounts, g.scope = "once".toList →
      (includeUserGrants = true ∧ g ∈ userMounts env rebuilt) ∨
        ∃ grant ∈ context.mounts, grant.scope ≠ "once".toList ∧
          mountFromPayload env rebuilt.workspace grant.toPayload = some g) ∧
    rebuilt.temporaryGrants = (context.temporaryGrants.filterMap fun grant =>
      temporaryFromPayload grant.toPayload) ∧
    ChatKept MountGrant.path MountGrant.scope carriesMount
      (fun grant => mountFromPayload env rebuilt.workspace grant.toPayload)
      context.mounts rebuilt.mounts ∧
    ChatKept DomainGrant.domain DomainGrant.scope carriesDomain
      (fun grant => domainFromPayload env grant.toPayload) context.domains rebuilt.domains ∧
    ChatKept PackageBundleGrant.bundleId PackageBundleGrant.scope carriesBundle
      (fun grant => bundleFromPayload env grant.toPayload) context.bundles rebuilt.bundles ∧
    ChatKept PublicNetworkGrant.scope PublicNetworkGrant.scope carriesPublicNetwork
      (fun grant => publicNetworkFromPayload env grant.toPayload)
      context.publicNetwork rebuilt.publicNetwork := by
  have hsavedMount : ∀ g ∈ (savedContext env context).mounts,
      ∃ grant ∈ context.mounts, grant.scope ≠ "once".toList ∧
        mountFromPayload env (savedContext env context).workspace grant.toPayload = some g := by
    intro g hg
    rw [savedContext_mounts_eq] at hg
    obtain ⟨grant, hmem, hcarried, hread⟩ := exists_of_mem_readBack hg
    refine ⟨grant, hmem, ?_, hread⟩
    rintro honce
    rw [carriesMount, honce] at hcarried
    exact absurd hcarried (by decide)
  intro rebuilt
  have hrebuilt : rebuilt = if includeUserGrants then withUserGrants env (savedContext env context)
      else savedContext env context := getRunContext_of_persist hpersist workspace includeUserGrants
  clear_value rebuilt
  subst hrebuilt
  cases includeUserGrants with
  | false =>
      exact ⟨fun g hg _ => Or.inr (hsavedMount g hg), rfl, chatKept_mounts env context,
        chatKept_domains env context, chatKept_bundles env context,
        chatKept_publicNetwork env context⟩
  | true =>
      rw [if_pos rfl, userMounts, withUserGrants_workspace]
      refine ⟨fun g hg _ => ?_, withUserGrants_temporaryGrants env _, ?_, ?_, ?_, ?_⟩
      · rcases mem_of_mem_withUserGrants_mounts env _ hg with hg | hg
        · exact Or.inr (hsavedMount g hg)
        · exact Or.inl ⟨rfl, hg⟩
      · exact (chatKept_mounts env context).mono fun g =>
          mem_withUserGrants_mounts (savedContext_mounts_eq env context)
      · exact (chatKept_domains env context).mono fun g =>
          mem_withUserGrants_domains (savedContext_domains_eq env context)
      · exact (chatKept_bundles env context).mono fun g =>
          mem_withUserGrants_bundles (savedContext_bundles_eq env context)
      · exact (chatKept_publicNetwork env context).mono fun g =>
          mem_withUserGrants_publicNetwork (savedContext_publicNetwork_eq env context)

/-! ### A context with grants for one action -/

def plainEnv : ContextEnv where
  unicode := .ascii
  normalizePath := some
  configuredMode := .safe
  userGrants := []

def oneSession : Sessions := fun key => if key = "chat-1".toList then some (.obj []) else none

def oneShotContext : RunContext where
  runMode := .safe
  workspace := some "/work".toList
  mounts := [⟨"/data".toList, "rw".toList, "once".toList⟩, { path := "/notes".toList }]
  domains := [{ domain := "example.com".toList, scope := "once".toList }]
  bundles := [{ bundleId := "go-package-install".toList, scope := "once".toList }]
  publicNetwork := [{ scope := "once".toList }]
  temporaryGrants := [⟨"domain".toList, "example.org".toList, "abc123".toList, "once".toList⟩]

def oneShotRebuilt : Option RunContext :=
  (persistRunContext oneSession "chat-1".toList oneShotContext).toOption.map fun sessions =>
    getRunContext plainEnv sessions "chat-1".toList none true

/-- A domain, a bundle and the public network granted once, and a temporary grant, are read back. -/
theorem one_shot_grants_survive : ∃ rebuilt, oneShotRebuilt = some rebuilt ∧
    (∃ grant ∈ rebuilt.domains, grant.scope = "once".toList) ∧
    (∃ grant ∈ rebuilt.bundles, grant.scope = "once".toList) ∧
    (∃ grant ∈ rebuilt.publicNetwork, grant.scope = "once".toList) ∧
    rebuilt.temporaryGrants ≠ [] := by
  refine ⟨_, rfl, ?_, ?_, ?_, ?_⟩
  · decide +kernel
  · decide +kernel
  · decide +kernel
  · decide +kernel

theorem temporary_grant_read_back :
    ∃ sessions, persistRunContext oneSession "chat-1".toList oneShotContext = .ok sessions ∧
      (getRunContext plainEnv sessions "chat-1".toList none false).temporaryGrants =
        oneShotContext.temporaryGrants := by
  refine ⟨_, rfl, ?_⟩
  have hpersist : persistRunContext oneSession "chat-1".toList oneShotContext = .ok _ := rfl
  have hafter := getRunContext_after_persist plainEnv hpersist none false
  exact hafter.2.1.trans (by decide +kernel)

end OpenStarry.Sandbox
