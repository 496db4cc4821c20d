import OpenStarry.Lib.Dict
import OpenStarry.Lib.Keyed
import OpenStarry.Sandbox.Network

/-!
# The run context of a session

A session's run context is written into its origin as a payload and read back from it, each grant
through the checks a grant from outside has to pass. Grants for the workspace live in the user's own
store and are laid under what the session has.
-/

namespace OpenStarry.Sandbox

open Lib
open Lib.Text

/-- What is not part of the repository: the Unicode tables, `str(normalize_path(path))` where it does
not raise, the configured mode, and the user's stored grants. -/
structure ContextEnv where
  unicode : Unicode
  normalizePath : Str → Option Str
  configuredMode : RunMode
  userGrants : Dict

/-! ### Writing a context -/

def RunMode.text : RunMode → String
  | safe => "safe"
  | full => "full"

def optionalText : Option Str → Json
  | none => .null
  | some text => .str text

def MountGrant.toPayload (grant : MountGrant) : Json :=
  .obj [("path".toList, .str grant.path), ("access".toList, .str grant.access),
    ("scope".toList, .str grant.scope)]

def DomainGrant.toPayload (grant : DomainGrant) : Json :=
  .obj [("domain".toList, .str grant.domain), ("scope".toList, .str grant.scope),
    ("source".toList, .str grant.source)]

def PackageBundleGrant.toPayload (grant : PackageBundleGrant) : Json :=
  .obj [("bundle_id".toList, .str grant.bundleId), ("scope".toList, .str grant.scope),
    ("source".toList, .str grant.source)]

def PublicNetworkGrant.toPayload (grant : PublicNetworkGrant) : Json :=
  .obj [("scope".toList, .str grant.scope), ("source".toList, .str grant.source)]

def TemporaryGrant.toPayload (grant : TemporaryGrant) : Json :=
  .obj [("kind".toList, .str grant.kind), ("value".toList, .str grant.value),
    ("fingerprint".toList, .str grant.fingerprint), ("expires_after".toList, .str grant.expiresAfter)]

def RunContext.toOriginPayload (context : RunContext) : Dict :=
  [("run_mode".toList, .str context.runMode.text.toList),
    ("run_mode_source".toList, optionalText context.runModeSource),
    ("workspace".toList, optionalText context.workspace),
    ("mounts".toList, .arr (context.mounts.map MountGrant.toPayload)),
    ("domains".toList, .arr (context.domains.map DomainGrant.toPayload)),
    ("bundles".toList, .arr (context.bundles.map PackageBundleGrant.toPayload)),
    ("public_network".toList, .arr (context.publicNetwork.map PublicNetworkGrant.toPayload)),
    ("temporary_grants".toList, .arr (context.temporaryGrants.map TemporaryGrant.toPayload))]

/-! ### Reading a context -/

/-- `value.strip()` of a text that is not blank. -/
def stringValue (value : Json) (default : Option Str) : Option Str :=
  match value with
  | .str s => if strip s = [] then default else some (strip s)
  | _ => default

/-- `a or b`. -/
def either (a b : Json) : Json := if a.truthy then a else b

section

variable (env : ContextEnv)

/-- `normalize_scope`. What is no text never reads as a scope. -/
def normalizeScope (scope : Json) (default : Str) : Str :=
  match scope with
  | .str s =>
      let value := env.unicode.lower (strip s)
      if value ∈ ["chat".toList, "workspace".toList, "once".toList] then value else default
  | _ => default

def normalizeMountAccess (value : Option Str) : Str :=
  if value.any fun text => strip (env.unicode.lower text) = "rw".toList then "rw".toList
  else "ro".toList

/-- `decide_path_access` without a profile and without mounts raises where a path cannot be
normalized, and never blocks: a path outside the workspace may be requested. -/
def isDecidable (path : Str) (workspace : Option Str) : Bool :=
  (env.normalizePath path).isSome && workspace.all fun text => (env.normalizePath text).isSome

def workspaceFromPayload (value : Json) : Option Str :=
  (stringValue value none).bind env.normalizePath

def runModeSourceFromPayload : Json → Option Str
  | .str s =>
      if s ∈ ["project_default".toList, "operator_default".toList, "user".toList] then some s
      else none
  | _ => none

def mountFromPayload (workspace : Option Str) (item : Json) : Option MountGrant := do
  let fields ← item.fields?
  let path ← stringValue (fields.get "path") none
  let access := normalizeMountAccess env (stringValue (fields.get "access") (some "ro".toList))
  if isDecidable env path workspace then
    let normalizedPath ← env.normalizePath path
    return ⟨normalizedPath, access, normalizeScope env (fields.get "scope") "chat".toList⟩
  else none

def sourceFromPayload (value : Json) : Str :=
  (stringValue value (some "manual".toList)).getD "manual".toList

def domainFromPayload (item : Json) : Option DomainGrant := do
  let fields ← item.fields?
  let domain ← stringValue (fields.get "domain") none
  let decision := validateDomainPattern env.unicode domain
  if decision.status = .blocked then none
  else
    return ⟨decision.normalized, normalizeScope env (fields.get "scope") "chat".toList,
      sourceFromPayload (fields.get "source")⟩

def bundleFromPayload (item : Json) : Option PackageBundleGrant := do
  let fields ← item.fields?
  let bundleId ← stringValue (either (fields.get "bundle_id") (fields.get "bundleId")) none
  if expandPackageBundle bundleId = [] then none
  else
    return ⟨bundleId, normalizeScope env (fields.get "scope") "workspace".toList,
      sourceFromPayload (fields.get "source")⟩

def publicNetworkFromPayload (item : Json) : Option PublicNetworkGrant := do
  let fields ← item.fields?
  return ⟨normalizeScope env (fields.get "scope") "chat".toList,
    sourceFromPayload (fields.get "source")⟩

def temporaryFromPayload (item : Json) : Option TemporaryGrant := do
  let fields ← item.fields?
  let kind ← stringValue (fields.get "kind") none
  let value ← stringValue (fields.get "value") none
  let fingerprint ← stringValue (fields.get "fingerprint") none
  return ⟨kind, value, fingerprint,
    (stringValue (either (fields.get "expires_after") (fields.get "expiresAfter"))
      (some "once".toList)).getD "once".toList⟩

def mountsFromPayload (workspace : Option Str) (value : Json) : List MountGrant :=
  Keyed.collect MountGrant.path (value.items.filterMap (mountFromPayload env workspace))

def domainsFromPayload (value : Json) : List DomainGrant :=
  Keyed.collect DomainGrant.domain (value.items.filterMap (domainFromPayload env))

def bundlesFromPayload (value : Json) : List PackageBundleGrant :=
  Keyed.collect PackageBundleGrant.bundleId (value.items.filterMap (bundleFromPayload env))

def publicNetworksFromPayload (value : Json) : List PublicNetworkGrant :=
  Keyed.collect PublicNetworkGrant.scope (value.items.filterMap (publicNetworkFromPayload env))

def temporaryGrantsFromPayload (value : Json) : List TemporaryGrant :=
  value.items.filterMap temporaryFromPayload

def runModeAliases : List (Str × RunMode) :=
  [("safe".toList, .safe), ("on".toList, .safe), ("off".toList, .safe), ("bypass".toList, .full),
    ("standard".toList, .safe), ("standard-sandbox".toList, .safe),
    ("standard_sandbox".toList, .safe), ("trust".toList, .safe), ("trusted".toList, .safe),
    ("trusted-sandbox".toList, .safe), ("trusted_sandbox".toList, .safe), ("managed".toList, .safe),
    ("full".toList, .full), ("full-host-access".toList, .full), ("full_host_access".toList, .full)]

/-- `normalize_run_mode`, `none` where it raises; the text of another value is no mode. -/
def normalizeRunMode : Json → Option RunMode
  | .null => some .safe
  | .str s =>
      if strip s = [] then some .safe else runModeAliases.lookup (env.unicode.lower (strip s))
  | _ => none

def contextFromPayload (payload : Json) (source : Str) : Option RunContext := do
  let fields ← payload.fields?
  if !fields.has "run_mode" then none
  else
    let runMode ← normalizeRunMode env (fields.get "run_mode")
    let workspace := workspaceFromPayload env (fields.get "workspace")
    return {
      runMode
      workspace
      mounts := mountsFromPayload env workspace (fields.get "mounts")
      domains := domainsFromPayload env (fields.get "domains")
      bundles := bundlesFromPayload env (fields.get "bundles")
      publicNetwork := publicNetworksFromPayload env
        (either (fields.get "public_network") (fields.get "publicNetwork"))
      temporaryGrants := temporaryGrantsFromPayload (fields.get "temporary_grants")
      runModeSource := runModeSourceFromPayload (fields.get "run_mode_source")
      source }

/-! ### Grants of the user's store -/

def originItemScope (item : Json) (default : Str) : Str :=
  match item.fields? with
  | some fields => normalizeScope env (fields.get "scope") default
  | none => default

def isSessionItem (item : Json) : Bool := originItemScope env item "chat".toList ≠ "workspace".toList

def isSessionBundle (item : Json) : Bool :=
  originItemScope env item "workspace".toList ≠ "workspace".toList ||
    match item.fields? with
    | some fields => sourceFromPayload (fields.get "source") = "disabled".toList
    | none => false

def filterItems (key : String) (keep : Json → Bool) (fields : Dict) : Dict :=
  match fields.get key with
  | .arr items => fields.set key (.arr (items.filter keep))
  | _ => fields

def withoutMaterializedUserGrants (payload : Json) : Json :=
  payload.mapObj fun fields =>
    fields
      |> filterItems "mounts" (isSessionItem env)
      |> filterItems "domains" (isSessionItem env)
      |> filterItems "bundles" (isSessionBundle env)
      |> filterItems "public_network" (isSessionItem env)
      |> filterItems "publicNetwork" (isSessionItem env)

def withUserGrants (context : RunContext) : RunContext :=
  let userMounts := mountsFromPayload env context.workspace (env.userGrants.get "mounts")
  let userDomains := domainsFromPayload env (env.userGrants.get "domains")
  let userBundles := bundlesFromPayload env (env.userGrants.get "bundles")
  let userPublicNetwork := publicNetworksFromPayload env (env.userGrants.get "public_network")
  if userMounts = [] ∧ userDomains = [] ∧ userBundles = [] ∧ userPublicNetwork = [] then context
  else
    { context with
      mounts := Keyed.overlay MountGrant.path userMounts context.mounts
      domains := Keyed.overlay DomainGrant.domain userDomains context.domains
      bundles := Keyed.overlay PackageBundleGrant.bundleId userBundles context.bundles
      publicNetwork :=
        Keyed.overlay PublicNetworkGrant.scope userPublicNetwork context.publicNetwork }

/-! ### Storing and rebuilding -/

def sessionPersistedContext (context : RunContext) : RunContext :=
  { context with
    mounts := context.mounts.filter fun grant =>
      grant.scope ∉ ["workspace".toList, "once".toList]
    domains := context.domains.filter fun grant => grant.scope ≠ "workspace".toList
    bundles := context.bundles.filter fun grant =>
      grant.scope ≠ "workspace".toList || grant.source = "disabled".toList
    publicNetwork := context.publicNetwork.filter fun grant => grant.scope ≠ "workspace".toList }

abbrev Sessions := Str → Option Json

def originDict (origin : Json) : Dict := origin.fields?.getD []

def runContextOriginKey : String := "sandbox_run_context"

def persistRunContext (sessions : Sessions) (sessionKey : Str) (context : RunContext) :
    Except Str Sessions :=
  match sessions sessionKey with
  | none => .error ("Session not found: ".toList ++ sessionKey)
  | some origin =>
      let payload := (sessionPersistedContext context).toOriginPayload
      let updated := (originDict origin).set runContextOriginKey (.obj payload)
      .ok fun key => if key = sessionKey then some (.obj updated) else sessions key

def savedRunContext (origin : Json) : Option RunContext :=
  let payload := (originDict origin).get runContextOriginKey
  contextFromPayload env (withoutMaterializedUserGrants env payload) "saved".toList

def getRunContext (sessions : Sessions) (sessionKey : Str) (workspace : Option Str)
    (includeUserGrants : Bool) : RunContext :=
  let default : RunContext :=
    { runMode := env.configuredMode
      workspace := workspaceFromPayload env (optionalText workspace)
      source := "default".toList }
  let context := ((sessions sessionKey).bind (savedRunContext env)).getD default
  if includeUserGrants then withUserGrants env context else context

def runContextForSubagent (context : RunContext) : RunContext :=
  { context with
    mounts := context.mounts.filter fun grant => grant.scope ≠ "once".toList
    domains := context.domains.filter fun grant => grant.scope ≠ "once".toList
    bundles := context.bundles.filter fun grant => grant.scope ≠ "once".toList
    publicNetwork := context.publicNetwork.filter fun grant => grant.scope ≠ "once".toList
    temporaryGrants := [] }

end

end OpenStarry.Sandbox
