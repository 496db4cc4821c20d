import OpenStarry.Lib.Substring
import OpenStarry.Lib.Url

/-!
# Domain names and patterns

How a host or a pattern is read from text, with the port, the path and the user information around
it, and which ones are accepted: no addresses, no numbers that stand for one, no bare names.
-/

namespace OpenStarry.Sandbox

open Lib
open Lib.Text

inductive DomainStatus
  | allowed
  | blocked
  deriving DecidableEq

structure DomainDecision where
  status : DomainStatus
  normalized : Str
  reason : String
  deriving DecidableEq

def blocked (normalized : Str) (reason : String) : DomainDecision := ⟨.blocked, normalized, reason⟩

def allowed (normalized : Str) (reason : String) : DomainDecision := ⟨.allowed, normalized, reason⟩

def allowedWildcardSuffixes : List Str := ["pythonhosted.org".toList]

/-! ### Names and addresses -/

def isDnsLabelChar (c : Char) : Bool := ('a' ≤ c && c ≤ 'z') || c.isDigit || c == '-'

def isDnsLabel (label : Str) : Bool :=
  !label.isEmpty && label.length ≤ 63 && label.head? != some '-' && label.getLast? != some '-' &&
    label.all isDnsLabelChar

def isValidDnsName (value : Str) : Bool :=
  !value.isEmpty && value.length ≤ 253 && (value.splitOn '.').all isDnsLabel

def isLowerHexDigit (c : Char) : Bool := c.isDigit || ('a' ≤ c && c ≤ 'f')

/-- A label that is a number: digits of any script, or `0x` and hexadecimal digits. -/
def isNumericLabel (label : Str) : Bool :=
  (!label.isEmpty && label.all isDecimal) ||
    match label with
    | '0' :: 'x' :: digits => !digits.isEmpty && digits.all isLowerHexDigit
    | _ => false

def isIpv4NumericAlias (value : Str) : Bool :=
  let labels := value.splitOn '.'
  labels.length ≤ 4 && labels.all isNumericLabel

def isBracket (c : Char) : Bool := c = '[' || c = ']'

/-- `value.strip("[]")`. -/
def stripBrackets (value : Str) : Str := (value.dropWhile isBracket).rdropWhile isBracket

def isIpLiteral (value : Str) : Bool :=
  isIpAddress (stripBrackets value) || isIpv4NumericAlias (stripBrackets value)

def isValidPort (value : Str) : Bool :=
  !value.isEmpty && value.length ≤ 5 && value.all Char.isDigit && intOf value ≤ 65535

/-! ### Reading the host -/

/-- The host and what is wrong around it. -/
structure Extraction where
  host : Str
  error : Option String
  deriving DecidableEq

section

variable (unicode : Unicode)

def extractFromUrl (text : Str) : Extraction :=
  match Url.netloc unicode text with
  | none => ⟨[], some "invalid_domain"⟩
  | some netloc =>
      let hostname := Url.hostname unicode netloc
      if !Url.portFits netloc then ⟨hostname, some "invalid_port"⟩
      else if '[' ∈ netloc ∨ ']' ∈ netloc then ⟨hostname, some "invalid_domain"⟩
      else ⟨hostname, none⟩

def extractBracketed (host : Str) : Extraction :=
  if ']' ∉ host then ⟨host, some "invalid_domain"⟩
  else
    let bracketedHost := beforeFirst ']' host ++ [']']
    match afterFirst ']' host with
    | [] => ⟨bracketedHost, none⟩
    | ':' :: port =>
        if isValidPort port then ⟨bracketedHost, none⟩ else ⟨bracketedHost, some "invalid_port"⟩
    | _ => ⟨host, some "invalid_domain"⟩

def extractBare (text : Str) : Extraction :=
  let host := beforeFirst '/' text
  if host.head? = some '[' then extractBracketed host
  else if host.count ':' = 1 then
    if isValidPort (afterFirst ':' host) then ⟨beforeFirst ':' host, none⟩
    else ⟨beforeFirst ':' host, some "invalid_port"⟩
  else ⟨host, none⟩

def extractValidationHost (raw : Str) : Extraction :=
  let text := unicode.lower (strip raw)
  if text = [] then ⟨[], none⟩
  else if (find "://".toList text).isSome then extractFromUrl unicode text
  else extractBare text

def isWildcard (value : Str) : Bool := ['*', '.'].isPrefixOf value

def normalizeExactValidationHost (value : Str) : Str :=
  if value.getLast? = some '.' ∧ ¬isWildcard value then value.dropLast else value

/-! ### Patterns -/

def validateDomainPattern (raw : Str) : DomainDecision :=
  let extraction := extractValidationHost unicode raw
  let host := extraction.host
  if host = [] then blocked host "empty_domain"
  else
    match extraction.error with
    | some reason => blocked host reason
    | none =>
        if isIpLiteral host then blocked host "ip_literal"
        else if isWildcard host then
          let suffix := host.drop 2
          if suffix.count '.' < 1 then blocked host "broad_wildcard"
          else if !isValidDnsName suffix then blocked host "invalid_domain"
          else if suffix ∉ allowedWildcardSuffixes then blocked host "broad_wildcard"
          else allowed host "wildcard_domain"
        else if '*' ∈ host then blocked host "invalid_wildcard"
        else
          let normalized := normalizeExactValidationHost host
          if normalized = [] then blocked normalized "empty_domain"
          else if isIpLiteral normalized then blocked normalized "ip_literal"
          else if '.' ∉ normalized then blocked normalized "not_fqdn"
          else if !isValidDnsName normalized then blocked normalized "invalid_domain"
          else allowed normalized "exact_domain"

def domainMatches (pattern host : Str) : Bool :=
  let decision := validateDomainPattern unicode pattern
  let extraction := extractValidationHost unicode host
  let normalizedHost := normalizeExactValidationHost extraction.host
  decision.status = .allowed && extraction.error.isNone &&
    !(isIpLiteral normalizedHost || !isValidDnsName normalizedHost) &&
    if isWildcard decision.normalized then
      ('.' :: decision.normalized.drop 2).isSuffixOf normalizedHost
    else normalizedHost == decision.normalized

/-- User allow and deny entries, without the wildcard allowlist. -/
def validatePolicyDomainPattern (raw : Str) : DomainDecision :=
  let extraction := extractValidationHost unicode raw
  let host := extraction.host
  if host = [] then blocked host "empty_domain"
  else
    match extraction.error with
    | some reason => blocked host reason
    | none =>
        if isWildcard host then
          let suffix := (host.drop 2).rdropWhile (· == '.')
          if suffix.count '.' < 1 then blocked host "broad_wildcard"
          else if !isValidDnsName suffix then blocked host "invalid_domain"
          else allowed (['*', '.'] ++ suffix) "wildcard_domain"
        else if '*' ∈ host then blocked host "invalid_wildcard"
        else
          let normalized := normalizeExactValidationHost host
          if isIpLiteral normalized then blocked normalized "ip_literal"
          else if '.' ∉ normalized ∨ !isValidDnsName normalized then
            blocked normalized "invalid_domain"
          else allowed normalized "exact_domain"

def policyDomainMatches (pattern host : Str) : Bool :=
  let decision := validatePolicyDomainPattern unicode pattern
  let hostDecision := validateDomainPattern unicode host
  decision.status = .allowed && hostDecision.status = .allowed && '*' ∉ hostDecision.normalized &&
    if isWildcard decision.normalized then
      ('.' :: decision.normalized.drop 2).isSuffixOf hostDecision.normalized
    else hostDecision.normalized == decision.normalized

end

end OpenStarry.Sandbox

/-!
# The stored policy and the run context

The user's policy for commands and for the network, and what one session is allowed beyond it: the
run mode and the grants for paths, domains, package bundles and the public network.
-/

namespace OpenStarry.Sandbox

open Lib

/-! ### Policy -/

inductive SystemTools
  | auto
  | prompt
  | disabled
  deriving DecidableEq

structure CommandPolicySettings where
  requireApprovalPrefixes : List (List Str) := []
  autoAllowPrefixes : List (List Str) := []
  systemTools : SystemTools := .auto

structure NetworkPolicySettings where
  blockAllNetwork : Bool := false
  allowDomains : List Str := []
  denyDomains : List Str := []

structure SandboxPolicy where
  commands : CommandPolicySettings := {}
  network : NetworkPolicySettings := {}

/-! ### Run context -/

inductive RunMode
  | safe
  | full
  deriving DecidableEq

structure MountGrant where
  path : Str
  access : Str := "ro".toList
  scope : Str := "chat".toList
  deriving DecidableEq

structure DomainGrant where
  domain : Str
  scope : Str := "chat".toList
  source : Str := "manual".toList
  deriving DecidableEq

structure PackageBundleGrant where
  bundleId : Str
  scope : Str := "workspace".toList
  source : Str := "manual".toList
  deriving DecidableEq

structure PublicNetworkGrant where
  scope : Str := "chat".toList
  source : Str := "manual".toList
  deriving DecidableEq

structure TemporaryGrant where
  kind : Str
  value : Str
  fingerprint : Str
  expiresAfter : Str := "once".toList
  deriving DecidableEq

structure RunContext where
  runMode : RunMode
  workspace : Option Str := none
  mounts : List MountGrant := []
  domains : List DomainGrant := []
  bundles : List PackageBundleGrant := []
  publicNetwork : List PublicNetworkGrant := []
  temporaryGrants : List TemporaryGrant := []
  runModeSource : Option Str := none
  source : Str := "default".toList

end OpenStarry.Sandbox

/-!
# Network decisions

Which hosts the tools of a session may reach. A host that is no acceptable name is blocked; then the
policy's rules decide, the most specific one first, then the session's grants, the built-in lists and
the default of the run mode.
-/

namespace OpenStarry.Sandbox

open Lib
open Lib.Text

/-! ### Built-in lists -/

def packageBundles : List (String × List String) :=
  [("python-package-install", ["pypi.org", "files.pythonhosted.org", "pypi.python.org",
      "bootstrap.pypa.io", "python-poetry.org", "install.python-poetry.org"]),
   ("node-package-install", ["registry.npmjs.org", "registry.yarnpkg.com", "yarnpkg.com",
      "nodejs.org", "unpkg.com", "cdn.jsdelivr.net"]),
   ("rust-package-install", ["crates.io", "static.crates.io", "index.crates.io", "github.com",
      "objects.githubusercontent.com"]),
   ("go-package-install", ["proxy.golang.org", "sum.golang.org", "go.dev", "golang.org",
      "storage.googleapis.com"]),
   ("java-package-install", ["repo.maven.apache.org", "repo1.maven.org", "plugins.gradle.org",
      "services.gradle.org"]),
   ("php-package-install", ["packagist.org", "repo.packagist.org", "getcomposer.org"]),
   ("github-default", ["github.com", "api.github.com", "raw.githubusercontent.com",
      "objects.githubusercontent.com", "codeload.github.com", "github.githubassets.com",
      "avatars.githubusercontent.com", "actions.githubusercontent.com",
      "pipelines.actions.githubusercontent.com",
      "results-receiver.actions.githubusercontent.com", "uploads.github.com",
      "release-assets.githubusercontent.com", "ghcr.io", "pkg-containers.githubusercontent.com"])]

def defaultPackageBundleIds : List Str := packageBundles.map fun bundle => bundle.1.toList

def expandPackageBundle (bundleId : Str) : List Str :=
  match packageBundles.find? fun bundle => bundle.1.toList == bundleId with
  | some bundle => bundle.2.map String.toList
  | none => []

def defaultAllowlist : List (String × List String) :=
  [("github", ["github.com", "api.github.com", "raw.githubusercontent.com",
      "objects.githubusercontent.com", "codeload.github.com", "github.githubassets.com",
      "avatars.githubusercontent.com", "uploads.github.com",
      "release-assets.githubusercontent.com", "ghcr.io", "pkg-containers.githubusercontent.com"]),
   ("search", ["api.search.brave.com", "cn.bing.com", "html.duckduckgo.com", "duckduckgo.com",
      "api.bochaai.com", "api.exa.ai", "api.tavily.com", "cloud-iqs.aliyuncs.com",
      "www.google.com", "www.bing.com", "www.baidu.com", "m.sogou.com", "www.sogou.com"]),
   ("developer-docs", ["developer.mozilla.org", "docs.python.org", "docs.npmjs.com",
      "doc.rust-lang.org", "go.dev"])]

section

variable (unicode : Unicode)

def defaultAllowlistSource (host : Str) : Option Str :=
  (defaultAllowlist.find? fun group =>
    group.2.any fun domain => domainMatches unicode domain.toList host).map fun group =>
      "default:".toList ++ group.1.toList

/-! ### Decisions -/

inductive NetworkDecisionStatus
  | allow
  | ask
  | block
  deriving DecidableEq

structure NetworkDecision where
  status : NetworkDecisionStatus
  normalizedHost : Str
  reason : String
  source : Option Str
  deriving DecidableEq

def metadataHosts : List Str :=
  ["169.254.169.254".toList, "metadata.google.internal".toList, "metadata.azure.internal".toList]

def metadataOrValidationReason (normalized : Str) (reason : String) : String :=
  if normalized ∈ metadataHosts then "metadata_blocked" else reason

/-! ### Rules of the policy -/

abbrev Specificity := Int × Int × Int

def Specificity.less (a b : Specificity) : Bool :=
  a.1 < b.1 || (a.1 == b.1 && (a.2.1 < b.2.1 || (a.2.1 == b.2.1 && a.2.2 < b.2.2)))

def ruleSpecificity (pattern : Str) : Specificity :=
  let decision := validatePolicyDomainPattern unicode pattern
  if decision.status ≠ .allowed then (-1, -1, -1)
  else
    let exact := !isWildcard decision.normalized
    let suffix := if exact then decision.normalized else decision.normalized.drop 2
    (if exact then 1 else 0, suffix.count '.' + 1, suffix.length)

/-- `max(matches, key=...)`: the first of the most specific ones. -/
def mostSpecific : List (Str × Specificity) → Option (Str × Specificity)
  | [] => none
  | first :: rest =>
      some (rest.foldl (fun best item => if best.2.less item.2 then item else best) first)

def bestPolicyRule (host : Str) (rules : List Str) : Option (Str × Specificity) :=
  mostSpecific ((rules.filter fun rule => policyDomainMatches unicode rule host).map fun rule =>
    (rule, ruleSpecificity unicode rule))

def policyNetworkDecision (host : Str) (policy : SandboxPolicy) : Option NetworkDecision :=
  let allow := bestPolicyRule unicode host policy.network.allowDomains
  let deny := bestPolicyRule unicode host policy.network.denyDomains
  let denied (rule : Str) : NetworkDecision :=
    ⟨.block, host, "policy_domain_denied", some ("deny:".toList ++ rule)⟩
  let permitted (rule : Str) : NetworkDecision :=
    ⟨.allow, host, "policy_domain_allowed", some ("allow:".toList ++ rule)⟩
  match allow, deny with
  | some allow, some deny =>
      if deny.2.less allow.2 then some (permitted allow.1) else some (denied deny.1)
  | none, some deny => some (denied deny.1)
  | some allow, none => some (permitted allow.1)
  | none, none =>
      if policy.network.blockAllNetwork then
        some ⟨.block, host, "policy_block_all", some "policy:block_all".toList⟩
      else none

/-! ### Grants of the session -/

def domainGrantDecision (host : Str) (grants : List DomainGrant) : Option NetworkDecision :=
  (grants.find? fun grant => domainMatches unicode grant.domain host).map fun grant =>
    let system := grant.source = "system".toList
    let validation := validateDomainPattern unicode grant.domain
    ⟨.allow, host, if system then "system_domain_grant" else "domain_grant",
      some ((if system then "system:" else "domain:").toList ++ validation.normalized)⟩

def bundleDecision (host : Str) (bundleIds : List Str) : Option NetworkDecision :=
  (bundleIds.find? fun bundleId =>
    (expandPackageBundle bundleId).any fun domain => domainMatches unicode domain host).map
      fun bundleId => ⟨.allow, host, "package_bundle", some ("bundle:".toList ++ bundleId)⟩

def isDisabled (grant : PackageBundleGrant) : Bool := grant.source == "disabled".toList

def publicNetworkGrant (context : RunContext) : Option PublicNetworkGrant :=
  (context.publicNetwork.find? fun grant => grant.scope == "chat".toList).or
    (context.publicNetwork.find? fun grant => grant.scope == "workspace".toList)

def publicNetworkDecision (host : Str) (context : RunContext) : Option NetworkDecision :=
  (publicNetworkGrant context).map fun grant =>
    ⟨.allow, host, "public_network", some
      ("public_network:".toList ++
        (if grant.scope = "workspace".toList then "user" else "chat").toList)⟩

def defaultDecision (host : Str) (context : RunContext) : NetworkDecision :=
  if context.runMode = .safe then
    ⟨.allow, host, "public_default", some "policy:default_open".toList⟩
  else ⟨.ask, host, "unknown_domain", none⟩

/-- What decides on an acceptable name, in this order. -/
def decideAcceptableHost (host : Str) (context : RunContext) (policy : SandboxPolicy) :
    NetworkDecision :=
  let enabledIds := (context.bundles.filter fun grant => !isDisabled grant).map (·.bundleId)
  let disabledIds := (context.bundles.filter isDisabled).map (·.bundleId)
  let defaultIds := defaultPackageBundleIds.filter fun bundleId => bundleId ∉ disabledIds
  (policyNetworkDecision unicode host policy
    |>.or (domainGrantDecision unicode host context.domains)
    |>.or (bundleDecision unicode host enabledIds)
    |>.or ((defaultAllowlistSource unicode host).map fun source =>
        ⟨.allow, host, "default_allowlist", some source⟩)
    |>.or (bundleDecision unicode host defaultIds)
    |>.or (publicNetworkDecision host context)).getD (defaultDecision host context)

def decideNetworkAccess (host : Str) (context : RunContext) (policy : Option SandboxPolicy) :
    NetworkDecision :=
  if context.runMode = .full then
    ⟨.allow, host, "full_host_access", some "run_mode:full".toList⟩
  else
    let validation := validateDomainPattern unicode host
    if validation.status = .blocked then
      ⟨.block, validation.normalized,
        metadataOrValidationReason validation.normalized validation.reason,
        some "validation".toList⟩
    else if '*' ∈ validation.normalized then
      ⟨.block, validation.normalized, "invalid_domain", some "validation".toList⟩
    else decideAcceptableHost unicode validation.normalized context (policy.getD {})

end

end OpenStarry.Sandbox
