import OpenStarry.Lib.Cut

/-!
# The origin guard of the gateway

Which `Origin` headers a request or a handshake may carry. How `urlsplit` and `ipaddress` read a text
is left open; what they read of a name that no address looks like is a name.
-/

namespace OpenStarry.Gateway

open Lib Lib.Text

/-! ### What is read of a URL -/

/-- `urlsplit(url)`; `port` is `none` where reading it raises. -/
structure SplitResult where
  scheme : Str
  username : Option Str
  password : Option Str
  hostname : Option Str
  port : Option (Option Nat)
  path : Str
  query : Str
  fragment : Str

structure Address where
  compressed : Str
  isLoopback : Bool

/-- The readers of the standard library, `none` where they raise. -/
structure Reading where
  urlsplit : Str → Option SplitResult
  ipAddress : Str → Option Address
  casefold : Str → Str
  casefold_ascii : ∀ s, (∀ c ∈ s, c.toNat < 128) → casefold s = s.map Char.toLower

structure GatewayConfig where
  host : Str
  port : Nat
  allowedOrigins : List Str

/-- The URL of a request; `port` is `none` where reading it raises. -/
structure RequestUrl where
  scheme : Str
  hostname : Option Str
  port : Option (Option Nat)

/-! ### The guard -/

def defaultSchemePort (scheme : Str) : Option Nat :=
  if scheme = "http".toList ∨ scheme = "ws".toList then some 80
  else if scheme = "https".toList ∨ scheme = "wss".toList then some 443
  else none

def effectivePort (scheme : Str) (port : Option Nat) : Option Nat := port <|> defaultSchemePort scheme

def httpEquivalentScheme (scheme : Str) : Str :=
  if scheme = "ws".toList then "http".toList
  else if scheme = "wss".toList then "https".toList
  else scheme

def browserOriginSchemes : List Str := ["http".toList, "https".toList]

def wildcardBindHosts : List Str := ["0.0.0.0".toList, "::".toList]

/-- `value[1:-1]` where it stands in brackets. -/
def withoutBrackets (value : Str) : Str :=
  if value.head? = some '[' ∧ value.getLast? = some ']' then value.tail.dropLast else value

variable (r : Reading)

def normalizedHostname (hostname : Option Str) : Option Str :=
  hostname.bind fun hostname =>
    let value := withoutBrackets (r.casefold ((strip hostname).rdropWhile (· = '.')))
    if value = [] then none
    else some (((r.ipAddress (beforeFirst '%' value)).map Address.compressed).getD value)

def isLoopbackHostname (hostname : Option Str) : Bool :=
  match normalizedHostname r hostname with
  | none => false
  | some normalized =>
      normalized = "localhost".toList || ".localhost".toList.isSuffixOf normalized ||
        (r.ipAddress normalized).any Address.isLoopback

def isIpLiteral (hostname : Option Str) : Bool :=
  match normalizedHostname r hostname with
  | none => false
  | some normalized => (r.ipAddress normalized).isSome

def requestAuthorityMatchesConfig (requestScheme requestHostname : Str) (requestPort : Option Nat)
    (config : GatewayConfig) : Bool :=
  match normalizedHostname r (some requestHostname), normalizedHostname r (some config.host) with
  | some requestHost, some bindHost =>
      if effectivePort (httpEquivalentScheme requestScheme) requestPort ≠ some config.port then false
      else if bindHost ∈ wildcardBindHosts then
        isIpLiteral r (some requestHost) || isLoopbackHostname r (some requestHost)
      else if isLoopbackHostname r (some bindHost) then isLoopbackHostname r (some requestHost)
      else requestHost = bindHost
  | _, _ => false

def parsedBrowserOrigin (origin : Str) : Option (SplitResult × Option Nat) :=
  if origin = [] ∨ origin = "null".toList then none
  else
    match r.urlsplit origin with
    | none => none
    | some parsed =>
        match parsed.port with
        | none => none
        | some port =>
            if parsed.scheme ∉ browserOriginSchemes ∨ parsed.hostname = none ∨
                parsed.username ≠ none ∨ parsed.password ≠ none ∨ parsed.path ≠ [] ∨
                parsed.query ≠ [] ∨ parsed.fragment ≠ [] then none
            else some (parsed, port)

def originAllowed (origin : Option Str) (requestScheme : Str) (requestHostname : Option Str)
    (requestPort : Option Nat) (config : Option GatewayConfig) : Bool :=
  match origin with
  | none => true
  | some origin =>
      match parsedBrowserOrigin r origin, requestHostname with
      | some (parsed, parsedPort), some requestHostname =>
          let scheme := httpEquivalentScheme requestScheme
          if config.any fun config => config.allowedOrigins.any fun allowed =>
              allowed ≠ ['*'] && allowed = origin then true
          else if config.any fun config =>
              !requestAuthorityMatchesConfig r scheme requestHostname requestPort config then false
          else
            parsed.scheme = scheme &&
              normalizedHostname r parsed.hostname = normalizedHostname r (some requestHostname) &&
              effectivePort parsed.scheme parsedPort = effectivePort scheme requestPort
      | _, _ => false

def requestOriginAllowed (origin : Option Str) (url : RequestUrl) (config : Option GatewayConfig) :
    Bool :=
  match url.port with
  | none => false
  | some port => originAllowed r origin url.scheme url.hostname port config

def websocketOriginAllowed (origin : Option Str) (url : Option RequestUrl)
    (config : Option GatewayConfig) : Bool :=
  match url with
  | none => origin.isNone
  | some url => requestOriginAllowed r origin url config

/-! ### What an accepted origin is -/

/-- An origin of a browser, as `urlsplit` reads it. -/
structure WellFormed (origin : Str) (parsed : SplitResult) (port : Option Nat) : Prop where
  notNull : origin ≠ "null".toList ∧ origin ≠ []
  split : r.urlsplit origin = some parsed
  port : parsed.port = some port
  scheme : parsed.scheme = "http".toList ∨ parsed.scheme = "https".toList
  hostname : parsed.hostname ≠ none
  noUser : parsed.username = none ∧ parsed.password = none
  nothingBehind : parsed.path = [] ∧ parsed.query = [] ∧ parsed.fragment = []

/-- A host that the gateway answers for, with the bind host of the configuration. -/
inductive Serves (bind host : Str) : Prop where
  | wildcard (hbind : bind = "0.0.0.0".toList ∨ bind = "::".toList)
      (hhost : isIpLiteral r (some host) = true ∨ isLoopbackHostname r (some host) = true)
  | loopback (hbind : isLoopbackHostname r (some bind) = true)
      (hhost : isLoopbackHostname r (some host) = true)
  | bound (hhost : host = bind)

structure SameOrigin (config : GatewayConfig) (url : RequestUrl) (parsed : SplitResult)
    (port : Option Nat) : Prop where
  scheme : parsed.scheme = httpEquivalentScheme url.scheme
  host : ∃ host bind, normalizedHostname r parsed.hostname = some host ∧
    normalizedHostname r url.hostname = some host ∧
    normalizedHostname r (some config.host) = some bind ∧ Serves r bind host
  port : effectivePort parsed.scheme port = some config.port ∧
    ∃ requestPort, url.port = some requestPort ∧
      effectivePort (httpEquivalentScheme url.scheme) requestPort = some config.port

def dnsChars : Str :=
  "abcdefghijklmnopqrstuvwxyzABCDEFGHIJKLMNOPQRSTUVWXYZ0123456789-_.".toList

def IsDnsName (name : Str) : Prop := ∀ c ∈ name, c ∈ dnsChars

def plainName (name : Str) : Str := (name.rdropWhile (· = '.')).map Char.toLower

/-- A name that stands neither for the gateway by its configuration nor for the loopback. -/
structure Foreign (config : GatewayConfig) (name : Str) : Prop where
  isName : IsDnsName name
  noAddress : r.ipAddress (plainName name) = none
  notLocal : plainName name ≠ "localhost".toList ∧ ¬ ".localhost".toList <:+ plainName name
  notBound : normalizedHostname r (some config.host) ≠ some (plainName name)

structure Accepts (config : GatewayConfig) (origin : Str) (url : RequestUrl) : Prop where
  sameOrListed : ∃ parsed port, WellFormed r origin parsed port ∧
    ((origin ∈ config.allowedOrigins ∧ origin ≠ ['*']) ∨ SameOrigin r config url parsed port)
  notForeign : origin ∉ config.allowedOrigins → ∀ name, url.hostname = some name →
    ¬ Foreign r config name

/-! ### What the guard accepts -/

section

variable {r} {config : GatewayConfig} {origin name : Str} {url : RequestUrl}

theorem wellFormed_of_parsedBrowserOrigin {parsed : SplitResult} {port : Option Nat}
    (h : parsedBrowserOrigin r origin = some (parsed, port)) : WellFormed r origin parsed port := by
  unfold parsedBrowserOrigin at h
  split_ifs at h with hnull
  rw [not_or] at hnull
  cases hsplit : r.urlsplit origin with
  | none =>
      rw [hsplit] at h
      cases h
  | some found =>
      rw [hsplit] at h
      dsimp only at h
      cases hport : found.port with
      | none =>
          rw [hport] at h
          cases h
      | some foundPort =>
          rw [hport] at h
          dsimp only at h
          split_ifs at h with hbad
          cases h
          simp only [not_or, not_not] at hbad
          obtain ⟨hscheme, hhost, huser, hpassword, hpath, hquery, hfragment⟩ := hbad
          refine ⟨⟨hnull.2, hnull.1⟩, hsplit, hport, ?_, hhost, ⟨huser, hpassword⟩, hpath, hquery,
            hfragment⟩
          simpa [browserOriginSchemes] using hscheme

theorem serves_of_authority {scheme hostname : Str} {port : Option Nat}
    (h : requestAuthorityMatchesConfig r scheme hostname port config = true) :
    effectivePort (httpEquivalentScheme scheme) port = some config.port ∧
      ∃ host bind, normalizedHostname r (some hostname) = some host ∧
        normalizedHostname r (some config.host) = some bind ∧ Serves r bind host := by
  unfold requestAuthorityMatchesConfig at h
  split at h
  case h_2 => cases h
  case h_1 host bind hhost hbind =>
    split_ifs at h with hport hwildcard hloopback
    · refine ⟨not_not.1 hport, host, bind, hhost, hbind, .wildcard ?_ ?_⟩
      · simpa [wildcardBindHosts] using hwildcard
      · simpa using h
    · exact ⟨not_not.1 hport, host, bind, hhost, hbind, .loopback hloopback h⟩
    · exact ⟨not_not.1 hport, host, bind, hhost, hbind, .bound (by simpa using h)⟩

theorem httpEquivalentScheme_twice (scheme : Str) :
    httpEquivalentScheme (httpEquivalentScheme scheme) = httpEquivalentScheme scheme := by
  have hhttp : httpEquivalentScheme "http".toList = "http".toList := by decide
  have hhttps : httpEquivalentScheme "https".toList = "https".toList := by decide
  by_cases hws : scheme = "ws".toList
  · rw [hws]
    exact hhttp
  · by_cases hwss : scheme = "wss".toList
    · rw [hwss]
      exact hhttps
    · have hself : httpEquivalentScheme scheme = scheme := by
        rw [httpEquivalentScheme, if_neg hws, if_neg hwss]
      rw [hself, hself]

theorem accepted_of_originAllowed {hostname : Option Str} {port : Option Nat}
    (h : originAllowed r (some origin) url.scheme hostname port (some config) = true)
    (hhostname : url.hostname = hostname) (hport : url.port = some port) :
    ∃ parsed parsedPort, WellFormed r origin parsed parsedPort ∧
      ((origin ∈ config.allowedOrigins ∧ origin ≠ ['*']) ∨
        SameOrigin r config url parsed parsedPort) := by
  unfold originAllowed at h
  dsimp only at h
  cases hparsed : parsedBrowserOrigin r origin with
  | none =>
      rw [hparsed] at h
      cases h
  | some read =>
      obtain ⟨parsed, parsedPort⟩ := read
      rw [hparsed] at h
      cases hostname with
      | none => cases h
      | some name =>
          refine ⟨parsed, parsedPort, wellFormed_of_parsedBrowserOrigin hparsed, ?_⟩
          simp only [Option.any_some] at h
          split_ifs at h with hlisted hauthority
          · left
            obtain ⟨allowed, hallowed, hsame⟩ := List.any_eq_true.1 hlisted
            simp only [Bool.and_eq_true, decide_eq_true_eq] at hsame
            exact ⟨hsame.2 ▸ hallowed, hsame.2 ▸ hsame.1⟩
          · right
            simp only [Bool.and_eq_true, decide_eq_true_eq] at h
            obtain ⟨⟨hscheme, hhosts⟩, hports⟩ := h
            have hserved : requestAuthorityMatchesConfig r (httpEquivalentScheme url.scheme) name
                port config = true := by simpa using hauthority
            obtain ⟨heffective, host, bind, hhost, hbind, hserves⟩ := serves_of_authority hserved
            rw [httpEquivalentScheme_twice] at heffective
            refine ⟨hscheme, ⟨host, bind, hhosts.trans hhost, ?_, hbind, hserves⟩,
              hports.trans heffective, port, hport, heffective⟩
            rw [hhostname]
            exact hhost

end

/-! ### Names of the DNS -/

section

variable {r} {config : GatewayConfig} {name : Str}

theorem dnsChars_spec : ∀ c ∈ dnsChars, c.toNat < 128 ∧ isSpace c = false ∧ c ≠ '[' ∧ c ≠ '%' ∧
    c.toLower ∈ dnsChars ∧ c.toLower.toLower = c.toLower ∧ (c.toLower = '.' ↔ c = '.') := by
  decide +kernel

theorem isDnsName_plainName (hname : IsDnsName name) : IsDnsName (plainName name) := by
  intro c hc
  obtain ⟨d, hd, rfl⟩ := List.mem_map.1 hc
  exact (dnsChars_spec d (hname d ((List.rdropWhile_prefix _ _).subset hd))).2.2.2.2.1

theorem plainName_plainName (hname : IsDnsName name) :
    plainName (plainName name) = plainName name := by
  have hdots : (plainName name).rdropWhile (· = '.') = plainName name := by
    rw [List.rdropWhile_eq_self_iff]
    intro hne
    have hne' : name.rdropWhile (· = '.') ≠ [] := by
      intro hempty
      apply hne
      rw [plainName, hempty]
      rfl
    have hlast : (plainName name).getLast hne =
        ((name.rdropWhile (· = '.')).getLast hne').toLower := List.getLast_map _
    have hnot := List.rdropWhile_last_not (· = '.') name hne'
    have hmem := hname _ ((List.rdropWhile_prefix _ _).subset (List.getLast_mem hne'))
    rw [hlast]
    simp only [decide_eq_true_eq] at hnot ⊢
    exact fun hdot => hnot ((dnsChars_spec _ hmem).2.2.2.2.2.2.1 hdot)
  rw [plainName, hdots, plainName, List.map_map]
  refine List.map_congr_left fun c hc => ?_
  exact (dnsChars_spec c (hname c ((List.rdropWhile_prefix _ _).subset hc))).2.2.2.2.2.1

theorem normalizedHostname_name (hname : IsDnsName name)
    (haddress : r.ipAddress (plainName name) = none) :
    normalizedHostname r (some name) =
      if plainName name = [] then none else some (plainName name) := by
  have hstrip : strip name = name :=
    strip_eq_self fun c hc => (dnsChars_spec c (hname c hc)).2.1
  have hfold : r.casefold (name.rdropWhile (· = '.')) = plainName name := by
    refine r.casefold_ascii _ fun c hc => ?_
    exact (dnsChars_spec c (hname c ((List.rdropWhile_prefix _ _).subset hc))).1
  have hplain := isDnsName_plainName hname
  have hbrackets : withoutBrackets (plainName name) = plainName name := by
    rw [withoutBrackets, if_neg]
    rintro ⟨hhead, -⟩
    exact (dnsChars_spec _ (hplain _ (List.mem_of_mem_head? hhead))).2.2.1 rfl
  have hzone : beforeFirst '%' (plainName name) = plainName name := by
    refine beforeFirst_eq_self fun hmem => ?_
    exact (dnsChars_spec _ (hplain _ hmem)).2.2.2.1 rfl
  simp only [normalizedHostname, Option.bind_some, hstrip, hfold, hbrackets, hzone, haddress,
    Option.map_none, Option.getD_none]

theorem not_serves_of_foreign (h : Foreign r config name) {host bind : Str}
    (hhost : normalizedHostname r (some name) = some host)
    (hbind : normalizedHostname r (some config.host) = some bind) : ¬ Serves r bind host := by
  obtain ⟨hname, haddress, ⟨hlocal, hsuffix⟩, hbound⟩ := h
  rw [normalizedHostname_name hname haddress] at hhost
  split_ifs at hhost with hempty
  cases hhost
  have hagain : normalizedHostname r (some (plainName name)) = some (plainName name) := by
    have hplain := plainName_plainName hname
    rw [normalizedHostname_name (isDnsName_plainName hname) (by rwa [hplain]), hplain,
      if_neg hempty]
  have hliteral : isIpLiteral r (some (plainName name)) = false := by
    rw [isIpLiteral, hagain]
    simp [haddress]
  have hloopback : isLoopbackHostname r (some (plainName name)) = false := by
    have hend : ".localhost".toList.isSuffixOf (plainName name) = false :=
      Bool.eq_false_iff.2 fun h => hsuffix (List.isSuffixOf_iff_suffix.1 h)
    rw [isLoopbackHostname, hagain]
    dsimp only
    rw [decide_eq_false hlocal, hend, haddress]
    rfl
  intro hserves
  cases hserves with
  | wildcard _ hhost =>
      rw [hliteral, hloopback] at hhost
      simp at hhost
  | loopback _ hhost =>
      rw [hloopback] at hhost
      cases hhost
  | bound hhost => exact hbound (hbind.trans (congrArg some hhost.symm))

end

/-- What the guard accepts, of a request or of the handshake of a socket: a listed origin or one of a
host that the gateway serves, and never one of a foreign name. -/
theorem accepts_of_allowed (r : Reading) (config : GatewayConfig) (origin : Str) (url : RequestUrl)
    (hallowed : requestOriginAllowed r (some origin) url (some config) = true ∨
      websocketOriginAllowed r (some origin) (some url) (some config) = true) :
    Accepts r config origin url := by
  have hrequest : requestOriginAllowed r (some origin) url (some config) = true :=
    hallowed.elim id id
  unfold requestOriginAllowed at hrequest
  cases hport : url.port with
  | none =>
      rw [hport] at hrequest
      cases hrequest
  | some port =>
      rw [hport] at hrequest
      have haccepted := accepted_of_originAllowed hrequest rfl hport
      refine ⟨haccepted, fun hunlisted name hname hforeign => ?_⟩
      obtain ⟨parsed, parsedPort, -, ⟨hlisted, -⟩ | hsame⟩ := haccepted
      · exact hunlisted hlisted
      · obtain ⟨host, bind, -, hhost, hbind, hserves⟩ := hsame.host
        rw [hname] at hhost
        exact not_serves_of_foreign hforeign hhost hbind hserves

def loopbackReading : Reading where
  urlsplit url :=
    if url = "http://localhost:18790".toList then
      some ⟨"http".toList, none, none, some "localhost".toList, some (some 18790), [], [], []⟩
    else none
  ipAddress text := if text = "127.0.0.1".toList then some ⟨text, true⟩ else none
  casefold := List.map Char.toLower
  casefold_ascii := Lib.Text.map_toLower_ascii

theorem accepts_loopback_page :
    Accepts loopbackReading ⟨"127.0.0.1".toList, 18790, []⟩ "http://localhost:18790".toList
      ⟨"ws".toList, some "localhost".toList, some (some 18790)⟩ :=
  accepts_of_allowed loopbackReading ⟨"127.0.0.1".toList, 18790, []⟩
    "http://localhost:18790".toList ⟨"ws".toList, some "localhost".toList, some (some 18790)⟩
    (Or.inr (by decide +kernel))

end OpenStarry.Gateway
