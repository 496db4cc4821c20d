import OpenStarry.Sandbox.PublicDns

/-!
# The addresses a URL may be fetched from

The host of a URL is resolved by the system, and by public DNS servers when the system has no answer
or only addresses that are not public. Whatever the resolvers answer, an address is handed on only
after it was checked. How `urlparse` and `ipaddress` read a text, and which addresses `ipaddress`
counts to a special range, is left open.
-/

namespace OpenStarry.Sandbox

open Lib Lib.Text

/-! ### Networks -/

abbrev IpNetwork := IpAddress × Nat

def bits (data : Bytes) : List Bool :=
  data.flatMap fun byte => (List.range 8).map fun i => byte.toNat.testBit (7 - i)

/-- `addr.version == network.version and addr in network`. -/
def IpAddress.inNetwork : IpAddress → IpNetwork → Bool
  | .v4 data, (.v4 base, n) => (bits data).take n = (bits base).take n
  | .v6 data, (.v6 base, n) => (bits data).take n = (bits base).take n
  | _, _ => false

def rfc2544FakeIpNetwork : IpNetwork := (.v4 [198, 18, 0, 0], 15)

def hardBlockedNetworks : List IpNetwork :=
  [(.v4 [0, 0, 0, 0], 8), (.v4 [10, 0, 0, 0], 8), (.v4 [100, 64, 0, 0], 10),
    (.v4 [127, 0, 0, 0], 8), (.v4 [169, 254, 0, 0], 16), (.v4 [172, 16, 0, 0], 12),
    (.v4 [192, 168, 0, 0], 16), (.v6 (List.replicate 15 0 ++ [1]), 128),
    (.v6 (0xfc :: List.replicate 15 0), 7), (.v6 (0xfe :: 0x80 :: List.replicate 14 0), 10)]

/-- A subnet of the range for benchmarks, which DNS servers with fake addresses draw from. -/
structure TrustedNetwork where
  network : IpNetwork
  inside : network.1.inNetwork rfc2544FakeIpNetwork = true
  long : rfc2544FakeIpNetwork.2 ≤ network.2

theorem TrustedNetwork.inNetwork (trusted : TrustedNetwork) {addr : IpAddress}
    (h : addr.inNetwork trusted.network = true) : addr.inNetwork rfc2544FakeIpNetwork = true := by
  obtain ⟨⟨base, n⟩, hinside, hlong⟩ := trusted
  cases base with
  | v6 base => cases hinside
  | v4 base =>
      cases addr with
      | v6 data => cases h
      | v4 data =>
          simp only [IpAddress.inNetwork, rfc2544FakeIpNetwork, decide_eq_true_eq] at h hinside hlong ⊢
          have hshort : ∀ l : List Bool, l.take 15 = (l.take n).take 15 := fun l => by
            rw [List.take_take, Nat.min_eq_left hlong]
          rw [hshort, h, ← hshort, hinside]

/-! ### The guard -/

inductive BlockReason where
  | hardBlocked (network : IpNetwork)
  | fakeIp
  | privateRange

inductive FetchError where
  | unsupportedScheme
  | noHostname
  | invalidCidr (raw : Str)
  | unsafeCidr (network : IpNetwork)
  | blocked (hostname : Str) (addr : IpAddress) (reason : BlockReason)
  | unresolved (hostname : Str)

/-- The libraries, the resolver of the system and the public DNS servers. -/
structure FetchHost where
  text : IpAddress → Str
  isPrivate : IpAddress → Bool
  isLoopback : IpAddress → Bool
  isLinkLocal : IpAddress → Bool
  isReserved : IpAddress → Bool
  ipAddress : Str → Bool
  ipNetwork : Str → Option IpNetwork
  /-- `getaddrinfo`, which may raise; of an answer the address, where it is one. -/
  getaddrinfo : Str → Option (List (Option IpAddress))
  idna : Str → Except DnsError Bytes
  exchange : Str → Bytes → Except DnsError Bytes
  queryId : Str → Nat → Nat
  dnsFallbackDisabled : Bool
  publicDnsServers : List Str

variable (host : FetchHost)

/-- `validate_trusted_fake_ip_cidrs`. -/
def validateTrustedFakeIpCidrs (values : List Str) : Except FetchError (List TrustedNetwork) :=
  values.mapM fun raw =>
    match host.ipNetwork (strip raw) with
    | none => .error (.invalidCidr raw)
    | some network =>
        if h : network.1.inNetwork rfc2544FakeIpNetwork = true ∧ rfc2544FakeIpNetwork.2 ≤ network.2 then
          .ok ⟨network, h.1, h.2⟩
        else .error (.unsafeCidr network)

def isSpecial (addr : IpAddress) : Bool :=
  host.isPrivate addr || host.isLoopback addr || host.isLinkLocal addr || host.isReserved addr

/-- `_is_non_public_address`. -/
def isNonPublicAddress (addr : IpAddress) : Bool :=
  hardBlockedNetworks.any addr.inNetwork || isSpecial host addr

/-- One round of `_validate_resolved_addresses`. -/
def vetAddress (hostname : Str) (trusted : List TrustedNetwork) (addr : IpAddress) :
    Except FetchError Str :=
  match hardBlockedNetworks.find? addr.inNetwork with
  | some network => .error (.blocked hostname addr (.hardBlocked network))
  | none =>
      if trusted.any fun t => addr.inNetwork t.network then .ok (host.text addr)
      else if isSpecial host addr then
        .error (.blocked hostname addr
          (if addr.inNetwork rfc2544FakeIpNetwork then .fakeIp else .privateRange))
      else .ok (host.text addr)

/-- `_validate_resolved_addresses`. -/
def validateResolvedAddresses (hostname : Str) (addresses : List IpAddress)
    (trusted : List TrustedNetwork) : Except FetchError (List Str) :=
  addresses.mapM (vetAddress host hostname trusted)

def addNew (answers more : List IpAddress) : List IpAddress :=
  more.foldl (fun answers addr => if addr ∈ answers then answers else answers ++ [addr]) answers

/-- `_system_resolve`; nothing where the resolver raises. -/
def systemResolve (hostname : Str) : List IpAddress :=
  addNew [] (((host.getaddrinfo hostname).getD []).filterMap id)

/-- One server; the answers to the first query stay when the second one fails. -/
def askServer (hostname : Str) (answers : List IpAddress) (server : Str) : List IpAddress :=
  let ask (qtype : Nat) := queryPublicDns host.idna host.ipAddress host.exchange
    (host.queryId server qtype) server hostname qtype
  match ask 1 with
  | .error _ => answers
  | .ok first =>
      match ask 28 with
      | .error _ => addNew answers first
      | .ok second => addNew (addNew answers first) second

/-- `_resolve_public_dns`. -/
def resolvePublicDns (hostname : Str) : List IpAddress :=
  if host.dnsFallbackDisabled then []
  else host.publicDnsServers.foldl (askServer host hostname) []

/-- `_hostname_is_ip_literal`. -/
def hostnameIsIpLiteral (hostname : Str) : Bool :=
  let isBracket (c : Char) : Bool := c = '[' || c = ']'
  host.ipAddress ((hostname.dropWhile isBracket).rdropWhile isBracket)

/-- `validate_http_url_for_fetch`, for the scheme and the host name of the URL. -/
def validateHttpUrlForFetch (scheme : Str) (hostname : Option Str)
    (trusted : List TrustedNetwork) : Except FetchError (List Str) :=
  if scheme ∉ ["http".toList, "https".toList] then .error .unsupportedScheme
  else
    match hostname.filter (· ≠ []) with
    | none => .error .noHostname
    | some hostname =>
        let resolved := systemResolve host hostname
        let publicResolved := resolvePublicDns host hostname
        if resolved ≠ [] then
          match validateResolvedAddresses host hostname resolved trusted with
          | .ok vetted => .ok vetted
          | .error e =>
              if hostnameIsIpLiteral host hostname || !resolved.all (isNonPublicAddress host) then
                .error e
              else if publicResolved ≠ [] then
                validateResolvedAddresses host hostname publicResolved trusted
              else .error e
        else if publicResolved ≠ [] then
          validateResolvedAddresses host hostname publicResolved trusted
        else .error (.unresolved hostname)

/-! ### What is handed on -/

def MayBeFetched (addr : IpAddress) : Prop :=
  (∀ network ∈ hardBlockedNetworks, addr.inNetwork network = false) ∧
    (isSpecial host addr = true → addr.inNetwork rfc2544FakeIpNetwork = true)

variable {host} {hostname : Str} {trusted : List TrustedNetwork} {addr : IpAddress}

theorem vetAddress_ok {vetted : Str} (h : vetAddress host hostname trusted addr = .ok vetted) :
    vetted = host.text addr ∧ MayBeFetched host addr := by
  unfold vetAddress at h
  split at h
  · cases h
  · rename_i hfind
    have hfree : ∀ network ∈ hardBlockedNetworks, addr.inNetwork network = false :=
      fun network hnetwork => by simpa using List.find?_eq_none.mp hfind network hnetwork
    split_ifs at h with htrusted hspecial
    · obtain ⟨t, -, ht⟩ := List.any_eq_true.mp htrusted
      exact ⟨(Except.ok.inj h).symm, hfree, fun _ => t.inNetwork ht⟩
    · exact ⟨(Except.ok.inj h).symm, hfree, fun hsp => absurd hsp hspecial⟩

theorem validateResolvedAddresses_ok {addresses : List IpAddress} {vetted : List Str}
    (h : validateResolvedAddresses host hostname addresses trusted = .ok vetted) :
    vetted = addresses.map host.text ∧ ∀ addr ∈ addresses, MayBeFetched host addr := by
  induction addresses generalizing vetted with
  | nil =>
      cases h
      exact ⟨rfl, nofun⟩
  | cons addr rest ih =>
      rw [validateResolvedAddresses, List.mapM_cons] at h
      obtain ⟨first, hfirst, h⟩ := bind_eq_ok.mp h
      obtain ⟨others, hothers, h⟩ := bind_eq_ok.mp h
      obtain ⟨hothers, hall⟩ := ih hothers
      obtain ⟨hfirst, haddr⟩ := vetAddress_ok hfirst
      rw [← pure_eq_ok.mp h, hfirst, hothers]
      exact ⟨rfl, List.forall_mem_cons.mpr ⟨haddr, hall⟩⟩

/-- What a URL may be fetched from are all the addresses that one of the resolvers gives for its host,
and each of them has been checked. The public servers are asked only for a name the system has no
address of, or none that is public. -/
theorem fetch_addresses_are_vetted {host : FetchHost} {scheme : Str} {hostname : Option Str}
    {trusted : List TrustedNetwork} {vetted : List Str}
    (h : validateHttpUrlForFetch host scheme hostname trusted = .ok vetted) :
    scheme ∈ ["http".toList, "https".toList] ∧
      ∃ name addresses, hostname = some name ∧ vetted = addresses.map host.text ∧
        addresses ≠ [] ∧ (∀ addr ∈ addresses, MayBeFetched host addr) ∧
        (addresses = systemResolve host name ∨
          addresses = resolvePublicDns host name ∧
            (systemResolve host name ≠ [] → hostnameIsIpLiteral host name = false) ∧
            ∀ addr ∈ systemResolve host name, isNonPublicAddress host addr = true) := by
  unfold validateHttpUrlForFetch at h
  split_ifs at h with hscheme
  refine ⟨hscheme, ?_⟩
  split at h
  · cases h
  · rename_i name hname
    obtain ⟨rfl, -⟩ := Option.filter_eq_some_iff.mp hname
    dsimp only at h
    split at h
    · rename_i hresolved
      split at h
      · rename_i checked hchecked
        obtain ⟨hvetted, hall⟩ := validateResolvedAddresses_ok (hchecked.trans h)
        exact ⟨name, _, rfl, hvetted, hresolved, hall, .inl rfl⟩
      · split_ifs at h with hstop hpublic
        obtain ⟨hliteral, hnonPublic⟩ := Bool.or_eq_false_iff.mp (Bool.eq_false_iff.mpr hstop)
        obtain ⟨hvetted, hall⟩ := validateResolvedAddresses_ok h
        rw [Bool.not_eq_false', List.all_eq_true] at hnonPublic
        exact ⟨name, _, rfl, hvetted, hpublic, hall, .inr ⟨rfl, fun _ => hliteral, hnonPublic⟩⟩
    · rename_i hresolved
      split_ifs at h with hpublic
      obtain ⟨hvetted, hall⟩ := validateResolvedAddresses_ok h
      have hnone : systemResolve host name = [] := Decidable.not_not.mp hresolved
      refine ⟨name, _, rfl, hvetted, hpublic, hall, .inr ⟨rfl, fun hne => absurd hnone hne, ?_⟩⟩
      rw [hnone]
      exact fun addr haddr => absurd haddr List.not_mem_nil

/-- A host whose resolver knows one name, by an address in the range that is trusted. -/
def sampleHost : FetchHost where
  text _ := "198.18.0.7".toList
  isPrivate _ := true
  isLoopback _ := false
  isLinkLocal _ := false
  isReserved _ := false
  ipAddress _ := false
  ipNetwork text := if text = "198.18.0.0/16".toList then some (.v4 [198, 18, 0, 0], 16) else none
  getaddrinfo name := if name = "example.org".toList then some [some (.v4 [198, 18, 0, 7])] else none
  idna _ := .error .unicodeError
  exchange _ _ := .error .osError
  queryId _ _ := 0
  dnsFallbackDisabled := true
  publicDnsServers := []

theorem sampleRange_inside : IpAddress.inNetwork (.v4 [198, 18, 0, 0]) rfc2544FakeIpNetwork = true :=
  rfl

def trustedHalf : TrustedNetwork :=
  ⟨(.v4 [198, 18, 0, 0], 16), sampleRange_inside, Nat.le_succ 15⟩

theorem sampleHost_is_vetted :
    "https".toList ∈ ["http".toList, "https".toList] ∧
      ∃ name addresses, some "example.org".toList = some name ∧
        ["198.18.0.7".toList] = addresses.map sampleHost.text ∧ addresses ≠ [] ∧
        (∀ addr ∈ addresses, MayBeFetched sampleHost addr) ∧
        (addresses = systemResolve sampleHost name ∨
          addresses = resolvePublicDns sampleHost name ∧
            (systemResolve sampleHost name ≠ [] → hostnameIsIpLiteral sampleHost name = false) ∧
            ∀ addr ∈ systemResolve sampleHost name, isNonPublicAddress sampleHost addr = true) := by
  have hvetted : validateHttpUrlForFetch sampleHost "https".toList (some "example.org".toList)
      [trustedHalf] = .ok ["198.18.0.7".toList] := rfl
  exact fetch_addresses_are_vetted hvetted

end OpenStarry.Sandbox
