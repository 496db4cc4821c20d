import OpenStarry.Sandbox.PlainSpelling

/-!
# Hosts of cloud metadata

The guard lists three hosts of cloud metadata, but looks at the list only where reading or checking the
name has failed already. The listed address always fails; the listed names are good domain names.
-/

namespace OpenStarry.Sandbox

open Lib
open Lib.Text
open Lib.Text.Url

def metadataAddress : Str := "169.254.169.254".toList

def metadataBlocked (decision : NetworkDecision) : Prop :=
  decision.status = .block ∧ decision.reason = "metadata_blocked"

/-! ### Where the reason comes from -/

section

variable {unicode : Unicode} {raw host : Str} {context : RunContext}

theorem extractFromUrl_error_ne (text : Str) :
    (extractFromUrl unicode text).error ≠ some "metadata_blocked" := by
  rw [extractFromUrl]
  split
  · decide
  · dsimp only
    split_ifs <;> simp

theorem extractBracketed_error_ne (text : Str) :
    (extractBracketed text).error ≠ some "metadata_blocked" := by
  rw [extractBracketed]
  split
  · simp
  · dsimp only
    split
    · simp
    · split_ifs <;> simp
    · simp

theorem extractBare_error_ne (text : Str) :
    (extractBare text).error ≠ some "metadata_blocked" := by
  rw [extractBare]
  split_ifs
  · exact extractBracketed_error_ne _
  all_goals simp

theorem extractValidationHost_error_ne :
    (extractValidationHost unicode raw).error ≠ some "metadata_blocked" := by
  rw [extractValidationHost]
  split_ifs
  · simp
  · exact extractFromUrl_error_ne _
  · exact extractBare_error_ne _

theorem validateDomainPattern_reason_ne :
    (validateDomainPattern unicode raw).reason ≠ "metadata_blocked" := by
  have herror : (extractValidationHost unicode raw).error ≠ some "metadata_blocked" :=
    extractValidationHost_error_ne
  rw [validateDomainPattern]
  dsimp only
  split
  · simp [blocked]
  · cases hcase : (extractValidationHost unicode raw).error with
    | some reason =>
        rw [hcase] at herror
        exact fun heq => herror (congrArg some heq)
    | none =>
        dsimp only
        split_ifs <;> simp [blocked, allowed]

theorem policyNetworkDecision_reason_ne {policy : SandboxPolicy} :
    ∀ decision ∈ policyNetworkDecision unicode host policy,
      decision.reason ≠ "metadata_blocked" := by
  intro decision hdecision
  rw [policyNetworkDecision] at hdecision
  dsimp only at hdecision
  split at hdecision
  · split at hdecision <;> cases hdecision <;> simp
  · cases hdecision
    simp
  · cases hdecision
    simp
  · split at hdecision <;> cases hdecision
    simp

theorem decideAcceptableHost_reason_ne {policy : SandboxPolicy} :
    (decideAcceptableHost unicode host context policy).reason ≠ "metadata_blocked" := by
  have hbundles : ∀ ids, ∀ decision ∈ bundleDecision unicode host ids,
      decision.reason ≠ "metadata_blocked" := by
    intro ids decision hdecision
    obtain ⟨id, -, rfl⟩ := Option.map_eq_some_iff.mp hdecision
    simp
  have hdefault : (defaultDecision host context).reason ≠ "metadata_blocked" := by
    rw [defaultDecision]
    split <;> simp
  rw [decideAcceptableHost]
  cases hfound : Option.or _ _ with
  | none => exact hdefault
  | some decision =>
      rw [Option.getD_some]
      simp only [Option.or_eq_some_iff] at hfound
      rcases hfound with ((((h | ⟨-, h⟩) | ⟨-, h⟩) | ⟨-, h⟩) | ⟨-, h⟩) | ⟨-, h⟩
      · exact policyNetworkDecision_reason_ne _ h
      · obtain ⟨grant, -, rfl⟩ := Option.map_eq_some_iff.mp h
        dsimp only
        split <;> simp
      · exact hbundles _ _ h
      · obtain ⟨source, -, rfl⟩ := Option.map_eq_some_iff.mp h
        simp
      · exact hbundles _ _ h
      · obtain ⟨grant, -, rfl⟩ := Option.map_eq_some_iff.mp h
        simp

theorem metadataBlocked_iff_validation (hmode : context.runMode ≠ .full)
    (policy : Option SandboxPolicy) :
    metadataBlocked (decideNetworkAccess unicode raw context policy) ↔
      (validateDomainPattern unicode raw).status = .blocked ∧
        (validateDomainPattern unicode raw).normalized ∈ metadataHosts := by
  rw [metadataBlocked, decideNetworkAccess, if_neg hmode]
  dsimp only
  split
  · rename_i hstatus
    rw [metadataOrValidationReason]
    simp [hstatus, validateDomainPattern_reason_ne]
  · rename_i hstatus
    constructor
    · rintro ⟨-, hreason⟩
      split at hreason
      · simp at hreason
      · exact absurd hreason decideAcceptableHost_reason_ne
    · exact fun h => absurd h.1 hstatus

end

/-! ### The listed texts -/

theorem getLast?_of_mem_metadataHosts : ∀ listed ∈ metadataHosts, listed.getLast? ≠ some '.' := by
  decide

theorem star_notMem_of_mem_metadataHosts : ∀ listed ∈ metadataHosts, '*' ∉ listed := by decide

theorem isBracketedHost_of_mem_metadataHosts :
    ∀ listed ∈ metadataHosts, isBracketedHost listed = false := by decide +kernel

theorem isValidDnsName_of_mem_metadataHosts :
    ∀ listed ∈ metadataHosts, '.' ∈ listed ∧ isValidDnsName listed = true := by decide +kernel

theorem isIpLiteral_of_mem_metadataHosts :
    ∀ listed ∈ metadataHosts, isIpLiteral listed = true → listed = metadataAddress := by
  decide +kernel

theorem not_listed_of_foreign {value : Str} (h : Foreign value) : value ∉ metadataHosts := fun hmem =>
  not_foreign_of_isValidDnsName (isValidDnsName_of_mem_metadataHosts value hmem).2 h

theorem normalized_validate (unicode : Unicode) (raw : Str) :
    (validateDomainPattern unicode raw).normalized = (extractValidationHost unicode raw).host ∨
      (extractValidationHost unicode raw).error = none ∧
        (validateDomainPattern unicode raw).normalized =
          normalizeExactValidationHost (extractValidationHost unicode raw).host := by
  rw [validateDomainPattern]
  dsimp only
  split
  · exact Or.inl rfl
  · cases hcase : (extractValidationHost unicode raw).error with
    | some reason => exact Or.inl rfl
    | none =>
        dsimp only
        split_ifs
        all_goals first | exact Or.inl rfl | exact Or.inr ⟨rfl, rfl⟩

/-! ### Bracketed hosts -/

theorem foreign_extractBracketed {host : Str} (hhead : host.head? = some '[') :
    Foreign (extractBracketed host).host := by
  have hforeign : ∀ {value : Str}, '[' ∈ value → Foreign value := fun hmem =>
    ⟨'[', hmem, by decide, by decide⟩
  obtain ⟨rest, rfl⟩ := List.head?_eq_some_iff.mp hhead
  have hbracketed : '[' ∈ beforeFirst ']' ('[' :: rest) ++ [']'] := by simp [beforeFirst]
  rw [extractBracketed]
  split
  · exact hforeign List.mem_cons_self
  · dsimp only
    split
    · exact hforeign hbracketed
    · split
      · exact hforeign hbracketed
      · exact hforeign hbracketed
    · exact hforeign List.mem_cons_self

namespace Spelling.Plain

variable {s : Spelling} {unicode : Unicode} {raw : Str}

theorem location_bracketed (hbracketed : s.bracketed = true) :
    ∃ tail, s.location = '[' :: (s.host ++ ']' :: tail) := by
  refine ⟨(if s.dot then ['.'] else []) ++ s.port.elim [] (':' :: ·), ?_⟩
  rw [location, name, shownHost, hbracketed, if_pos rfl]
  simp

theorem hostname_bracketed (h : s.Plain) {found : Str} (hlower : unicode.lower raw = s.render)
    (hinfo : (hostinfo found).1 = s.host) : hostname unicode found = s.host := by
  have hpercent : '%' ∉ s.host := h.notMem_host (by decide)
  have hpart : s.host <:+: unicode.lower raw := by
    have hshown : s.host <:+: s.name := by
      rw [name, shownHost]
      split
      · exact ⟨['['], [']'] ++ if s.dot then ['.'] else [], by simp⟩
      · exact ⟨[], if s.dot then ['.'] else [], by simp⟩
    rw [hlower]
    exact hshown.trans WellFormed.name_infix_render
  rw [hostname, hinfo, beforeFirst_eq_self hpercent, if_neg hpercent, List.append_nil,
    unicode.lower_part raw _ hpart]

theorem extractFromUrl_bracketed (h : s.Plain) (hbracketed : s.bracketed = true) {scheme : Str}
    (hscheme : s.scheme = some scheme) (hlower : unicode.lower raw = s.render) :
    (extractFromUrl unicode s.render).error ≠ none ∧
      (extractFromUrl unicode s.render).host ∉ metadataHosts := by
  obtain ⟨tail, hlocation⟩ := location_bracketed hbracketed
  have hsplit := h.wellFormed.splitNetloc_render_scheme hscheme
  have hlast := h.wellFormed.afterLast_location
  have hopen : '[' ∈ s.location := by rw [hlocation]; exact List.mem_cons_self
  have hafter : ∀ {front : Str}, '[' ∉ front →
      beforeFirst ']' (afterFirst '[' (front ++ s.location)) = s.host := by
    intro front hfront
    rw [hlocation, afterFirst_append hfront, beforeFirst_append (h.notMem_host (by decide))]
  have hfront : '[' ∉ s.front.filter fun c => !isUnsafe c := fun hmem =>
    absurd (h.mem_front hmem).1 (by decide)
  rw [extractFromUrl]
  cases hnetloc : netloc unicode s.render with
  | none => exact ⟨Option.some_ne_none _, (by decide : ([] : Str) ∉ metadataHosts)⟩
  | some found =>
      have hfits := hnetloc
      rw [netloc, hsplit] at hfits
      split at hfits
      · rename_i hboth
        have hfound := Option.some.inj hfits
        have hopenFound : '[' ∈ found := by
          rw [← hfound]
          exact List.mem_append_right _ hopen
        have hbrackets : isBracketedHost s.host = true := by
          have hfit := hboth.1
          rw [bracketsFit, hafter hfront, hfound, Bool.and_eq_true, Bool.or_eq_true] at hfit
          exact hfit.2.resolve_left (by simpa using hopenFound)
        have hinfo : (hostinfo found).1 = s.host := by
          rw [hfound] at hlast
          rw [hostinfo, hlast, if_pos hopen]
          exact hafter List.not_mem_nil
        have hlisted : s.host ∉ metadataHosts := fun hmem => by
          rw [isBracketedHost_of_mem_metadataHosts _ hmem] at hbrackets
          exact Bool.noConfusion hbrackets
        dsimp only
        rw [h.hostname_bracketed hlower hinfo]
        split
        · exact ⟨Option.some_ne_none _, hlisted⟩
        · rw [if_pos (Or.inl hopenFound)]
          exact ⟨Option.some_ne_none _, hlisted⟩
      · simp at hfits

theorem validate_bracketed (h : s.Plain) (hbracketed : s.bracketed = true)
    (hlower : unicode.lower (strip raw) = s.render) :
    (validateDomainPattern unicode raw).normalized ∉ metadataHosts := by
  have hread : Foreign (extractValidationHost unicode raw).host ∨
      ((extractValidationHost unicode raw).error ≠ none ∧
        (extractValidationHost unicode raw).host ∉ metadataHosts) := by
    obtain ⟨tail, hlocation⟩ := location_bracketed hbracketed
    rw [extractValidationHost, hlower, if_neg h.render_ne_nil]
    cases hscheme : s.scheme with
    | none =>
        have hhead : s.location.head? = some '[' := by rw [hlocation]; rfl
        rw [h.find_render_bare hscheme, Option.isSome_none, if_neg Bool.false_ne_true, extractBare,
          h.beforeFirst_render_bare hscheme, if_pos hhead]
        exact Or.inl (foreign_extractBracketed hhead)
    | some scheme =>
        rw [if_pos (find_render_scheme hscheme)]
        exact Or.inr (h.extractFromUrl_bracketed hbracketed hscheme hlower)
  rcases hread with hforeign | ⟨herror, hlisted⟩
  · rcases normalized_validate unicode raw with hnormal | ⟨-, hnormal⟩
    · rw [hnormal]
      exact not_listed_of_foreign hforeign
    · rw [hnormal]
      exact not_listed_of_foreign (foreign_normalize hforeign)
  · rcases normalized_validate unicode raw with hnormal | ⟨hnone, -⟩
    · rw [hnormal]
      exact hlisted
    · exact absurd hnone herror

/-! ### Hosts without brackets -/

theorem dotted_mem_metadataHosts :
    s.dotted ∈ metadataHosts ↔ s.dot = false ∧ s.host ∈ metadataHosts := by
  rw [dotted]
  cases s.dot with
  | false => simp
  | true =>
      rw [if_pos rfl]
      constructor
      · intro hmem
        exact absurd List.getLast?_concat (getLast?_of_mem_metadataHosts _ hmem)
      · rintro ⟨hdot, -⟩
        exact Bool.noConfusion hdot

theorem isName_of_listed {listed : Str} (hmem : listed ∈ metadataHosts)
    (hne : listed ≠ metadataAddress) : IsName listed where
  literal := by
    rw [Bool.eq_false_iff]
    exact fun hliteral => hne (isIpLiteral_of_mem_metadataHosts listed hmem hliteral)
  dot := (isValidDnsName_of_mem_metadataHosts listed hmem).1
  dnsName := (isValidDnsName_of_mem_metadataHosts listed hmem).2

theorem host_listed (h : s.Plain) (hread : (extractValidationHost unicode raw).host = s.dotted)
    (hlisted : (validateDomainPattern unicode raw).normalized ∈ metadataHosts) :
    s.host ∈ metadataHosts := by
  rcases normalized_validate unicode raw with hnormal | ⟨-, hnormal⟩
  · rw [hnormal, hread, dotted_mem_metadataHosts] at hlisted
    exact hlisted.2
  · rw [hnormal, hread] at hlisted
    by_cases hstar : '*' ∈ s.host
    · -- the star is still there
      have hmem : '*' ∈ normalizeExactValidationHost s.dotted := by
        have hforeign : '*' ∈ s.dotted := List.mem_append_left _ hstar
        rw [normalizeExactValidationHost]
        split
        · rename_i hlast
          rw [← List.dropLast_append_getLast? '.' hlast.1, List.mem_append] at hforeign
          exact hforeign.resolve_right (by decide)
        · exact hforeign
      exact absurd hmem (star_notMem_of_mem_metadataHosts _ hlisted)
    · rw [h.normalize_dotted hstar] at hlisted
      exact hlisted

theorem validate_read_iff (h : s.Plain)
    (hread : extractValidationHost unicode raw = ⟨s.dotted, none⟩) :
    ((validateDomainPattern unicode raw).status = .blocked ∧
      (validateDomainPattern unicode raw).normalized ∈ metadataHosts) ↔ s.host = metadataAddress := by
  constructor
  · rintro ⟨hstatus, hlisted⟩
    by_contra hne
    have hhost := h.host_listed (by rw [hread]) hlisted
    rw [h.validateDomainPattern_eq (isName_of_listed hhost hne) hread] at hstatus
    exact DomainStatus.noConfusion hstatus
  · intro haddress
    rw [validateDomainPattern, hread, dotted, haddress]
    cases s.dot <;> decide +kernel

theorem validate_unread_iff
    (hread : extractValidationHost unicode raw = ⟨s.dotted, some "invalid_port"⟩) :
    ((validateDomainPattern unicode raw).status = .blocked ∧
      (validateDomainPattern unicode raw).normalized ∈ metadataHosts) ↔
      s.dot = false ∧ s.host ∈ metadataHosts := by
  have hvalidate : ∃ reason, validateDomainPattern unicode raw = blocked s.dotted reason := by
    rw [validateDomainPattern, hread]
    dsimp only
    split
    · exact ⟨_, rfl⟩
    · exact ⟨_, rfl⟩
  obtain ⟨reason, hvalidate⟩ := hvalidate
  rw [hvalidate, ← dotted_mem_metadataHosts]
  simp [blocked]

end Spelling.Plain

/-! ### When the host is blocked as metadata -/

/-- Whatever rules, grants and lists there are, a plain spelling is blocked as a metadata host just
when the host has no brackets and is either the listed address with a port that is read, or one of
the listed hosts without a dot and with a port that is too large. -/
theorem metadata_blocked_iff (unicode : Unicode) {raw : Str} {s : Spelling} (hplain : s.Plain)
    (hraw : unicode.lower (strip raw) = s.render) {context : RunContext}
    (hmode : context.runMode ≠ .full) (policy : Option SandboxPolicy) :
    metadataBlocked (decideNetworkAccess unicode raw context policy) ↔
      s.bracketed = false ∧
        if s.portIsRead then s.host = metadataAddress
        else s.dot = false ∧ s.host ∈ metadataHosts := by
  rw [metadataBlocked_iff_validation hmode]
  cases hbracketed : s.bracketed with
  | true =>
      constructor
      · exact fun h => absurd h.2 (hplain.validate_bracketed hbracketed hraw)
      · exact fun h => Bool.noConfusion h.1
  | false =>
      have hread := extractValidationHost_plain unicode hplain hbracketed hraw
      cases hport : s.portIsRead with
      | true =>
          rw [hport, if_pos rfl] at hread
          rw [hplain.validate_read_iff hread]
          simp
      | false =>
          rw [hport, if_neg Bool.false_ne_true] at hread
          rw [Spelling.Plain.validate_unread_iff hread]
          simp

/-- The address in a URL. -/
theorem address_in_url_is_blocked :
    metadataBlocked (decideNetworkAccess .ascii "HTTP://169.254.169.254.:80/latest".toList
      { runMode := .safe, publicNetwork := [{}] } none) := by
  have hplain : Spelling.Plain
      { scheme := some "http".toList, host := metadataAddress, dot := true
        port := some "80".toList, rest := "/latest".toList } :=
    { scheme_head := by decide
      scheme := by decide
      userInfo := by decide
      host_ne_nil := by decide
      host := by decide +kernel
      host_last := by decide
      port_ne_nil := by decide
      port := by decide
      rest := stopsAt_cons.mpr (by decide)
      bare := fun h => by simp at h }
  apply (metadata_blocked_iff .ascii hplain (by decide +kernel) (by decide) none).mpr
  decide +kernel

/-- A listed name in a session without rules and grants is open to every tool. -/
theorem metadata_name_is_allowed :
    ¬∀ (raw : Str) (s : Spelling) (context : RunContext) (policy : SandboxPolicy), s.Plain →
      Unicode.ascii.lower (strip raw) = s.render → s.host ∈ metadataHosts →
      context.runMode ≠ .full →
      (∀ grant ∈ context.domains, domainMatches .ascii grant.domain s.host = false) →
      (∀ rule ∈ policy.network.allowDomains, policyDomainMatches .ascii rule s.host = false) →
      metadataBlocked (decideNetworkAccess .ascii raw context (some policy)) := by
  intro h
  have hplain : Spelling.Plain { host := "metadata.google.internal".toList } :=
    { scheme_head := by decide
      scheme := by decide
      userInfo := by decide
      host_ne_nil := by decide
      host := by decide +kernel
      host_last := by decide
      port_ne_nil := by decide
      port := by decide
      rest := by simp [StopsAt]
      bare := by decide }
  have hblocked := h "metadata.google.internal".toList _ { runMode := .safe } {} hplain
    (by decide +kernel) (by decide +kernel) (by decide) (by simp) (by simp)
  have hallowed : (decideNetworkAccess .ascii "metadata.google.internal".toList { runMode := .safe }
      (some {})).status = .allow := by decide +kernel
  rw [hblocked.1] at hallowed
  exact NetworkDecisionStatus.noConfusion hallowed

end OpenStarry.Sandbox
