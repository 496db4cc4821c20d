import OpenStarry.Sandbox.UrlSpelling

/-!
# Addresses and bare names are blocked

A name that any allow rule may reach is a valid domain name with a dot, and no number stands for an
address in it. A spelled address, numeric alias or bare name never becomes one.
-/

namespace OpenStarry.Sandbox

open Lib
open Lib.Text

/-! ### Names that pass the checks -/

/-- What a host has passed before the rules, the grants and the lists are asked. -/
structure Acceptable (e : Extraction) (normalized : Str) : Prop where
  error : e.error = none
  host_ne_nil : e.host ≠ []
  star : '*' ∉ e.host
  normalized_eq : normalized = normalizeExactValidationHost e.host
  literal : isIpLiteral normalized = false
  dot : '.' ∈ normalized
  dnsName : isValidDnsName normalized = true

section

variable {unicode : Unicode} {raw : Str}

theorem acceptable_of_allowed (h : (validateDomainPattern unicode raw).status = .allowed)
    (hstar : '*' ∉ (validateDomainPattern unicode raw).normalized) :
    Acceptable (extractValidationHost unicode raw) (validateDomainPattern unicode raw).normalized := by
  rw [validateDomainPattern] at h hstar ⊢
  split at h
  · exact DomainStatus.noConfusion h
  · rename_i hne
    rw [if_neg hne] at hstar ⊢
    cases herror : (extractValidationHost unicode raw).error with
    | some reason =>
        rw [herror] at h
        exact DomainStatus.noConfusion h
    | none =>
        rw [herror] at h hstar
        dsimp only at h hstar ⊢
        split_ifs at h hstar ⊢ with hliteral hwildcard hcount hsuffix hlist hhost hempty hip hdot hdns
        all_goals try exact DomainStatus.noConfusion h
        · -- the name is a wildcard itself
          exact absurd ((List.isPrefixOf_iff_prefix.mp hwildcard).subset List.mem_cons_self) hstar
        · exact
            { error := herror
              host_ne_nil := hne
              star := hhost
              normalized_eq := rfl
              literal := by simpa [allowed] using hip
              dot := hdot
              dnsName := by simpa [allowed] using hdns }

theorem exists_acceptable_of_ne_block {context : RunContext} {policy : Option SandboxPolicy}
    (hmode : context.runMode ≠ .full)
    (h : (decideNetworkAccess unicode raw context policy).status ≠ .block) :
    ∃ normalized, Acceptable (extractValidationHost unicode raw) normalized := by
  rw [decideNetworkAccess, if_neg hmode] at h
  dsimp only at h
  split at h
  · exact absurd rfl h
  · rename_i hstatus
    split at h
    · exact absurd rfl h
    · rename_i hstar
      have hallowed : (validateDomainPattern unicode raw).status = .allowed := by
        cases hcase : (validateDomainPattern unicode raw).status with
        | allowed => rfl
        | blocked => exact absurd hcase hstatus
      exact ⟨_, acceptable_of_allowed hallowed hstar⟩

end

/-! ### Hosts that stand for an address -/

/-- A number as `inet_aton` reads one: decimal or octal digits, or hexadecimal ones after `0x`. -/
inductive IsNumber : Str → Prop
  | digits {label : Str} (hne : label ≠ []) (hdigits : ∀ c ∈ label, c.isDigit = true) : IsNumber label
  | hex {digits : Str} (hne : digits ≠ []) (hdigits : ∀ c ∈ digits, isLowerHexDigit c = true) :
      IsNumber ('0' :: 'x' :: digits)

/-- The host is an address, one to four numbers that stand for one, or a name without a dot. -/
inductive IsLiteral : Str → Prop
  | address {host : Str} (h : isIpAddress host = true) : IsLiteral host
  | numeric {labels : List Str} (hone : 1 ≤ labels.length) (hfour : labels.length ≤ 4)
      (hnumber : ∀ label ∈ labels, IsNumber label) : IsLiteral (['.'].intercalate labels)
  | bare {host : Str} (h : '.' ∉ host) : IsLiteral host

theorem IsNumber.isNumericLabel {label : Str} (h : IsNumber label) :
    isNumericLabel label = true := by
  cases h with
  | digits hne hdigits =>
      have hall : label.all isDecimal = true :=
        List.all_eq_true.mpr fun c hc => isDecimal_of_isDigit (hdigits c hc)
      simp [Sandbox.isNumericLabel, hne, hall]
  | hex hne hdigits =>
      rename_i digits
      have hall : digits.all isLowerHexDigit = true := List.all_eq_true.mpr hdigits
      simp [Sandbox.isNumericLabel, hne, hall]

theorem IsNumber.dot_notMem {label : Str} (h : IsNumber label) : '.' ∉ label := by
  intro hmem
  cases h with
  | digits hne hdigits => exact absurd (hdigits _ hmem) (by decide)
  | hex hne hdigits =>
      rw [List.mem_cons, List.mem_cons] at hmem
      rcases hmem with hmem | hmem | hmem
      · exact absurd hmem (by decide)
      · exact absurd hmem (by decide)
      · exact absurd (hdigits _ hmem) (by decide)

theorem isNumericLabel_of_isOctet {label : Str} (h : isOctet label = true) :
    isNumericLabel label = true := by
  obtain ⟨hne, hdigits⟩ := isDigit_of_isOctet h
  exact (IsNumber.digits hne hdigits).isNumericLabel

theorem IsLiteral.cases {host : Str} (h : IsLiteral host) :
    isIpv4NumericAlias host = true ∨ ':' ∈ host ∨ '.' ∉ host := by
  cases h with
  | address h =>
      rw [isIpAddress, Bool.or_eq_true] at h
      rcases h with h | h
      · obtain ⟨hlength, hoctets⟩ := octets_of_ipv4Address h
        refine Or.inl ?_
        rw [isIpv4NumericAlias, Bool.and_eq_true, List.all_eq_true, decide_eq_true_eq]
        exact ⟨by omega, fun label hlabel => isNumericLabel_of_isOctet (hoctets label hlabel)⟩
      · have htwo := two_le_count_of_isIpv6Address h
        exact Or.inr (Or.inl (List.count_pos_iff.mp (by omega)))
  | numeric hone hfour hnumber =>
      rename_i labels
      have hne : labels ≠ [] := by
        rintro rfl
        simp at hone
      have hsplit : (['.'].intercalate labels).splitOn '.' = labels :=
        List.splitOn_intercalate '.' (fun label hlabel => (hnumber label hlabel).dot_notMem) hne
      refine Or.inl ?_
      rw [isIpv4NumericAlias, hsplit, Bool.and_eq_true, List.all_eq_true, decide_eq_true_eq]
      exact ⟨hfour, fun label hlabel => (hnumber label hlabel).isNumericLabel⟩
  | bare h => exact Or.inr (Or.inr h)

theorem getLast?_ne_dot {host : Str} (h : isIpv4NumericAlias host = true) :
    host.getLast? ≠ some '.' := by
  intro hlast
  obtain ⟨front, rfl⟩ := List.getLast?_eq_some_iff.mp hlast
  rw [isIpv4NumericAlias, List.splitOn_append_cons_self, Bool.and_eq_true, List.all_eq_true] at h
  have hempty := h.2 [] (by simp)
  exact absurd hempty (by decide)

/-! ### Blocked in every spelling -/

namespace Spelling.WellFormed

variable {s : Spelling}

theorem stripBrackets_host (h : s.WellFormed) : stripBrackets s.host = s.host := by
  have hbracket : ∀ c ∈ s.host, isBracket c = false := fun c hc => by
    have hchar := h.host c hc
    rw [isHostChar, Bool.and_eq_true, Bool.not_eq_true'] at hchar
    exact hchar.2
  have hdrop : s.host.dropWhile isBracket = s.host := by
    obtain ⟨c, tail, hhost⟩ := List.exists_cons_of_ne_nil h.host_ne_nil
    rw [hhost, List.dropWhile_cons_of_neg]
    rw [hbracket c (hhost ▸ List.mem_cons_self)]
    exact Bool.false_ne_true
  rw [stripBrackets, hdrop, List.rdropWhile_eq_self_iff]
  intro hne
  rw [hbracket _ (List.getLast_mem hne)]
  exact Bool.false_ne_true

theorem normalize_host (hstar : '*' ∉ s.host ++ if s.dot then ['.'] else [])
    (hlast : s.host.getLast? ≠ some '.') :
    normalizeExactValidationHost (s.host ++ if s.dot then ['.'] else []) = s.host := by
  rw [normalizeExactValidationHost]
  by_cases hdot : s.dot = true
  · have hwildcard : ¬isWildcard (s.host ++ ['.']) = true := fun hw => by
      rw [if_pos hdot] at hstar
      exact hstar ((List.isPrefixOf_iff_prefix.mp hw).subset List.mem_cons_self)
    rw [if_pos hdot, if_pos ⟨List.getLast?_concat, hwildcard⟩, List.dropLast_concat]
  · rw [if_neg hdot, List.append_nil, if_neg fun hboth => hlast hboth.1]

theorem not_acceptable (h : s.WellFormed) (hliteral : IsLiteral s.host) {e : Extraction}
    (hread : s.ReadAs e) (normalized : Str) : ¬Acceptable e normalized := by
  intro haccept
  have hname := not_foreign_of_isValidDnsName haccept.dnsName
  rw [haccept.normalized_eq] at hname
  cases hread with
  | error herror => exact herror haccept.error
  | empty hempty => exact haccept.host_ne_nil hempty
  | foreign hforeign => exact hname (foreign_normalize hforeign)
  | host hhost =>
      have hstar := haccept.star
      rw [hhost] at hstar hname
      rcases hliteral.cases with halias | hcolon | hdot
      · have hlast := getLast?_ne_dot halias
        have hnormal := haccept.normalized_eq
        rw [hhost, normalize_host hstar hlast] at hnormal
        have hip := haccept.literal
        rw [hnormal, isIpLiteral, h.stripBrackets_host, halias, Bool.or_true] at hip
        exact Bool.noConfusion hip
      · exact hname (foreign_normalize (foreign_of_colon (List.mem_append_left _ hcolon)))
      · have hnormal := haccept.normalized_eq
        rw [hhost, normalize_host hstar fun hlast => hdot (List.mem_of_getLast? hlast)] at hnormal
        exact hdot (hnormal ▸ haccept.dot)

end Spelling.WellFormed

/-- Whatever rules, grants, bundles and lists there are, a literal is blocked in every spelling. -/
theorem decideNetworkAccess_literal (unicode : Unicode) {raw : Str} {s : Spelling} (hwell : s.WellFormed)
    (hraw : unicode.lower (strip raw) = s.render) (hliteral : IsLiteral s.host)
    {context : RunContext} (hmode : context.runMode ≠ .full) (policy : Option SandboxPolicy) :
    (decideNetworkAccess unicode raw context policy).status = .block := by
  by_contra hstatus
  obtain ⟨normalized, haccept⟩ := exists_acceptable_of_ne_block hmode hstatus
  have hread := hwell.readAs_extractValidationHost unicode hraw
  exact hwell.not_acceptable hliteral hread normalized haccept

/-- An address in hexadecimal labels, with everything around it, and a policy and a session that
allow it. -/
theorem hexadecimal_address_blocked :
    (decideNetworkAccess .ascii "  HTTP://user:pw@0X7F.1.:8080/index.html ".toList
      { runMode := .safe
        domains := [{ domain := "0x7f.1".toList }]
        publicNetwork := [{}] }
      (some { network := { allowDomains := ["0x7f.1".toList] } })).status = .block := by
  apply decideNetworkAccess_literal .ascii
    (s := { scheme := some "http".toList, userInfo := some "user:pw".toList
            host := "0x7f.1".toList, dot := true, port := some "8080".toList
            rest := "/index.html".toList })
  · exact
      { scheme_head := by decide
        scheme := by decide
        userInfo := by decide
        host_ne_nil := by decide
        host := by decide
        colon := by decide
        port_ne_nil := by decide
        port := by decide
        rest := stopsAt_cons.mpr (by decide) }
  · decide +kernel
  · have hnumbers : ∀ label ∈ ["0x7f".toList, "1".toList], IsNumber label := by
      intro label hlabel
      rw [List.mem_cons, List.mem_singleton] at hlabel
      rcases hlabel with rfl | rfl
      · exact .hex (show ['7', 'f'] ≠ [] by decide) (by decide)
      · exact .digits (by decide) (by decide)
    exact .numeric (by decide) (by decide) hnumbers
  · decide

end OpenStarry.Sandbox
