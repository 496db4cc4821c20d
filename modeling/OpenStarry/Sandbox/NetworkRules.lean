import Mathlib.Data.Prod.Lex
import OpenStarry.Lib.MostSpecific
import OpenStarry.Sandbox.PlainSpelling

/-!
# The rules of the network policy

A rule names one domain or everything under a suffix. In the safe mode the rules alone decide what is
blocked: a deny rule that is at least as specific as every allow rule, or the switch that blocks
everything where no rule matches.
-/

namespace OpenStarry.Sandbox

open Lib
open Lib.Text

/-! ### Rules -/

inductive DomainRule
  | exact (name : Str)
  | under (suffix : Str)
  deriving DecidableEq

namespace DomainRule

def Matches : DomainRule → Str → Prop
  | exact name, host => host = name
  | under suffix, host => '.' :: suffix <:+ host

def AtLeast : DomainRule → DomainRule → Prop
  | exact _, _ => True
  | under _, exact _ => False
  | under suffix, under other => other.length ≤ suffix.length

def ofPattern (normalized : Str) : DomainRule :=
  if isWildcard normalized then .under (normalized.drop 2) else .exact normalized

end DomainRule

section

variable (unicode : Unicode)

def readRule (raw : Str) : Option DomainRule :=
  let decision := validatePolicyDomainPattern unicode raw
  if decision.status = .allowed then some (.ofPattern decision.normalized) else none

def matchingRules (host : Str) (entries : List Str) : Set DomainRule :=
  {rule | (∃ raw ∈ entries, readRule unicode raw = some rule) ∧ rule.Matches host}

def IsDenied (host : Str) (policy : SandboxPolicy) : Prop :=
  let allow := matchingRules unicode host policy.network.allowDomains
  let deny := matchingRules unicode host policy.network.denyDomains
  (∃ rule ∈ deny, ∀ other ∈ allow, rule.AtLeast other) ∨
    (allow = ∅ ∧ deny = ∅ ∧ policy.network.blockAllNetwork = true)

def SameSpelling (raw raw' : Str) : Prop :=
  unicode.lower (strip raw) = unicode.lower (strip raw') ∨
    ∃ s s' : Spelling, s.host = s'.host ∧
      (s.Plain ∧ s.bracketed = false ∧ s.portIsRead = true ∧
        unicode.lower (strip raw) = s.render) ∧
      (s'.Plain ∧ s'.bracketed = false ∧ s'.portIsRead = true ∧
        unicode.lower (strip raw') = s'.render)

def SameEntries (entries entries' : List Str) : Prop :=
  (∀ raw ∈ entries, ∃ raw' ∈ entries', SameSpelling unicode raw raw') ∧
    ∀ raw' ∈ entries', ∃ raw ∈ entries, SameSpelling unicode raw raw'

structure SameRules (policy policy' : SandboxPolicy) : Prop where
  allow : SameEntries unicode policy.network.allowDomains policy'.network.allowDomains
  deny : SameEntries unicode policy.network.denyDomains policy'.network.denyDomains
  blockAll : policy.network.blockAllNetwork = policy'.network.blockAllNetwork

def IsValidHost (raw : Str) : Prop :=
  (validateDomainPattern unicode raw).status = .allowed ∧
    '*' ∉ (validateDomainPattern unicode raw).normalized

end

/-! ### Names by themselves -/

theorem isSpace_of_isNameChar {c : Char} (h : isNameChar c = true) : isSpace c = false := by
  have hall : ∀ n < 128, isNameChar (Char.ofNat n) = true → isSpace (Char.ofNat n) = false := by
    decide
  have hchar : isNameChar c = true → isSpace c = false := by
    rw [← Char.ofNat_toNat c]
    exact hall _ (toNat_lt_of_isNameChar h)
  exact hchar h

theorem toLower_of_isNameChar {c : Char} (h : isNameChar c = true) : c.toLower = c := by
  have hall : ∀ n < 128, isNameChar (Char.ofNat n) = true →
      (Char.ofNat n).toLower = Char.ofNat n := by decide
  have hchar : isNameChar c = true → c.toLower = c := by
    rw [← Char.ofNat_toNat c]
    exact hall _ (toNat_lt_of_isNameChar h)
  exact hchar h

namespace IsName

variable {name : Str}

theorem ne_nil (h : IsName name) : name ≠ [] := List.ne_nil_of_mem h.dot

theorem lower_strip (h : IsName name) (unicode : Unicode) : unicode.lower (strip name) = name := by
  have hchar := h.isNameChar
  have hstrip : strip name = name := by
    rw [strip, lstrip, List.dropWhile_eq_self_iff.mpr, rstrip, List.rdropWhile_eq_self_iff.mpr]
    · intro hne
      rw [isSpace_of_isNameChar (hchar _ (List.getLast_mem hne))]
      exact Bool.false_ne_true
    · intro hlength
      rw [isSpace_of_isNameChar (hchar _ (List.getElem_mem hlength))]
      exact Bool.false_ne_true
  rw [hstrip, unicode.lower_ascii name fun c hc => toNat_lt_of_isNameChar (hchar c hc),
    List.map_congr_left fun c hc => toLower_of_isNameChar (hchar c hc), List.map_id']

theorem plain (h : IsName name) : Spelling.Plain { host := name } where
  scheme_head := fun scheme hscheme => by simp at hscheme
  scheme := fun scheme hscheme => by simp at hscheme
  userInfo := fun info hinfo => by simp at hinfo
  host_ne_nil := h.ne_nil
  host := h.isNameChar
  host_last := h.getLast?
  port_ne_nil := fun port hport => by simp at hport
  port := fun port hport => by simp at hport
  rest := by simp [StopsAt]
  bare := fun _ => ⟨rfl, rfl, (by decide : find "://".toList [] = none)⟩

theorem validateDomainPattern_eq (h : IsName name) (unicode : Unicode) :
    validateDomainPattern unicode name = allowed name "exact_domain" := by
  apply h.plain.validateDomainPattern_eq h
  have hrender : unicode.lower (strip name) = Spelling.render { host := name } := by
    rw [h.lower_strip unicode]
    simp [Spelling.render, Spelling.authority, Spelling.location, Spelling.name, Spelling.shownHost]
  exact extractValidationHost_plain unicode h.plain rfl hrender

end IsName

section

variable {unicode : Unicode} {raw raw' host : Str}

theorem IsValidHost.isName (h : IsValidHost unicode raw) :
    IsName (validateDomainPattern unicode raw).normalized := by
  have haccept := acceptable_of_allowed h.1 h.2
  exact ⟨haccept.literal, haccept.dot, haccept.dnsName⟩

/-! ### What a rule matches -/

theorem DomainRule.matches_ofPattern (normalized host : Str) :
    (DomainRule.ofPattern normalized).Matches host ↔
      (if isWildcard normalized then ('.' :: normalized.drop 2).isSuffixOf host
        else host == normalized) = true := by
  rw [DomainRule.ofPattern]
  split
  · rw [List.isSuffixOf_iff_suffix]
    rfl
  · rw [beq_iff_eq]
    rfl

theorem readRule_eq_some_iff {rule : DomainRule} : readRule unicode raw = some rule ↔
    (validatePolicyDomainPattern unicode raw).status = .allowed ∧
      DomainRule.ofPattern (validatePolicyDomainPattern unicode raw).normalized = rule := by
  rw [readRule, Option.ite_none_right_eq_some, Option.some_inj]

theorem policyDomainMatches_iff (hname : IsName host) :
    policyDomainMatches unicode raw host = true ↔
      ∃ rule, readRule unicode raw = some rule ∧ rule.Matches host := by
  have hstar := hname.star_notMem
  rw [policyDomainMatches, hname.validateDomainPattern_eq unicode]
  simp only [readRule_eq_some_iff, allowed, Bool.and_eq_true, decide_eq_true_eq,
    ← DomainRule.matches_ofPattern]
  constructor
  · rintro ⟨⟨⟨hstatus, -⟩, -⟩, hmatch⟩
    exact ⟨_, ⟨hstatus, rfl⟩, hmatch⟩
  · rintro ⟨rule, ⟨hstatus, rfl⟩, hmatch⟩
    exact ⟨⟨⟨hstatus, trivial⟩, decide_eq_true hstar⟩, hmatch⟩

/-! ### Which rule is more specific -/

def DomainRule.specificity : DomainRule → Specificity
  | exact name => (1, name.count '.' + 1, name.length)
  | under suffix => (0, suffix.count '.' + 1, suffix.length)

theorem ruleSpecificity_eq {rule : DomainRule} (hrule : readRule unicode raw = some rule) :
    ruleSpecificity unicode raw = rule.specificity := by
  obtain ⟨hstatus, rfl⟩ := readRule_eq_some_iff.mp hrule
  rw [ruleSpecificity, if_neg (not_not_intro hstatus), DomainRule.ofPattern]
  cases isWildcard (validatePolicyDomainPattern unicode raw).normalized <;>
    simp [DomainRule.specificity]

def Specificity.key (specificity : Specificity) : Int ×ₗ Int ×ₗ Int :=
  toLex (specificity.1, toLex (specificity.2.1, specificity.2.2))

theorem Specificity.less_iff (a b : Specificity) : a.less b = true ↔ a.key < b.key := by
  rw [Specificity.less, Specificity.key, Specificity.key, Prod.Lex.lt_iff, Prod.Lex.lt_iff]
  simp

theorem less_iff_not_atLeast {rule other : DomainRule} (hrule : rule.Matches host)
    (hother : other.Matches host) :
    rule.specificity.less other.specificity = true ↔ ¬rule.AtLeast other := by
  cases rule with
  | exact name =>
      cases other with
      | exact other =>
          have hsame : name = other := Eq.trans (Eq.symm hrule) hother
          rw [hsame]
          simp [DomainRule.AtLeast, Specificity.less]
      | under other => simp [DomainRule.AtLeast, DomainRule.specificity, Specificity.less]
  | under suffix =>
      cases other with
      | exact other => simp [DomainRule.AtLeast, DomainRule.specificity, Specificity.less]
      | under other =>
          have hcount : ∀ {short long : Str}, '.' :: short <:+ host → '.' :: long <:+ host →
              short.length ≤ long.length → short.count '.' ≤ long.count '.' := by
            intro short long hshort hlong hle
            have hshort' : short <:+ host := (List.suffix_cons _ _).trans hshort
            have hlong' : long <:+ host := (List.suffix_cons _ _).trans hlong
            exact (List.suffix_of_suffix_length_le hshort' hlong' hle).sublist.count_le '.'
          simp only [DomainRule.AtLeast, DomainRule.specificity, Specificity.less, not_le]
          rcases Nat.lt_or_ge suffix.length other.length with hlt | hge
          · have hle := hcount hrule hother (Nat.le_of_lt hlt)
            simp
            omega
          · have hle := hcount hother hrule hge
            simp
            omega

theorem mostSpecific_eq_some {items : List (Str × Specificity)} {best : Str × Specificity}
    (h : mostSpecific items = some best) :
    best ∈ items ∧ ∀ item ∈ items, best.2.less item.2 = false := by
  cases items with
  | nil => simp [mostSpecific] at h
  | cons first rest =>
      have hfold : (fun best item : Str × Specificity =>
          if best.2.less item.2 = true then item else best) =
          fun best item => if best.2.key < item.2.key then item else best := by
        funext best item
        simp only [Specificity.less_iff]
      rw [mostSpecific, hfold, Option.some_inj] at h
      obtain ⟨hmem, hgreatest⟩ := MostSpecific.foldl_first_max (fun item => item.2.key) first rest
      rw [h] at hmem hgreatest
      refine ⟨hmem, fun item hitem => ?_⟩
      rw [Bool.eq_false_iff, Ne, Specificity.less_iff, not_lt]
      exact hgreatest item hitem

theorem mostSpecific_eq_none {items : List (Str × Specificity)} :
    mostSpecific items = none ↔ items = [] := by
  cases items with
  | nil => simp [mostSpecific]
  | cons first rest => simp [mostSpecific]

theorem mem_matchingRules {entries : List Str} {rule : DomainRule} :
    rule ∈ matchingRules unicode host entries ↔
      (∃ raw ∈ entries, readRule unicode raw = some rule) ∧ rule.Matches host := Iff.rfl

theorem bestPolicyRule_eq_none (hname : IsName host) {entries : List Str} :
    bestPolicyRule unicode host entries = none ↔ matchingRules unicode host entries = ∅ := by
  rw [bestPolicyRule, mostSpecific_eq_none, List.map_eq_nil_iff, List.filter_eq_nil_iff,
    Set.eq_empty_iff_forall_notMem]
  constructor
  · rintro h rule ⟨⟨raw, hraw, hrule⟩, hmatch⟩
    exact h raw hraw ((policyDomainMatches_iff hname).mpr ⟨rule, hrule, hmatch⟩)
  · intro h raw hraw hmatches
    obtain ⟨rule, hrule, hmatch⟩ := (policyDomainMatches_iff hname).mp hmatches
    exact h rule ⟨⟨raw, hraw, hrule⟩, hmatch⟩

theorem bestPolicyRule_eq_some (hname : IsName host) {entries : List Str} {best : Str × Specificity}
    (h : bestPolicyRule unicode host entries = some best) :
    ∃ rule ∈ matchingRules unicode host entries, best.2 = rule.specificity ∧
      ∀ other ∈ matchingRules unicode host entries, rule.AtLeast other := by
  rw [bestPolicyRule] at h
  obtain ⟨hmem, hgreatest⟩ := mostSpecific_eq_some h
  obtain ⟨raw, hraw, rfl⟩ := List.mem_map.mp hmem
  obtain ⟨hentry, hmatches⟩ := List.mem_filter.mp hraw
  obtain ⟨rule, hrule, hmatch⟩ := (policyDomainMatches_iff hname).mp hmatches
  refine ⟨rule, ⟨⟨raw, hentry, hrule⟩, hmatch⟩, ruleSpecificity_eq hrule, ?_⟩
  rintro other ⟨⟨raw', hentry', hother⟩, hmatch'⟩
  have hmatches' := (policyDomainMatches_iff hname).mpr ⟨other, hother, hmatch'⟩
  have hless := hgreatest _ (List.mem_map_of_mem (List.mem_filter.mpr ⟨hentry', hmatches'⟩))
  dsimp only at hless
  rw [ruleSpecificity_eq hrule, ruleSpecificity_eq hother, Bool.eq_false_iff, Ne,
    less_iff_not_atLeast hmatch hmatch', not_not] at hless
  exact hless

/-! ### What the policy decides -/

theorem DomainRule.AtLeast.trans {first second third : DomainRule} (h : first.AtLeast second)
    (hnext : second.AtLeast third) : first.AtLeast third := by
  cases first with
  | exact name => trivial
  | under suffix =>
      cases second with
      | exact name => exact h.elim
      | under second =>
          cases third with
          | exact name => exact hnext.elim
          | under third => exact Nat.le_trans hnext h

theorem policyNetworkDecision_block (hname : IsName host) (policy : SandboxPolicy) :
    (∃ decision, policyNetworkDecision unicode host policy = some decision ∧
      decision.status = .block) ↔ IsDenied unicode host policy := by
  rw [policyNetworkDecision, IsDenied]
  dsimp only
  cases hallow : bestPolicyRule unicode host policy.network.allowDomains with
  | none =>
      have hempty := (bestPolicyRule_eq_none hname).mp hallow
      rw [hempty]
      cases hdeny : bestPolicyRule unicode host policy.network.denyDomains with
      | none =>
          rw [(bestPolicyRule_eq_none hname).mp hdeny]
          cases policy.network.blockAllNetwork <;> simp
      | some deny =>
          obtain ⟨rule, hrule, -, -⟩ := bestPolicyRule_eq_some hname hdeny
          constructor
          · exact fun _ => Or.inl ⟨rule, hrule, fun other hother => hother.elim⟩
          · exact fun _ => ⟨_, rfl, rfl⟩
  | some allow =>
      obtain ⟨permit, hpermit, hspecificity, hgreatest⟩ := bestPolicyRule_eq_some hname hallow
      have hne : matchingRules unicode host policy.network.allowDomains ≠ ∅ :=
        Set.nonempty_iff_ne_empty.mp ⟨permit, hpermit⟩
      cases hdeny : bestPolicyRule unicode host policy.network.denyDomains with
      | none =>
          rw [(bestPolicyRule_eq_none hname).mp hdeny]
          simp [hne]
      | some deny =>
          obtain ⟨rule, hrule, hruleSpecificity, hruleGreatest⟩ := bestPolicyRule_eq_some hname hdeny
          have hless := less_iff_not_atLeast hrule.2 hpermit.2
          dsimp only
          rw [hspecificity, hruleSpecificity]
          by_cases hatLeast : rule.AtLeast permit
          · rw [if_neg fun h => hless.mp h hatLeast]
            constructor
            · exact fun _ => Or.inl ⟨rule, hrule, fun other hother =>
                hatLeast.trans (hgreatest other hother)⟩
            · exact fun _ => ⟨_, rfl, rfl⟩
          · rw [if_pos (hless.mpr hatLeast)]
            constructor
            · rintro ⟨decision, hdecision, hstatus⟩
              rw [← Option.some.inj hdecision] at hstatus
              exact NetworkDecisionStatus.noConfusion hstatus
            · rintro (⟨other, hother, hall⟩ | ⟨hnone, -, -⟩)
              · exact absurd ((hruleGreatest other hother).trans (hall permit hpermit)) hatLeast
              · exact absurd hnone hne

theorem policyNetworkDecision_ne_ask {policy : SandboxPolicy} {decision : NetworkDecision}
    (h : policyNetworkDecision unicode host policy = some decision) : decision.status ≠ .ask := by
  rw [policyNetworkDecision] at h
  dsimp only at h
  split at h
  · split at h <;> cases h <;> simp
  · cases h
    simp
  · cases h
    simp
  · split at h <;> cases h
    simp

theorem decideAcceptableHost_safe (hname : IsName host) {context : RunContext}
    (hmode : context.runMode = .safe) (policy : SandboxPolicy) :
    ((decideAcceptableHost unicode host context policy).status = .block ↔
      IsDenied unicode host policy) ∧
    (decideAcceptableHost unicode host context policy).status ≠ .ask := by
  rw [← policyNetworkDecision_block hname policy, decideAcceptableHost]
  cases hdecision : policyNetworkDecision unicode host policy with
  | some decision =>
      simp only [Option.some_or, Option.getD_some, Option.some_inj, exists_eq_left']
      exact ⟨trivial, policyNetworkDecision_ne_ask hdecision⟩
  | none =>
      have hbundles : ∀ ids, ∀ decision ∈ bundleDecision unicode host ids,
          decision.status = .allow := by
        intro ids decision hfound
        obtain ⟨id, -, rfl⟩ := Option.map_eq_some_iff.mp hfound
        rfl
      simp only [Option.none_or]
      generalize hrest : Option.or _ _ = rest
      have hallow : (rest.getD (defaultDecision host context)).status = .allow := by
        cases rest with
        | none => rw [Option.getD_none, defaultDecision, if_pos hmode]
        | some decision =>
            rw [Option.getD_some]
            simp only [Option.or_eq_some_iff] at hrest
            rcases hrest with (((h | ⟨-, h⟩) | ⟨-, h⟩) | ⟨-, h⟩) | ⟨-, h⟩
            · obtain ⟨grant, -, rfl⟩ := Option.map_eq_some_iff.mp h
              rfl
            · exact hbundles _ _ h
            · obtain ⟨source, -, rfl⟩ := Option.map_eq_some_iff.mp h
              rfl
            · exact hbundles _ _ h
            · obtain ⟨grant, -, rfl⟩ := Option.map_eq_some_iff.mp h
              rfl
      rw [hallow]
      simp

/-! ### Spellings -/

def ruleOfName (text : Str) : Option DomainRule :=
  if isWildcard text then
    if 1 ≤ (text.drop 2).count '.' ∧ isValidDnsName (text.drop 2) = true then
      some (.under (text.drop 2))
    else none
  else if isIpLiteral text = false ∧ '.' ∈ text ∧ isValidDnsName text = true then some (.exact text)
  else none

theorem isWildcard_iff {text : Str} : isWildcard text = true ↔ ∃ rest, text = '*' :: '.' :: rest := by
  rw [isWildcard, List.isPrefixOf_iff_prefix]
  constructor
  · rintro ⟨rest, rfl⟩
    exact ⟨rest, rfl⟩
  · rintro ⟨rest, rfl⟩
    exact ⟨rest, rfl⟩

theorem rdropWhile_dots {text : Str} (hlast : text.getLast? ≠ some '.') (dot : Bool) :
    (text ++ if dot then ['.'] else []).rdropWhile (· == '.') = text := by
  have hself : text.rdropWhile (· == '.') = text := by
    rw [List.rdropWhile_eq_self_iff]
    intro hne hdot
    rw [beq_iff_eq] at hdot
    exact hlast (hdot ▸ List.getLast?_eq_some_getLast hne)
  cases dot with
  | false => rw [if_neg Bool.false_ne_true, List.append_nil, hself]
  | true => rw [if_pos rfl, List.rdropWhile_concat_pos _ _ _ (by rfl), hself]

theorem not_isValidDnsName_of_star {text : Str} (h : '*' ∈ text) : ¬isValidDnsName text = true :=
  fun hdns => not_foreign_of_isValidDnsName hdns ⟨'*', h, by decide, by decide⟩

theorem readRule_of_blocked (h : (validatePolicyDomainPattern unicode raw).status = .blocked) :
    readRule unicode raw = none := by
  rw [readRule, h, if_neg (by decide)]

theorem readRule_of_eq {pattern : Str} {reason : String}
    (h : validatePolicyDomainPattern unicode raw = allowed pattern reason) :
    readRule unicode raw = some (.ofPattern pattern) := by
  rw [readRule, h, allowed, if_pos rfl]

theorem readRule_wildcard {s : Spelling} (h : s.Plain) {rest : Str} (hhost : s.host = '*' :: '.' :: rest)
    (hread : extractValidationHost unicode raw = ⟨s.dotted, none⟩) :
    readRule unicode raw = ruleOfName s.host := by
  have hlast : rest.getLast? ≠ some '.' := by
    intro hdot
    apply h.host_last
    rw [hhost]
    cases rest with
    | nil => simp at hdot
    | cons c tail => simpa using hdot
  have hdotted : s.dotted = '*' :: '.' :: (rest ++ if s.dot then ['.'] else []) := by
    rw [Spelling.dotted, hhost]
    rfl
  have hwildcard : isWildcard s.dotted = true := isWildcard_iff.mpr ⟨_, hdotted⟩
  have hsuffix : (s.dotted.drop 2).rdropWhile (· == '.') = rest := by
    rw [hdotted]
    exact rdropWhile_dots hlast s.dot
  have hne : s.dotted ≠ [] := by
    rw [hdotted]
    exact List.cons_ne_nil _ _
  have hvalidate : validatePolicyDomainPattern unicode raw =
      if rest.count '.' < 1 then blocked s.dotted "broad_wildcard"
      else if !isValidDnsName rest then blocked s.dotted "invalid_domain"
      else allowed ('*' :: '.' :: rest) "wildcard_domain" := by
    rw [validatePolicyDomainPattern, hread]
    dsimp only
    rw [if_neg hne, if_pos hwildcard, hsuffix]
    rfl
  rw [ruleOfName, if_pos (isWildcard_iff.mpr ⟨rest, hhost⟩), hhost]
  by_cases hcount : rest.count '.' < 1
  · rw [if_pos hcount] at hvalidate
    rw [readRule_of_blocked (by rw [hvalidate]; rfl), if_neg fun hboth => Nat.not_le.mpr hcount hboth.1]
  · rw [if_neg hcount] at hvalidate
    cases hdns : isValidDnsName rest with
    | false =>
        rw [hdns, Bool.not_false, if_pos rfl] at hvalidate
        rw [readRule_of_blocked (by rw [hvalidate]; rfl), if_neg]
        rintro ⟨-, htrue⟩
        exact Bool.noConfusion (hdns.symm.trans htrue)
    | true =>
        rw [hdns, Bool.not_true, if_neg Bool.false_ne_true] at hvalidate
        rw [readRule_of_eq hvalidate, if_pos ⟨Nat.not_lt.mp hcount, hdns⟩]
        rfl

theorem isWildcard_dotted {s : Spelling} (h : isWildcard s.dotted = true)
    (hhost : ¬isWildcard s.host = true) : s.dotted = ['*', '.'] ∨ s.host = [] := by
  obtain ⟨rest, hdotted⟩ := isWildcard_iff.mp h
  rw [Spelling.dotted] at hdotted ⊢
  cases hcase : s.host with
  | nil => exact Or.inr rfl
  | cons c tail =>
      rw [hcase, List.cons_append, List.cons.injEq] at hdotted
      cases tail with
      | nil =>
          rw [List.nil_append] at hdotted
          split at hdotted
          · rename_i hdot
            rw [hdotted.1, if_pos hdot]
            exact Or.inl rfl
          · simp at hdotted
      | cons d tail =>
          rw [List.cons_append, List.cons.injEq] at hdotted
          rw [hcase, hdotted.1, hdotted.2.1] at hhost
          exact absurd (isWildcard_iff.mpr ⟨tail, rfl⟩) hhost

theorem readRule_plain {s : Spelling} (h : s.Plain)
    (hread : extractValidationHost unicode raw = ⟨s.dotted, none⟩) :
    readRule unicode raw = ruleOfName s.host := by
  by_cases hwildcard : isWildcard s.host = true
  · obtain ⟨rest, hhost⟩ := isWildcard_iff.mp hwildcard
    exact readRule_wildcard h hhost hread
  have hne : s.dotted ≠ [] := by simp [Spelling.dotted, h.host_ne_nil]
  rw [ruleOfName, if_neg hwildcard]
  by_cases hstar : '*' ∈ s.host
  · -- the star is no part of a wildcard
    have hstarDotted : '*' ∈ s.dotted := List.mem_append_left _ hstar
    have hblocked : (validatePolicyDomainPattern unicode raw).status = .blocked := by
      rw [validatePolicyDomainPattern, hread]
      dsimp only
      rw [if_neg hne]
      by_cases hdotted : isWildcard s.dotted = true
      · have hsingle := (isWildcard_dotted hdotted hwildcard).resolve_right h.host_ne_nil
        rw [if_pos hdotted, hsingle]
        rfl
      · rw [if_neg hdotted, if_pos hstarDotted]
        rfl
    rw [readRule_of_blocked hblocked, if_neg fun hall => not_isValidDnsName_of_star hstar hall.2.2]
  · have hvalidate : validatePolicyDomainPattern unicode raw =
        if isIpLiteral s.host = true then blocked s.host "ip_literal"
        else if '.' ∉ s.host ∨ !isValidDnsName s.host then blocked s.host "invalid_domain"
        else allowed s.host "exact_domain" := by
      rw [validatePolicyDomainPattern, hread]
      dsimp only
      rw [if_neg hne, if_neg (Spelling.Plain.isWildcard_dotted hstar),
        if_neg (Spelling.Plain.star_notMem_dotted hstar), h.normalize_dotted hstar]
    by_cases hall : isIpLiteral s.host = false ∧ '.' ∈ s.host ∧ isValidDnsName s.host = true
    · obtain ⟨hliteral, hdot, hdns⟩ := hall
      rw [hliteral, hdns, if_neg Bool.false_ne_true, if_neg (by simpa using hdot)] at hvalidate
      rw [readRule_of_eq hvalidate, if_pos ⟨hliteral, hdot, hdns⟩, DomainRule.ofPattern,
        if_neg hwildcard]
    · rw [if_neg hall]
      apply readRule_of_blocked
      rw [hvalidate]
      split
      · rfl
      · rename_i hliteral
        rw [if_pos]
        · rfl
        · by_contra hnone
          simp only [not_or, not_not, Bool.not_eq_true, Bool.not_eq_false'] at hnone
          exact hall ⟨Bool.not_eq_true _ ▸ hliteral, hnone.1, hnone.2⟩

theorem SameSpelling.readRule_eq (h : SameSpelling unicode raw raw') :
    readRule unicode raw = readRule unicode raw' := by
  rcases h with hlower | ⟨s, s', hhost, ⟨hplain, hbracketed, hport, hraw⟩,
    ⟨hplain', hbracketed', hport', hraw'⟩⟩
  · have hextract : extractValidationHost unicode raw = extractValidationHost unicode raw' := by
      rw [extractValidationHost, extractValidationHost, hlower]
    rw [readRule, readRule, validatePolicyDomainPattern, validatePolicyDomainPattern, hextract]
  · have hread := extractValidationHost_plain unicode hplain hbracketed hraw
    have hread' := extractValidationHost_plain unicode hplain' hbracketed' hraw'
    rw [hport, if_pos rfl] at hread
    rw [hport', if_pos rfl] at hread'
    rw [readRule_plain hplain hread, readRule_plain hplain' hread', hhost]

theorem SameSpelling.validate_eq (h : SameSpelling unicode raw raw')
    (hvalid : IsValidHost unicode raw) :
    (validateDomainPattern unicode raw').status = .allowed ∧
      (validateDomainPattern unicode raw').normalized =
        (validateDomainPattern unicode raw).normalized := by
  rcases h with hlower | ⟨s, s', hhost, ⟨hplain, hbracketed, hport, hraw⟩,
    ⟨hplain', hbracketed', hport', hraw'⟩⟩
  · have hextract : extractValidationHost unicode raw' = extractValidationHost unicode raw := by
      rw [extractValidationHost, extractValidationHost, hlower]
    have hvalidate : validateDomainPattern unicode raw' = validateDomainPattern unicode raw := by
      rw [validateDomainPattern, validateDomainPattern, hextract]
    rw [hvalidate]
    exact ⟨hvalid.1, rfl⟩
  · have hread := extractValidationHost_plain unicode hplain hbracketed hraw
    have hread' := extractValidationHost_plain unicode hplain' hbracketed' hraw'
    rw [hport, if_pos rfl] at hread
    rw [hport', if_pos rfl] at hread'
    have haccept := acceptable_of_allowed hvalid.1 hvalid.2
    have hstar := haccept.star
    have hnormal := haccept.normalized_eq
    rw [hread] at hstar hnormal
    rw [hplain.normalize_dotted fun hmem => hstar (List.mem_append_left _ hmem)] at hnormal
    have hname := hvalid.isName
    rw [hnormal, hhost] at hname
    rw [hplain'.validateDomainPattern_eq hname hread', hnormal, hhost]
    exact ⟨rfl, rfl⟩

theorem SameEntries.matchingRules_eq {entries entries' : List Str}
    (h : SameEntries unicode entries entries') :
    matchingRules unicode host entries = matchingRules unicode host entries' := by
  ext rule
  rw [mem_matchingRules, mem_matchingRules]
  apply and_congr_left'
  constructor
  · rintro ⟨raw, hraw, hrule⟩
    obtain ⟨raw', hraw', hsame⟩ := h.1 raw hraw
    exact ⟨raw', hraw', hsame.readRule_eq ▸ hrule⟩
  · rintro ⟨raw', hraw', hrule⟩
    obtain ⟨raw, hraw, hsame⟩ := h.2 raw' hraw'
    exact ⟨raw, hraw, hsame.readRule_eq ▸ hrule⟩

theorem SameRules.isDenied_iff {policy policy' : SandboxPolicy} (h : SameRules unicode policy policy') :
    IsDenied unicode host policy ↔ IsDenied unicode host policy' := by
  rw [IsDenied, IsDenied, h.allow.matchingRules_eq, h.deny.matchingRules_eq, h.blockAll]

/-! ### The decision -/

theorem decideNetworkAccess_safe (hvalid : IsValidHost unicode raw) {context : RunContext}
    (hmode : context.runMode = .safe) (policy : SandboxPolicy) :
    ((decideNetworkAccess unicode raw context (some policy)).status = .block ↔
      IsDenied unicode (validateDomainPattern unicode raw).normalized policy) ∧
    (decideNetworkAccess unicode raw context (some policy)).status ≠ .ask := by
  have hfull : context.runMode ≠ .full := by
    rw [hmode]
    decide
  have hstatus : ¬(validateDomainPattern unicode raw).status = .blocked := by
    rw [hvalid.1]
    decide
  rw [decideNetworkAccess, if_neg hfull]
  dsimp only
  rw [if_neg hstatus, if_neg hvalid.2]
  exact decideAcceptableHost_safe hvalid.isName hmode policy

/-- In the safe mode a valid host is blocked just when the policy denies it, and neither the order,
the repetition or the spelling of the rules, nor the spelling of the host, nor a grant of the session
changes the answer. -/
theorem policy_decides_access (unicode : Unicode) {raw : Str} (hvalid : IsValidHost unicode raw)
    {context : RunContext} (hmode : context.runMode = .safe) (policy : SandboxPolicy) :
    ((decideNetworkAccess unicode raw context (some policy)).status = .block ↔
      IsDenied unicode (validateDomainPattern unicode raw).normalized policy) ∧
    ∀ (raw' : Str) (context' : RunContext) (policy' : SandboxPolicy),
      SameSpelling unicode raw raw' → context'.runMode = .safe → SameRules unicode policy policy' →
      (decideNetworkAccess unicode raw' context' (some policy')).status =
        (decideNetworkAccess unicode raw context (some policy)).status := by
  obtain ⟨hblock, hask⟩ := decideNetworkAccess_safe hvalid hmode policy
  refine ⟨hblock, fun raw' context' policy' hsame hmode' hrules => ?_⟩
  obtain ⟨hstatus, hnormal⟩ := hsame.validate_eq hvalid
  have hvalid' : IsValidHost unicode raw' := ⟨hstatus, hnormal ▸ hvalid.2⟩
  obtain ⟨hblock', hask'⟩ := decideNetworkAccess_safe hvalid' hmode' policy'
  rw [hnormal, ← hrules.isDenied_iff, ← hblock] at hblock'
  generalize (decideNetworkAccess unicode raw context (some policy)).status = answer at hblock' hask
  generalize (decideNetworkAccess unicode raw' context' (some policy')).status = answer'
    at hblock' hask'
  cases answer <;> cases answer' <;> simp_all

/-- A wildcard deny rule stands over a shorter allow rule, with another spelling of the host. -/
theorem longer_deny_rule_blocks :
    (decideNetworkAccess .ascii "api.dev.example.com".toList { runMode := .safe }
      (some { network := { allowDomains := ["*.example.com".toList]
                           denyDomains := ["https://*.dev.example.com".toList] } })).status = .block ∧
    (decideNetworkAccess .ascii " API.dev.example.com".toList
      { runMode := .safe, domains := [{ domain := "api.dev.example.com".toList }] }
      (some { network := { allowDomains := ["*.EXAMPLE.com".toList, "*.example.com".toList]
                           denyDomains := ["https://*.dev.example.com".toList] } })).status =
      .block := by
  have hblocked : (decideNetworkAccess .ascii "api.dev.example.com".toList { runMode := .safe }
      (some { network := { allowDomains := ["*.example.com".toList]
                           denyDomains := ["https://*.dev.example.com".toList] } })).status =
      .block := by decide +kernel
  have hvalid : IsValidHost .ascii "api.dev.example.com".toList := by
    constructor <;> decide +kernel
  refine ⟨hblocked, ?_⟩
  rw [← hblocked]
  apply (policy_decides_access .ascii hvalid rfl _).2
  · exact Or.inl (by decide +kernel)
  · rfl
  · refine ⟨⟨?_, ?_⟩, ⟨?_, ?_⟩, rfl⟩
    · intro entry hentry
      rw [List.mem_singleton.mp hentry]
      exact ⟨"*.example.com".toList, by simp, Or.inl rfl⟩
    · intro entry hentry
      refine ⟨"*.example.com".toList, by simp, Or.inl ?_⟩
      simp only [List.mem_cons, List.not_mem_nil, or_false] at hentry
      rcases hentry with rfl | rfl <;> decide +kernel
    · intro entry hentry
      exact ⟨entry, hentry, Or.inl rfl⟩
    · intro entry hentry
      exact ⟨entry, hentry, Or.inl rfl⟩

end

end OpenStarry.Sandbox
