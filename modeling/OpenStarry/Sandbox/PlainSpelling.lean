import OpenStarry.Sandbox.Literals

/-!
# Plain spellings of a name

A name or a wildcard with nothing unusual around it: a scheme with user information, a dot at the end,
a port in digits and a path. Every such text is read as the name itself, with its dot; only a port
that is too large is an error.
-/

namespace OpenStarry.Sandbox

open Lib
open Lib.Text
open Lib.Text.Url

def isNameChar (c : Char) : Bool := isDnsLabelChar c || c = '.' || c = '*'

namespace Spelling

structure Plain (s : Spelling) : Prop where
  scheme_head : ∀ scheme ∈ s.scheme, scheme.head?.any Char.isAlpha = true
  scheme : ∀ scheme ∈ s.scheme, ∀ c ∈ scheme, isSchemeChar c = true
  userInfo : ∀ info ∈ s.userInfo, ∀ c ∈ info,
    isDelimiter c = false ∧ isBracket c = false ∧ c.toNat < 128
  host_ne_nil : s.host ≠ []
  host : ∀ c ∈ s.host, isNameChar c = true
  host_last : s.host.getLast? ≠ some '.'
  port_ne_nil : ∀ port ∈ s.port, port ≠ []
  port : ∀ port ∈ s.port, ∀ c ∈ port, c.isDigit = true
  rest : StopsAt (fun c => !isDelimiter c) s.rest
  bare : s.scheme = none →
    s.userInfo = none ∧ s.rest.head?.all (· == '/') = true ∧ find "://".toList s.rest = none

def portIsRead (s : Spelling) : Bool :=
  s.port.all fun port => if s.scheme.isSome then intOf port ≤ 65535 else isValidPort port

def dotted (s : Spelling) : Str := s.host ++ if s.dot then ['.'] else []

end Spelling

/-! ### Characters -/

theorem toNat_lt_of_isNameChar {c : Char} (h : isNameChar c = true) : c.toNat < 128 := by
  simp only [isNameChar, isDnsLabelChar, Char.isDigit, Bool.or_eq_true, Bool.and_eq_true,
    decide_eq_true_eq, beq_iff_eq] at h
  rcases h with (((⟨-, h⟩ | ⟨-, h⟩) | rfl) | rfl) | rfl
  · have hz : c.toNat ≤ 'z'.toNat := h
    exact Nat.lt_of_le_of_lt hz (by decide)
  · have hnine : c.toNat ≤ '9'.toNat := h
    exact Nat.lt_of_le_of_lt hnine (by decide)
  · decide
  · decide
  · decide

theorem isHostChar_of_isNameChar {c : Char} (h : isNameChar c = true) : isHostChar c = true := by
  have hall : ∀ n < 128, isNameChar (Char.ofNat n) = true → isHostChar (Char.ofNat n) = true := by
    decide
  have hchar : isNameChar c = true → isHostChar c = true := by
    rw [← Char.ofNat_toNat c]
    exact hall _ (toNat_lt_of_isNameChar h)
  exact hchar h

theorem isHostChar_of_isDigit {c : Char} (h : c.isDigit = true) : isHostChar c = true := by
  apply isHostChar_of_isNameChar
  simp [isNameChar, isDnsLabelChar, h]

namespace Spelling.Plain

variable {s : Spelling}

theorem wellFormed (h : s.Plain) : s.WellFormed where
  scheme_head := h.scheme_head
  scheme := h.scheme
  userInfo := fun info hinfo c hc => (h.userInfo info hinfo c hc).1
  host_ne_nil := h.host_ne_nil
  host := fun c hc => isHostChar_of_isNameChar (h.host c hc)
  colon := fun hcolon => absurd (h.host _ hcolon) (by decide)
  port_ne_nil := h.port_ne_nil
  port := fun port hport c hc => isHostChar_of_isDigit (h.port port hport c hc)
  rest := h.rest

theorem notMem_host (h : s.Plain) {c : Char} (hc : isNameChar c = false) : c ∉ s.host := fun hmem => by
  rw [h.host c hmem] at hc
  exact Bool.noConfusion hc

theorem mem_location (h : s.Plain) {c : Char} (hc : c ∈ s.location) :
    isNameChar c = true ∨ c = ':' ∨ (s.bracketed = true ∧ isBracket c = true) := by
  rw [location, name, shownHost, List.mem_append, List.mem_append] at hc
  rcases hc with (hc | hc) | hc
  · cases hbracketed : s.bracketed with
    | false =>
        rw [hbracketed, if_neg Bool.false_ne_true] at hc
        exact Or.inl (h.host c hc)
    | true =>
        rw [hbracketed, if_pos rfl, List.mem_append, List.mem_cons, List.mem_singleton] at hc
        rcases hc with (rfl | hc) | rfl
        · exact Or.inr (Or.inr ⟨rfl, rfl⟩)
        · exact Or.inl (h.host c hc)
        · exact Or.inr (Or.inr ⟨rfl, rfl⟩)
  · split at hc
    · rw [List.mem_singleton.mp hc]
      exact Or.inl rfl
    · simp at hc
  · cases hport : s.port with
    | none =>
        rw [hport] at hc
        simp at hc
    | some port =>
        rw [hport, Option.elim_some, List.mem_cons] at hc
        rcases hc with rfl | hc
        · exact Or.inr (Or.inl rfl)
        · have hdigit := h.port port hport c hc
          exact Or.inl (by simp [isNameChar, isDnsLabelChar, hdigit])

theorem toNat_lt_of_mem_location (h : s.Plain) {c : Char} (hc : c ∈ s.location) : c.toNat < 128 := by
  rcases h.mem_location hc with hname | rfl | ⟨-, hbracket⟩
  · exact toNat_lt_of_isNameChar hname
  · decide
  · simp only [isBracket, Bool.or_eq_true, decide_eq_true_eq] at hbracket
    rcases hbracket with rfl | rfl <;> decide

theorem isBracket_of_mem_location (h : s.Plain) (hbracketed : s.bracketed = false) {c : Char}
    (hc : c ∈ s.location) : isBracket c = false := by
  rcases h.mem_location hc with hname | rfl | ⟨htrue, -⟩
  · have hhost := isHostChar_of_isNameChar hname
    rw [isHostChar, Bool.and_eq_true, Bool.not_eq_true'] at hhost
    exact hhost.2
  · rfl
  · rw [hbracketed] at htrue
    exact Bool.noConfusion htrue

theorem colon_notMem_dotted (h : s.Plain) : ':' ∉ s.dotted := by
  rw [dotted, List.mem_append, not_or]
  refine ⟨h.notMem_host (by decide), ?_⟩
  split <;> decide

theorem name_eq_dotted (hbracketed : s.bracketed = false) : s.name = s.dotted :=
  WellFormed.name_eq hbracketed

theorem parts_location (h : s.Plain) (hbracketed : s.bracketed = false) :
    beforeFirst ':' s.location = s.dotted ∧ afterFirst ':' s.location = s.port.getD [] := by
  rw [location, name_eq_dotted hbracketed]
  cases s.port with
  | none =>
      rw [Option.elim_none, List.append_nil]
      exact ⟨beforeFirst_eq_self h.colon_notMem_dotted, afterFirst_eq_nil h.colon_notMem_dotted⟩
  | some port =>
      exact ⟨beforeFirst_append h.colon_notMem_dotted, afterFirst_append h.colon_notMem_dotted⟩

theorem location_ne_nil (h : s.Plain) : s.location ≠ [] := h.wellFormed.location_ne_nil

/-! ### Behind a scheme -/

theorem mem_front (h : s.Plain) {c : Char} (hc : c ∈ s.front.filter fun c => !isUnsafe c) :
    isBracket c = false ∧ c.toNat < 128 := by
  have hmem := List.mem_of_mem_filter hc
  rw [front] at hmem
  cases hinfo : s.userInfo with
  | none =>
      rw [hinfo] at hmem
      simp at hmem
  | some info =>
      rw [hinfo, Option.elim_some, List.mem_append, List.mem_singleton] at hmem
      rcases hmem with hmem | rfl
      · exact (h.userInfo info hinfo c hmem).2
      · exact ⟨rfl, by decide⟩

theorem netlocFits_location (h : s.Plain) (unicode : Unicode) :
    netlocFits unicode ((s.front.filter fun c => !isUnsafe c) ++ s.location) = true := by
  have hascii : ((s.front.filter fun c => !isUnsafe c) ++ s.location).all
      (fun c => c.toNat < 128) = true := by
    rw [List.all_eq_true]
    intro c hc
    rw [decide_eq_true_eq]
    rcases List.mem_append.mp hc with hfront | hlocation
    · exact (h.mem_front hfront).2
    · exact h.toNat_lt_of_mem_location hlocation
  rw [netlocFits, hascii, Bool.true_or, Bool.true_or]

theorem extractFromUrl_scheme (h : s.Plain) (hbracketed : s.bracketed = false) (unicode : Unicode)
    {raw scheme : Str} (hscheme : s.scheme = some scheme) (hlower : unicode.lower raw = s.render) :
    extractFromUrl unicode s.render =
      ⟨s.dotted, if s.portIsRead then none else some "invalid_port"⟩ := by
  have hbracket : ∀ c ∈ (s.front.filter fun c => !isUnsafe c) ++ s.location,
      isBracket c = false := by
    intro c hc
    rcases List.mem_append.mp hc with hfront | hlocation
    · exact (h.mem_front hfront).1
    · exact h.isBracket_of_mem_location hbracketed hlocation
  have hsplit := h.wellFormed.splitNetloc_render_scheme hscheme
  have hlast := h.wellFormed.afterLast_location
  generalize hnetloc : (s.front.filter fun c => !isUnsafe c) ++ s.location = found
    at hbracket hsplit hlast
  have hopen : '[' ∉ found := fun hmem => absurd (hbracket _ hmem) (by decide)
  have hclose : ']' ∉ found := fun hmem => absurd (hbracket _ hmem) (by decide)
  have hfits : bracketsFit found = true := by
    rw [bracketsFit]
    simp [hopen, hclose]
  have hread : netloc unicode s.render = some found := by
    rw [netloc, hsplit, if_pos ⟨hfits, hnetloc ▸ h.netlocFits_location unicode⟩]
  have hopenLocation : '[' ∉ s.location := fun hmem =>
    absurd (h.isBracket_of_mem_location hbracketed hmem) (by decide)
  have hinfo : hostinfo found = (s.dotted, s.port.getD []) := by
    rw [hostinfo, hlast, if_neg hopenLocation, (h.parts_location hbracketed).1,
      (h.parts_location hbracketed).2]
  have hname : hostname unicode found = s.dotted := by
    rw [WellFormed.hostname_eq unicode hlower (by rw [hinfo, name_eq_dotted hbracketed]),
      name_eq_dotted hbracketed]
  have hport : portFits found = s.portIsRead := by
    rw [portFits, hinfo, portIsRead, hscheme]
    cases hcase : s.port with
    | none => rfl
    | some port =>
        have hdigits : port.all Char.isDigit = true := List.all_eq_true.mpr (h.port port hcase)
        have hne := h.port_ne_nil port hcase
        simp [hdigits, hne]
  rw [extractFromUrl, hread]
  dsimp only
  rw [hname, hport]
  cases s.portIsRead with
  | true => rw [Bool.not_true, if_neg Bool.false_ne_true, if_neg (not_or.mpr ⟨hopen, hclose⟩)]; rfl
  | false => rw [Bool.not_false, if_pos rfl]; rfl

/-! ### Without a scheme -/

theorem render_bare (h : s.Plain) (hscheme : s.scheme = none) : s.render = s.location ++ s.rest := by
  rw [render, hscheme, Option.elim_none, List.nil_append, authority, (h.bare hscheme).1,
    Option.elim_none, List.nil_append]

theorem getLast?_location (h : s.Plain) : s.location.getLast? ≠ some ':' := by
  intro hlast
  have hmem := List.mem_of_getLast? hlast
  rw [location] at hlast
  cases hport : s.port with
  | some port =>
      have hne := h.port_ne_nil port hport
      rw [hport, Option.elim_some, List.getLast?_append_of_ne_nil _ (List.cons_ne_nil _ _),
        List.getLast?_cons_of_ne_nil hne] at hlast
      exact absurd (h.port port hport _ (List.mem_of_getLast? hlast)) (by decide)
  | none =>
      rw [hport, Option.elim_none, List.append_nil, name] at hlast
      split at hlast
      · simp at hlast
      · rw [List.append_nil, shownHost] at hlast
        split at hlast
        · rw [List.getLast?_append_of_ne_nil _ (List.cons_ne_nil _ _)] at hlast
          exact absurd (Option.some.inj hlast) (by decide)
        · exact h.notMem_host (by decide) (List.mem_of_getLast? hlast)

/-- No `://` stands in a bare text. -/
theorem find_render_bare (h : s.Plain) (hscheme : s.scheme = none) :
    find "://".toList s.render = none := by
  rw [find_eq_none_iff (by decide)]
  intro i hoccurs
  have hrest := (find_eq_none_iff (by decide)).mp (h.bare hscheme).2.2
  have hpattern : "://".toList = [':', '/', '/'] := rfl
  rw [h.render_bare hscheme] at hoccurs
  rcases Nat.lt_or_ge i s.location.length with hlt | hge
  · -- the colon stands in the location, and a character of the location or its end after it
    rw [OccursAt, List.drop_append_of_le_length (Nat.le_of_lt hlt),
      List.drop_eq_getElem_cons hlt, hpattern, List.cons_append] at hoccurs
    obtain ⟨hcolon, hslash⟩ := List.cons_prefix_cons.mp hoccurs
    cases hdrop : s.location.drop (i + 1) with
    | nil =>
        have hlast : s.location.getLast? = some ':' := by
          have hlength : i + 1 = s.location.length := by
            have := List.drop_eq_nil_iff.mp hdrop
            omega
          rw [List.getLast?_eq_getElem?, ← hlength, Nat.add_sub_cancel,
            List.getElem?_eq_getElem hlt, ← hcolon]
        exact h.getLast?_location hlast
    | cons c tail =>
        rw [hdrop, List.cons_append] at hslash
        obtain ⟨rfl, -⟩ := List.cons_prefix_cons.mp hslash
        have hmem : '/' ∈ s.location := by
          apply List.mem_of_mem_drop
          rw [hdrop]
          exact List.mem_cons_self
        exact absurd (h.wellFormed.isLocationChar_location hmem) (by decide)
  · rw [OccursAt, List.drop_append, List.drop_eq_nil_of_le hge, List.nil_append] at hoccurs
    exact hrest _ hoccurs

theorem beforeFirst_render_bare (h : s.Plain) (hscheme : s.scheme = none) :
    beforeFirst '/' s.render = s.location := by
  have hslash : '/' ∉ s.location := fun hmem =>
    absurd (h.wellFormed.isLocationChar_location hmem) (by decide)
  rw [h.render_bare hscheme]
  cases hrest : s.rest with
  | nil => rw [List.append_nil, beforeFirst_eq_self hslash]
  | cons c tail =>
      have hhead := (h.bare hscheme).2.1
      rw [hrest, List.head?_cons, Option.all_some, beq_iff_eq] at hhead
      rw [hhead, beforeFirst_append hslash]

theorem extractBare_plain (h : s.Plain) (hbracketed : s.bracketed = false)
    (hscheme : s.scheme = none) :
    extractBare s.render = ⟨s.dotted, if s.portIsRead then none else some "invalid_port"⟩ := by
  have hhead : s.location.head? ≠ some '[' := fun hhead =>
    absurd (h.isBracket_of_mem_location hbracketed (List.mem_of_head? hhead)) (by decide)
  rw [extractBare, h.beforeFirst_render_bare hscheme]
  rw [if_neg hhead, (h.parts_location hbracketed).1, (h.parts_location hbracketed).2, location,
    name_eq_dotted hbracketed, portIsRead, hscheme]
  have hnone := List.count_eq_zero.mpr h.colon_notMem_dotted
  cases hport : s.port with
  | none =>
      rw [Option.elim_none, List.append_nil, if_neg (by rw [hnone]; decide)]
      rfl
  | some port =>
      have hcolon : ':' ∉ port := fun hmem => absurd (h.port port hport _ hmem) (by decide)
      rw [Option.elim_some, List.count_append, List.count_cons_self, hnone,
        List.count_eq_zero.mpr hcolon, if_pos rfl]
      cases hvalid : isValidPort port <;> simp [hvalid]

theorem render_ne_nil (h : s.Plain) : s.render ≠ [] := by
  rw [render, authority_eq]
  simp [h.location_ne_nil]

theorem find_render_scheme {scheme : Str} (hscheme : s.scheme = some scheme) :
    (find "://".toList s.render).isSome = true := by
  rw [Option.isSome_iff_ne_none, Ne, find_eq_none_iff (by decide)]
  intro hnone
  apply hnone scheme.length
  rw [render, hscheme, Option.elim_some, OccursAt, List.append_assoc, List.drop_left]
  exact List.prefix_append _ _

end Spelling.Plain

theorem extractValidationHost_plain (unicode : Unicode) {s : Spelling} (h : s.Plain)
    (hbracketed : s.bracketed = false) {raw : Str} (hlower : unicode.lower (strip raw) = s.render) :
    extractValidationHost unicode raw =
      ⟨s.dotted, if s.portIsRead then none else some "invalid_port"⟩ := by
  have hne : s.render ≠ [] := by
    rw [Spelling.render, Spelling.authority_eq]
    simp [h.location_ne_nil]
  rw [extractValidationHost, hlower]
  rw [if_neg hne]
  cases hscheme : s.scheme with
  | none =>
      rw [h.find_render_bare hscheme, Option.isSome_none, if_neg Bool.false_ne_true,
        h.extractBare_plain hbracketed hscheme]
  | some scheme =>
      rw [if_pos (Spelling.Plain.find_render_scheme hscheme), h.extractFromUrl_scheme hbracketed unicode hscheme hlower]

/-! ### Names that pass the checks -/

/-- A name that the checks accept as it is. -/
structure IsName (name : Str) : Prop where
  literal : isIpLiteral name = false
  dot : '.' ∈ name
  dnsName : isValidDnsName name = true

theorem IsName.isNameChar {name : Str} (h : IsName name) : ∀ c ∈ name, isNameChar c = true := by
  intro c hc
  by_contra hchar
  apply not_foreign_of_isValidDnsName h.dnsName
  simp only [Sandbox.isNameChar, Bool.or_eq_true, decide_eq_true_eq, not_or, Bool.not_eq_true] at hchar
  exact ⟨c, hc, hchar.1.2, hchar.1.1⟩

theorem IsName.star_notMem {name : Str} (h : IsName name) : '*' ∉ name := fun hmem =>
  not_foreign_of_isValidDnsName h.dnsName ⟨'*', hmem, by decide, by decide⟩

theorem IsName.getLast? {name : Str} (h : IsName name) : name.getLast? ≠ some '.' := by
  intro hlast
  have hdns := h.dnsName
  obtain ⟨front, rfl⟩ := List.getLast?_eq_some_iff.mp hlast
  rw [isValidDnsName, List.splitOn_append_cons_self, Bool.and_eq_true, List.all_eq_true] at hdns
  exact absurd (hdns.2 [] (by simp)) (by decide)

theorem stripBrackets_eq_self {value : Str} (h : ∀ c ∈ value, isBracket c = false) :
    stripBrackets value = value := by
  rw [stripBrackets, List.dropWhile_eq_self_iff.mpr, List.rdropWhile_eq_self_iff.mpr]
  · intro hne
    rw [h _ (List.getLast_mem hne)]
    exact Bool.false_ne_true
  · intro hlength
    rw [h _ (List.getElem_mem hlength)]
    exact Bool.false_ne_true

theorem isIpLiteral_dot {value : Str} (hbracket : ∀ c ∈ value, isBracket c = false)
    (hcolon : ':' ∉ value) (hlast : value.getLast? = some '.') : isIpLiteral value = false := by
  rw [Bool.eq_false_iff]
  intro hliteral
  rw [isIpLiteral, stripBrackets_eq_self hbracket, Bool.or_eq_true] at hliteral
  have hcases : isIpv4NumericAlias value = true ∨ ':' ∈ value ∨ '.' ∉ value := by
    rcases hliteral with haddress | halias
    · exact (IsLiteral.address haddress).cases
    · exact Or.inl halias
  rcases hcases with halias | hmem | hdot
  · exact getLast?_ne_dot halias hlast
  · exact hcolon hmem
  · exact hdot (List.mem_of_getLast? hlast)

namespace Spelling.Plain

variable {s : Spelling} {unicode : Unicode} {raw : Str}

theorem isBracket_dotted (h : s.Plain) : ∀ c ∈ s.dotted, isBracket c = false := by
  intro c hc
  rw [dotted, List.mem_append] at hc
  rcases hc with hc | hc
  · have hchar := isHostChar_of_isNameChar (h.host c hc)
    rw [isHostChar, Bool.and_eq_true, Bool.not_eq_true'] at hchar
    exact hchar.2
  · split at hc
    · rw [List.mem_singleton.mp hc]
      rfl
    · simp at hc

theorem normalize_dotted (h : s.Plain) (hstar : '*' ∉ s.host) :
    normalizeExactValidationHost s.dotted = s.host := by
  apply WellFormed.normalize_host _ h.host_last
  rw [List.mem_append, not_or]
  refine ⟨hstar, ?_⟩
  split <;> decide

theorem isIpLiteral_dotted (h : s.Plain) (hliteral : isIpLiteral s.host = false) :
    isIpLiteral s.dotted = false := by
  cases hdot : s.dot with
  | false => rw [dotted, hdot, if_neg Bool.false_ne_true, List.append_nil, hliteral]
  | true =>
      apply isIpLiteral_dot h.isBracket_dotted h.colon_notMem_dotted
      rw [dotted, hdot, if_pos rfl, List.getLast?_concat]

theorem star_notMem_dotted (hstar : '*' ∉ s.host) : '*' ∉ s.dotted := by
  rw [dotted, List.mem_append, not_or]
  refine ⟨hstar, ?_⟩
  split <;> decide

theorem isWildcard_dotted (hstar : '*' ∉ s.host) : ¬isWildcard s.dotted = true := fun hwildcard =>
  star_notMem_dotted hstar ((List.isPrefixOf_iff_prefix.mp hwildcard).subset List.mem_cons_self)

theorem validateDomainPattern_eq (h : s.Plain) (hname : IsName s.host)
    (hread : extractValidationHost unicode raw = ⟨s.dotted, none⟩) :
    validateDomainPattern unicode raw = allowed s.host "exact_domain" := by
  have hstar := hname.star_notMem
  have hne : s.dotted ≠ [] := by simp [dotted, h.host_ne_nil]
  rw [validateDomainPattern, hread]
  dsimp only
  rw [if_neg hne, if_neg (by rw [h.isIpLiteral_dotted hname.literal]; exact Bool.false_ne_true),
    if_neg (isWildcard_dotted hstar), if_neg (star_notMem_dotted hstar), h.normalize_dotted hstar,
    if_neg h.host_ne_nil, if_neg (by rw [hname.literal]; exact Bool.false_ne_true),
    if_neg (not_not_intro hname.dot), if_neg (by rw [hname.dnsName]; exact Bool.false_ne_true)]

end Spelling.Plain

end OpenStarry.Sandbox
