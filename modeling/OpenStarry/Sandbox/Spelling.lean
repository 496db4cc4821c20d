import OpenStarry.Sandbox.Network

/-!
# Ways to write a host

A host may stand bare or in brackets, with a scheme, user information, a dot at its end, a port and a
path, a query or a fragment. Whatever surrounds it, reading the text gives an error, a text no name
looks like, or the host itself.
-/

namespace OpenStarry.Sandbox

open Lib
open Lib.Text
open Lib.Text.Url (isDelimiter isSchemeChar isControlOrSpace isUnsafe)

/-- What stands around a host, and the host. -/
structure Spelling where
  scheme : Option Str := none
  userInfo : Option Str := none
  bracketed : Bool := false
  host : Str
  dot : Bool := false
  port : Option Str := none
  rest : Str := []

def isLocationChar (c : Char) : Bool := !isControlOrSpace c && !isDelimiter c && c != '@'

def isHostChar (c : Char) : Bool := isLocationChar c && !isBracket c

namespace Spelling

variable (s : Spelling)

def shownHost : Str := if s.bracketed then '[' :: s.host ++ [']'] else s.host

def name : Str := s.shownHost ++ if s.dot then ['.'] else []

def location : Str := s.name ++ s.port.elim [] (':' :: ·)

def authority : Str := s.userInfo.elim [] (· ++ ['@']) ++ s.location

def render : Str := s.scheme.elim [] (· ++ "://".toList) ++ (s.authority ++ s.rest)

structure WellFormed : Prop where
  scheme_head : ∀ scheme ∈ s.scheme, scheme.head?.any Char.isAlpha = true
  scheme : ∀ scheme ∈ s.scheme, ∀ c ∈ scheme, isSchemeChar c = true
  userInfo : ∀ info ∈ s.userInfo, ∀ c ∈ info, isDelimiter c = false
  host_ne_nil : s.host ≠ []
  host : ∀ c ∈ s.host, isHostChar c = true
  colon : ':' ∈ s.host → isIpv6Address s.host = true
  port_ne_nil : ∀ port ∈ s.port, port ≠ []
  port : ∀ port ∈ s.port, ∀ c ∈ port, isHostChar c = true
  rest : StopsAt (fun c => !isDelimiter c) s.rest

end Spelling

/-! ### Characters that no name has -/

def Foreign (value : Str) : Prop := ∃ c ∈ value, c ≠ '.' ∧ isDnsLabelChar c = false

theorem not_foreign_of_isValidDnsName {value : Str} (h : isValidDnsName value = true) :
    ¬Foreign value := by
  rintro ⟨c, hc, hdot, hchar⟩
  obtain ⟨label, hlabel, hmem⟩ := exists_piece (c := '.') hc hdot
  rw [isValidDnsName, Bool.and_eq_true, List.all_eq_true] at h
  have hdns := h.2 label hlabel
  simp only [isDnsLabel, Bool.and_eq_true, List.all_eq_true] at hdns
  rw [hdns.2 c hmem] at hchar
  exact Bool.noConfusion hchar

theorem foreign_normalize {value : Str} (h : Foreign value) :
    Foreign (normalizeExactValidationHost value) := by
  obtain ⟨c, hc, hdot, hchar⟩ := h
  rw [normalizeExactValidationHost]
  split
  · rename_i hlast
    have hsplit : value = value.dropLast ++ ['.'] :=
      (List.dropLast_append_getLast? '.' hlast.1).symm
    rw [hsplit, List.mem_append, List.mem_singleton] at hc
    exact ⟨c, hc.resolve_right hdot, hdot, hchar⟩
  · exact ⟨c, hc, hdot, hchar⟩

/-! ### Reading a bare host -/

/-- What reading the spelled host may come to: an error, nothing, a text that is no name, or the
host with its dot. -/
inductive Spelling.ReadAs (s : Spelling) (e : Extraction) : Prop
  | error (h : e.error ≠ none)
  | empty (h : e.host = [])
  | foreign (h : Foreign e.host)
  | host (h : e.host = s.host ++ if s.dot then ['.'] else [])

section

variable {s : Spelling} {host text : Str} {c : Char}

theorem readAs_extractBracketed (hhead : host.head? = some '[') :
    s.ReadAs (extractBracketed host) := by
  obtain ⟨rest, rfl⟩ := List.head?_eq_some_iff.mp hhead
  rw [extractBracketed]
  split
  · exact .error (Option.some_ne_none _)
  · have hforeign : Foreign (beforeFirst ']' ('[' :: rest) ++ [']']) :=
      ⟨']', by simp, by decide, by decide⟩
    dsimp only
    split
    · exact .foreign hforeign
    · split
      · exact .foreign hforeign
      · exact .error (Option.some_ne_none _)
    · exact .error (Option.some_ne_none _)

theorem mem_beforeFirst_of_isValidPort (hmem : c ∈ host) (hcolon : ':' ∈ host) (hne : c ≠ ':')
    (hdigit : c.isDigit = false) (hport : isValidPort (afterFirst ':' host) = true) :
    c ∈ beforeFirst ':' host := by
  obtain ⟨before, after, rfl, hbefore⟩ := List.eq_append_cons_of_mem hcolon
  rw [afterFirst_append hbefore] at hport
  rw [beforeFirst_append hbefore]
  rw [List.mem_append, List.mem_cons] at hmem
  rcases hmem with h | h | h
  · exact h
  · exact absurd h hne
  · simp only [isValidPort, Bool.and_eq_true, List.all_eq_true] at hport
    rw [hport.1.2 c h] at hdigit
    exact Bool.noConfusion hdigit

theorem readAs_extractBare_of_mem (hmem : c ∈ beforeFirst '/' text) (hne : c ≠ ':') (hdot : c ≠ '.')
    (hchar : isDnsLabelChar c = false) : s.ReadAs (extractBare text) := by
  have hdigit : c.isDigit = false := by
    simp only [isDnsLabelChar, Bool.or_eq_false_iff] at hchar
    exact hchar.1.2
  rw [extractBare]
  split
  · rename_i hhead
    exact readAs_extractBracketed hhead
  · split
    · rename_i hcount
      have hcolon : ':' ∈ beforeFirst '/' text := by
        apply List.count_pos_iff.mp
        omega
      split
      · rename_i hport
        exact .foreign ⟨c, mem_beforeFirst_of_isValidPort hmem hcolon hne hdigit hport, hdot, hchar⟩
      · exact .error (Option.some_ne_none _)
    · exact .foreign ⟨c, hmem, hdot, hchar⟩

theorem foreign_of_colon (h : ':' ∈ text) : Foreign text := ⟨':', h, by decide, by decide⟩

theorem two_le_count_of_foreign_tail {before after : Str} (h : ':' ∈ after) :
    2 ≤ (before ++ ':' :: after).count ':' := by
  have hafter := List.count_pos_iff.mpr h
  rw [List.count_append, List.count_cons_self]
  omega

end

namespace Spelling.WellFormed

variable {s : Spelling}

theorem isLocationChar_host (h : s.WellFormed) {c : Char} (hc : c ∈ s.host) :
    isLocationChar c = true := by
  have hhost := h.host c hc
  rw [isHostChar, Bool.and_eq_true] at hhost
  exact hhost.1

theorem isLocationChar_name (h : s.WellFormed) {c : Char} (hc : c ∈ s.name) :
    isLocationChar c = true := by
  rw [name, shownHost, List.mem_append] at hc
  rcases hc with hc | hc
  · split at hc
    · rw [List.mem_append, List.mem_cons, List.mem_singleton] at hc
      rcases hc with (rfl | hc) | rfl
      · decide
      · exact h.isLocationChar_host hc
      · decide
    · exact h.isLocationChar_host hc
  · split at hc
    · rw [List.mem_singleton.mp hc]
      decide
    · simp at hc

theorem isLocationChar_location (h : s.WellFormed) {c : Char} (hc : c ∈ s.location) :
    isLocationChar c = true := by
  rw [location, List.mem_append] at hc
  rcases hc with hc | hc
  · exact h.isLocationChar_name hc
  · cases hport : s.port with
    | none =>
        rw [hport] at hc
        simp at hc
    | some port =>
        rw [hport, Option.elim_some, List.mem_cons] at hc
        rcases hc with rfl | hc
        · decide
        · have hchar := h.port port hport c hc
          rw [isHostChar, Bool.and_eq_true] at hchar
          exact hchar.1

theorem isDelimiter_authority (h : s.WellFormed) : ∀ c ∈ s.authority, isDelimiter c = false := by
  intro c hc
  have hlocation : c ∈ s.location → isDelimiter c = false := fun hmem => by
    have hchar := h.isLocationChar_location hmem
    simp only [isLocationChar, Bool.and_eq_true, Bool.not_eq_true'] at hchar
    exact hchar.1.2
  rw [authority, List.mem_append] at hc
  rcases hc with hc | hc
  · cases hinfo : s.userInfo with
    | none =>
        rw [hinfo] at hc
        simp at hc
    | some info =>
        rw [hinfo, Option.elim_some, List.mem_append, List.mem_singleton] at hc
        rcases hc with hc | rfl
        · exact h.userInfo info hinfo c hc
        · decide
  · exact hlocation hc

theorem two_le_count_host (h : s.WellFormed) (hcolon : ':' ∈ s.host) : 2 ≤ s.host.count ':' :=
  two_le_count_of_isIpv6Address (h.colon hcolon)

theorem count_host_le_name : s.host.count ':' ≤ s.name.count ':' := by
  rw [name, shownHost, List.count_append]
  split
  · rw [List.count_append, List.count_cons]
    omega
  · omega

theorem readAs_extractBare_location (h : s.WellFormed) (hbracketed : s.bracketed = false)
    {text : Str} (hhost : beforeFirst '/' text = s.location) : s.ReadAs (extractBare text) := by
  have hname : s.name = s.host ++ if s.dot then ['.'] else [] := by
    rw [name, shownHost, hbracketed, if_neg Bool.false_ne_true]
  rw [extractBare, hhost]
  by_cases hhead : s.location.head? = some '['
  · rw [if_pos hhead]
    exact readAs_extractBracketed hhead
  rw [if_neg hhead]
  by_cases hcolon : ':' ∈ s.host
  · have hcount : s.location.count ':' ≠ 1 := by
      have htwo := h.two_le_count_host hcolon
      have hle := count_host_le_name (s := s)
      rw [location, List.count_append]
      omega
    rw [if_neg hcount]
    refine .foreign (foreign_of_colon ?_)
    rw [location, hname]
    simp [hcolon]
  have hcolonName : ':' ∉ s.name := by
    rw [hname, List.mem_append, not_or]
    refine ⟨hcolon, ?_⟩
    split <;> decide
  cases hport : s.port with
  | none =>
      have hlocation : s.location = s.name := by
        rw [location, hport, Option.elim_none, List.append_nil]
      have hcount : s.location.count ':' ≠ 1 := by
        rw [hlocation, List.count_eq_zero.mpr hcolonName]
        decide
      rw [if_neg hcount]
      exact .host (by rw [hlocation, hname])
  | some port =>
      have hlocation : s.location = s.name ++ ':' :: port := by
        rw [location, hport, Option.elim_some]
      rw [hlocation]
      split
      · rw [beforeFirst_append hcolonName]
        split
        · exact .host hname
        · exact .error (Option.some_ne_none _)
      · exact .foreign (foreign_of_colon (by simp))

theorem readAs_extractBare (h : s.WellFormed) (hscheme : s.scheme = none) :
    s.ReadAs (extractBare s.render) := by
  have hrender : s.render = s.authority ++ s.rest := by
    rw [render, hscheme, Option.elim_none, List.nil_append]
  have hslash : ∀ c ∈ s.authority, (c != '/') = true := fun c hc => by
    rw [bne_iff_ne]
    rintro rfl
    exact absurd (h.isDelimiter_authority _ hc) (by decide)
  have hhost : beforeFirst '/' s.render = s.authority ++ beforeFirst '/' s.rest := by
    rw [hrender, beforeFirst, List.takeWhile_append_of_pos hslash]
    rfl
  cases hrest : beforeFirst '/' s.rest with
  | cons d tail =>
      -- a query or a fragment without a path
      have hne : d ≠ '/' := by
        have hmem : d ∈ beforeFirst '/' s.rest := hrest ▸ List.mem_cons_self
        have hpass := List.mem_takeWhile_imp hmem
        rwa [bne_iff_ne] at hpass
      have hdelimiter : isDelimiter d = true := by
        obtain ⟨after, hafter⟩ := List.takeWhile_prefix (l := s.rest) (· != '/')
        rw [beforeFirst] at hrest
        rw [hrest, List.cons_append] at hafter
        have hstop := h.rest
        rw [← hafter, stopsAt_cons, Bool.not_eq_false'] at hstop
        exact hstop
      have hmem : d ∈ beforeFirst '/' s.render := by
        rw [hhost, hrest]
        simp
      simp only [isDelimiter, Bool.or_eq_true, decide_eq_true_eq] at hdelimiter
      rcases hdelimiter with (rfl | rfl) | rfl
      · exact absurd rfl hne
      · exact readAs_extractBare_of_mem hmem (by decide) (by decide) (by decide)
      · exact readAs_extractBare_of_mem hmem (by decide) (by decide) (by decide)
  | nil =>
      rw [hrest, List.append_nil] at hhost
      cases hinfo : s.userInfo with
      | some info =>
          have hmem : '@' ∈ beforeFirst '/' s.render := by
            rw [hhost, authority, hinfo]
            simp
          exact readAs_extractBare_of_mem hmem (by decide) (by decide) (by decide)
      | none =>
          have hauthority : s.authority = s.location := by
            rw [authority, hinfo, Option.elim_none, List.nil_append]
          cases hbracketed : s.bracketed with
          | true =>
              have hmem : '[' ∈ beforeFirst '/' s.render := by
                rw [hhost, hauthority, location, name, shownHost, hbracketed]
                simp
              exact readAs_extractBare_of_mem hmem (by decide) (by decide) (by decide)
          | false =>
              exact h.readAs_extractBare_location hbracketed (hhost.trans hauthority)

end Spelling.WellFormed

end OpenStarry.Sandbox
