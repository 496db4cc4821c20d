import OpenStarry.Sandbox.Spelling

/-!
# Hosts in URLs

With a scheme the location of the URL is what stands between the two slashes and the path, and its
host is the spelled one. Without a scheme a `://` further on makes no location: what stands before it
is neither a scheme nor empty.
-/

namespace OpenStarry.Sandbox

open Lib
open Lib.Text
open Lib.Text.Url

/-! ### Characters -/

theorem isSchemeChar_of_isControlOrSpace {c : Char} (h : isControlOrSpace c = true) :
    isSchemeChar c = false := by
  have hall : ∀ n < 33, isSchemeChar (Char.ofNat n) = false := by decide
  have hle : c.toNat < 33 := by
    rw [isControlOrSpace, decide_eq_true_eq] at h
    omega
  rw [← Char.ofNat_toNat c]
  exact hall _ hle

theorem isControlOrSpace_of_isUnsafe {c : Char} (h : isUnsafe c = true) :
    isControlOrSpace c = true := by
  simp only [isUnsafe, Bool.or_eq_true, decide_eq_true_eq] at h
  rcases h with (rfl | rfl) | rfl <;> decide

theorem filter_eq_self {text : Str} (h : ∀ c ∈ text, isControlOrSpace c = false) :
    text.filter (fun c => !isUnsafe c) = text := by
  rw [List.filter_eq_self]
  intro c hc
  rw [Bool.not_eq_true', Bool.eq_false_iff]
  intro hunsafe
  exact Bool.noConfusion ((isControlOrSpace_of_isUnsafe hunsafe).symm.trans (h c hc))

theorem isSchemeChar_of_isDelimiter {c : Char} (h : isDelimiter c = true) :
    isSchemeChar c = false := by
  simp only [isDelimiter, Bool.or_eq_true, decide_eq_true_eq] at h
  rcases h with (rfl | rfl) | rfl <;> decide

/-! ### Texts without a location -/

theorem splitNetloc_of_head {c : Char} {text : Str} (h : c ≠ '/') : splitNetloc (c :: text) = [] := by
  rw [splitNetloc]
  rintro rest heq
  exact h (List.cons.inj heq).1

theorem splitNetloc_dropScheme {front rest : Str} (hne : front ≠ [])
    (hfront : ∀ c ∈ front, isDelimiter c = false)
    (hrest : StopsAt (fun c => !isDelimiter c) rest)
    (hcolon : front.getLast? = some ':' → 2 ≤ front.count ':') :
    splitNetloc (dropScheme (front ++ rest)) = [] := by
  have hhead : ∀ {text : Str}, text ≠ [] → (∀ c ∈ text, isDelimiter c = false) →
      splitNetloc (text ++ rest) = [] := by
    intro text htext hchars
    obtain ⟨c, tail, rfl⟩ := List.exists_cons_of_ne_nil htext
    rw [List.cons_append]
    apply splitNetloc_of_head
    rintro rfl
    exact absurd (hchars '/' List.mem_cons_self) (by decide)
  rw [dropScheme]
  split
  · rename_i hscheme
    obtain ⟨hmem, -, hall⟩ := hscheme
    by_cases hmemFront : ':' ∈ front
    · obtain ⟨before, after, rfl, hbefore⟩ := List.eq_append_cons_of_mem hmemFront
      rw [List.append_assoc, List.cons_append, afterFirst_append hbefore]
      apply hhead
      · -- the first colon is not the last character
        rintro rfl
        have htwo := hcolon (by simp)
        rw [List.count_append, List.count_eq_zero.mpr hbefore] at htwo
        simp at htwo
      · exact fun c hc => hfront c (List.mem_append_right _ (List.mem_cons_of_mem _ hc))
    · -- a delimiter stands before the first colon
      obtain ⟨d, tail, rfl⟩ : ∃ d tail, rest = d :: tail := by
        apply List.exists_cons_of_ne_nil
        rintro rfl
        rw [List.append_nil] at hmem
        exact hmemFront hmem
      have hd : isDelimiter d = true := by
        rwa [stopsAt_cons, Bool.not_eq_false'] at hrest
      have hdcolon : (d != ':') = true := by
        rw [bne_iff_ne]
        rintro rfl
        exact absurd hd (by decide)
      have hmemBefore : d ∈ beforeFirst ':' (front ++ d :: tail) := by
        have hpass : ∀ c ∈ front, (c != ':') = true := fun c hc => by
          rw [bne_iff_ne]
          rintro rfl
          exact hmemFront hc
        rw [beforeFirst, List.takeWhile_append_of_pos hpass]
        apply List.mem_append_right
        rw [List.takeWhile_cons, if_pos hdcolon]
        exact List.mem_cons_self
      have hschemeChar := List.all_eq_true.mp hall d hmemBefore
      rw [isSchemeChar_of_isDelimiter hd] at hschemeChar
      exact absurd hschemeChar Bool.false_ne_true
  · exact hhead hne hfront

namespace Spelling

variable {s : Spelling}

/-- The user information with its `@`. -/
def front (s : Spelling) : Str := s.userInfo.elim [] (· ++ ['@'])

theorem authority_eq : s.authority = s.front ++ s.location := rfl

namespace WellFormed

theorem isControlOrSpace_location (h : s.WellFormed) {c : Char} (hc : c ∈ s.location) :
    isControlOrSpace c = false := by
  have hchar := h.isLocationChar_location hc
  simp only [isLocationChar, Bool.and_eq_true, Bool.not_eq_true'] at hchar
  exact hchar.1.1

theorem location_ne_nil (h : s.WellFormed) : s.location ≠ [] := by
  rw [location, name, shownHost]
  split
  · simp
  · simp [h.host_ne_nil]

theorem stopsAt_rest (h : s.WellFormed) :
    StopsAt (fun c => !isDelimiter c) (s.rest.filter fun c => !isUnsafe c) := by
  refine h.rest.filter _ fun c hc => ?_
  rw [Bool.not_eq_false'] at hc
  rw [Bool.not_eq_true', Bool.eq_false_iff]
  intro hunsafe
  have hcontrol := isSchemeChar_of_isControlOrSpace (isControlOrSpace_of_isUnsafe hunsafe)
  simp only [isUnsafe, isDelimiter, Bool.or_eq_true, decide_eq_true_eq] at hunsafe hc
  rcases hc with (rfl | rfl) | rfl <;> simp at hunsafe

theorem two_le_count_location (h : s.WellFormed) (hlast : s.location.getLast? = some ':') :
    2 ≤ s.location.count ':' := by
  cases hport : s.port with
  | some port =>
      have hlocation : s.location = s.name ++ ':' :: port := by
        rw [location, hport, Option.elim_some]
      rw [hlocation] at hlast ⊢
      have hne := h.port_ne_nil port hport
      rw [List.getLast?_append_of_ne_nil _ (List.cons_ne_nil _ _),
        List.getLast?_cons_of_ne_nil hne] at hlast
      exact two_le_count_of_foreign_tail (List.mem_of_getLast? hlast)
  | none =>
      have hlocation : s.location = s.name := by
        rw [location, hport, Option.elim_none, List.append_nil]
      rw [hlocation] at hlast ⊢
      have hle := count_host_le_name (s := s)
      rw [name] at hlast
      split at hlast
      · simp at hlast
      · rw [List.append_nil, shownHost] at hlast
        split at hlast
        · rw [List.getLast?_concat] at hlast
          exact absurd (Option.some.inj hlast) (by decide)
        · have htwo := h.two_le_count_host (List.mem_of_getLast? hlast)
          omega

theorem clean_authority (h : s.WellFormed) :
    ∃ front, (∀ c ∈ front, isDelimiter c = false) ∧
      clean (s.authority ++ s.rest) =
        (front ++ s.location) ++ s.rest.filter fun c => !isUnsafe c := by
  refine ⟨(s.front.dropWhile isControlOrSpace).filter fun c => !isUnsafe c, fun c hc => ?_, ?_⟩
  · have hmem := (List.dropWhile_suffix _).subset (List.mem_of_mem_filter hc)
    exact h.isDelimiter_authority c (by rw [authority_eq]; exact List.mem_append_left _ hmem)
  · have hstop : StopsAt isControlOrSpace (s.location ++ s.rest) := by
      obtain ⟨c, tail, hlocation⟩ := List.exists_cons_of_ne_nil h.location_ne_nil
      rw [hlocation, List.cons_append, stopsAt_cons]
      exact h.isControlOrSpace_location (hlocation ▸ List.mem_cons_self)
    rw [clean, authority_eq, List.append_assoc, hstop.dropWhile_append_left, List.filter_append,
      List.filter_append, filter_eq_self fun c => h.isControlOrSpace_location, List.append_assoc]

theorem splitNetloc_render (h : s.WellFormed) (hscheme : s.scheme = none) :
    splitNetloc (dropScheme (clean s.render)) = [] := by
  obtain ⟨front, hfront, hclean⟩ := h.clean_authority
  rw [render, hscheme, Option.elim_none, List.nil_append, hclean]
  have hne := h.location_ne_nil
  apply splitNetloc_dropScheme
  · simp [hne]
  · intro c hc
    rcases List.mem_append.mp hc with hc | hc
    · exact hfront c hc
    · exact h.isDelimiter_authority c (by rw [authority_eq]; exact List.mem_append_right _ hc)
  · exact h.stopsAt_rest
  · intro hlast
    rw [List.getLast?_append_of_ne_nil _ hne] at hlast
    rw [List.count_append]
    have htwo := h.two_le_count_location hlast
    omega

theorem splitNetloc_render_scheme (h : s.WellFormed) {scheme : Str} (hscheme : s.scheme = some scheme) :
    splitNetloc (dropScheme (clean s.render)) =
      (s.front.filter fun c => !isUnsafe c) ++ s.location := by
  have hchars := h.scheme scheme hscheme
  have hhead := h.scheme_head scheme hscheme
  have hcontrol : ∀ c ∈ scheme, isControlOrSpace c = false := fun c hc => by
    rw [Bool.eq_false_iff]
    intro hspace
    have := isSchemeChar_of_isControlOrSpace hspace
    rw [hchars c hc] at this
    exact Bool.noConfusion this
  have hcolon : ':' ∉ scheme := fun hmem => absurd (hchars _ hmem) (by decide)
  have hstop : StopsAt isControlOrSpace s.render := by
    rw [render, hscheme, Option.elim_some]
    cases scheme with
    | nil => simp at hhead
    | cons c tail => exact stopsAt_cons.mpr (hcontrol c List.mem_cons_self)
  have hclean : clean s.render = scheme ++ ':' :: '/' :: '/' ::
      (((s.front.filter fun c => !isUnsafe c) ++ s.location) ++
        s.rest.filter fun c => !isUnsafe c) := by
    rw [clean, hstop.dropWhile_eq, render, hscheme, Option.elim_some, List.filter_append,
      List.filter_append, filter_eq_self hcontrol, authority_eq, List.filter_append,
      List.filter_append, filter_eq_self fun c => h.isControlOrSpace_location]
    simp [isUnsafe]
  have hdelimiter : ∀ c ∈ (s.front.filter fun c => !isUnsafe c) ++ s.location,
      (!isDelimiter c) = true := by
    intro c hc
    rw [Bool.not_eq_true']
    apply h.isDelimiter_authority
    rw [authority_eq, List.mem_append]
    exact (List.mem_append.mp hc).imp_left List.mem_of_mem_filter
  rw [hclean, dropScheme, beforeFirst_append hcolon, if_pos, afterFirst_append hcolon, splitNetloc,
    h.stopsAt_rest.takeWhile_append hdelimiter]
  exact ⟨by simp, hhead, List.all_eq_true.mpr hchars⟩

end WellFormed

end Spelling

/-! ### Reading the location -/

theorem beforeFirst_append_afterFirst (c : Char) (text : Str) :
    beforeFirst c text ++ (if c ∈ text then c :: afterFirst c text else []) = text := by
  split
  · rename_i hmem
    obtain ⟨before, after, rfl, hbefore⟩ := List.eq_append_cons_of_mem hmem
    rw [beforeFirst_append hbefore, afterFirst_append hbefore]
  · rename_i hmem
    rw [beforeFirst_eq_self hmem, List.append_nil]

namespace Spelling.WellFormed

variable {s : Spelling}

theorem at_notMem_location (h : s.WellFormed) : '@' ∉ s.location := fun hmem => by
  have hchar := h.isLocationChar_location hmem
  exact absurd hchar (by decide)

theorem afterLast_location (h : s.WellFormed) :
    afterLast '@' ((s.front.filter fun c => !isUnsafe c) ++ s.location) = s.location := by
  cases hinfo : s.userInfo with
  | none =>
      rw [front, hinfo, Option.elim_none, List.filter_nil, List.nil_append]
      exact afterLast_eq_self h.at_notMem_location
  | some info =>
      have hfilter : (s.front.filter fun c => !isUnsafe c) =
          (info.filter fun c => !isUnsafe c) ++ ['@'] := by
        rw [front, hinfo, Option.elim_some, List.filter_append]
        rfl
      rw [hfilter, List.append_assoc, List.singleton_append]
      exact afterLast_append h.at_notMem_location

theorem name_eq (hbracketed : s.bracketed = false) :
    s.name = s.host ++ if s.dot then ['.'] else [] := by
  rw [name, shownHost, hbracketed, if_neg Bool.false_ne_true]

theorem name_infix_render : s.name <:+: s.render :=
  ⟨s.scheme.elim [] (· ++ "://".toList) ++ s.front, s.port.elim [] (':' :: ·) ++ s.rest, by
    rw [render, authority_eq, location]
    simp only [List.append_assoc]⟩

theorem hostname_eq (unicode : Unicode) {raw netloc : Str} (hlower : unicode.lower raw = s.render)
    (hhost : (hostinfo netloc).1 = s.name) : hostname unicode netloc = s.name := by
  have hpart : beforeFirst '%' s.name <:+: unicode.lower raw := by
    rw [hlower]
    exact (List.takeWhile_prefix _).isInfix.trans name_infix_render
  rw [hostname, hhost, unicode.lower_part raw _ hpart, beforeFirst_append_afterFirst]

theorem readAs_location (unicode : Unicode) (h : s.WellFormed) {raw netloc : Str}
    (hlower : unicode.lower raw = s.render) (hinfo : afterLast '@' netloc = s.location)
    (hbracket : '[' ∉ netloc) (hport : portFits netloc = true) :
    s.ReadAs ⟨hostname unicode netloc, none⟩ := by
  have hbracketLocation : '[' ∉ s.location := fun hmem =>
    hbracket ((List.rtakeWhile_suffix _ _).subset (hinfo ▸ hmem : '[' ∈ afterLast '@' netloc))
  have hbracketed : s.bracketed = false := by
    rw [Bool.eq_false_iff]
    intro htrue
    apply hbracketLocation
    rw [location, name, shownHost, htrue]
    simp
  have hparts : hostinfo netloc = (beforeFirst ':' s.location, afterFirst ':' s.location) := by
    rw [hostinfo, hinfo, if_neg hbracketLocation]
  by_cases hcolon : ':' ∈ s.host
  · -- what follows the first colon of an address is no port
    exfalso
    have htwo := h.two_le_count_host hcolon
    have hle := count_host_le_name (s := s)
    have hmem : ':' ∈ s.location := by
      rw [location, name_eq hbracketed]
      simp [hcolon]
    have hcount : 2 ≤ s.location.count ':' := by
      rw [location, List.count_append]
      omega
    obtain ⟨before, after, hsplit, hbefore⟩ := List.eq_append_cons_of_mem hmem
    rw [hsplit, List.count_append, List.count_eq_zero.mpr hbefore, List.count_cons_self] at hcount
    have hafter : ':' ∈ after := List.count_pos_iff.mp (by omega)
    rw [portFits, hparts, hsplit, afterFirst_append hbefore, Bool.or_eq_true, Bool.and_eq_true,
      List.all_eq_true, List.isEmpty_iff] at hport
    rcases hport with rfl | hport
    · simp at hafter
    · exact absurd (hport.1 _ hafter) (by decide)
  · have hcolonName : ':' ∉ s.name := by
      rw [name_eq hbracketed, List.mem_append, not_or]
      refine ⟨hcolon, ?_⟩
      split <;> decide
    have hhost : (hostinfo netloc).1 = s.name := by
      rw [hparts, location]
      cases s.port with
      | none => rw [Option.elim_none, List.append_nil, beforeFirst_eq_self hcolonName]
      | some port => rw [Option.elim_some, beforeFirst_append hcolonName]
    apply Spelling.ReadAs.host
    rw [hostname_eq unicode hlower hhost, name_eq hbracketed]

theorem readAs_extractFromUrl (unicode : Unicode) (h : s.WellFormed) {raw : Str}
    (hlower : unicode.lower raw = s.render) : s.ReadAs (extractFromUrl unicode s.render) := by
  have hempty : unicode.lower [] = [] :=
    unicode.lower_part raw [] (List.nil_infix)
  rw [extractFromUrl]
  cases hnetloc : netloc unicode s.render with
  | none => exact .error (Option.some_ne_none _)
  | some found =>
      have hfound : found = splitNetloc (dropScheme (clean s.render)) := by
        rw [netloc] at hnetloc
        split at hnetloc
        · exact (Option.some.inj hnetloc).symm
        · simp at hnetloc
      dsimp only
      split
      · exact .error (Option.some_ne_none _)
      · rename_i hport
        split
        · exact .error (Option.some_ne_none _)
        · rename_i hbrackets
          cases hscheme : s.scheme with
          | none =>
              rw [h.splitNetloc_render hscheme] at hfound
              subst hfound
              apply Spelling.ReadAs.empty
              simpa [hostname, hostinfo, afterLast, beforeFirst] using hempty
          | some scheme =>
              rw [h.splitNetloc_render_scheme hscheme] at hfound
              apply h.readAs_location unicode hlower
              · rw [hfound, h.afterLast_location]
              · exact fun hmem => hbrackets (Or.inl hmem)
              · simpa using hport

theorem readAs_extractValidationHost (unicode : Unicode) (h : s.WellFormed) {raw : Str}
    (hlower : unicode.lower (strip raw) = s.render) :
    s.ReadAs (extractValidationHost unicode raw) := by
  rw [extractValidationHost, hlower]
  split
  · exact .empty rfl
  · split
    · exact h.readAs_extractFromUrl unicode hlower
    · rename_i hfind
      apply h.readAs_extractBare
      rw [Option.eq_none_iff_forall_ne_some]
      intro scheme hscheme
      apply hfind
      rw [Option.isSome_iff_ne_none, Ne, find_eq_none_iff (by decide)]
      intro hnone
      apply hnone scheme.length
      rw [render, hscheme, Option.elim_some, OccursAt, List.append_assoc, List.drop_left]
      exact List.prefix_append _ _

end Spelling.WellFormed

end OpenStarry.Sandbox
