import OpenStarry.Lib.Outcome
import OpenStarry.Lib.Substring

/-!
# Values of the profile dotenv

A quoted value is read by undoing one escape after the other over the whole text. An escaped text so
comes back unless a backslash of it stands directly before a letter that an escape uses.
-/

namespace OpenStarry.Recovery

open Lib Text

/-! ### Reading a value -/

/-- The index of the quote that closes a value, when its characters from `index` on are given. -/
def closingQuote (quote : Char) : Bool → Nat → Str → Option Nat
  | _, _, [] => none
  | escaped, index, character :: rest =>
      if quote = '"' ∧ escaped = true then closingQuote quote false (index + 1) rest
      else if quote = '"' ∧ character = '\\' then closingQuote quote true (index + 1) rest
      else if character = quote then some index
      else closingQuote quote escaped (index + 1) rest

def replacements : List (Str × Str) :=
  [(['\\', '\\'], ['\\']), (['\\', '"'], ['"']), (['\\', 'n'], ['\n']), (['\\', 'r'], ['\r']),
    (['\\', 't'], ['\t'])]

/-- `re.split(r"\s+#", value, maxsplit=1)[0]`. -/
def beforeComment : Str → Str
  | [] => []
  | character :: rest =>
      if isSpace character = true ∧ (lstrip rest).head? = some '#' then []
      else character :: beforeComment rest

section

variable {ε : Type} (errorType : (message stableCode : Str) → ε) (label stableCode : Str)

def quotedPart (quote : Char) (value : Str) : Except ε Str :=
  let unsafeError := errorType
    (label ++ " override in profile dotenv is not safely parseable".toList) stableCode
  match closingQuote quote false 1 (value.drop 1) with
  | none => .error unsafeError
  | some last =>
      let tail := strip (value.drop (last + 1))
      if tail ≠ [] ∧ tail.head? ≠ some '#' then .error unsafeError
      else .ok ((value.take last).drop 1)

def parseDotenvValue (raw : Str) : Except ε Str :=
  let value := strip raw
  match value.head? with
  | none => .ok []
  | some first => do
      let parsed ←
        if first = '\'' ∨ first = '"' then do
          let part ← quotedPart errorType label stableCode first value
          if first = '"' then
            pure (replacements.foldl (fun parsed r => replace r.1 r.2 parsed) part)
          else pure (replace ['\\', '\\'] ['\\'] (replace ['\\', '\''] ['\''] part))
        else pure (strip (beforeComment value))
      if '$' ∈ parsed then
        .error (errorType ("interpolated ".toList ++ label ++
          " override in profile dotenv is not safe offline".toList) stableCode)
      else pure parsed

end

/-! ### Escaping -/

def escape (codes : List (Char × Char)) (s : Str) : Str :=
  s.flatMap fun c =>
    match codes.lookup c with
    | some code => ['\\', code]
    | none => [c]

def dotenvCodes : List (Char × Char) :=
  [('\\', '\\'), ('"', '"'), ('\n', 'n'), ('\r', 'r'), ('\t', 't')]

/-- A double-quoted value for `s`. -/
def doubleQuoted (s : Str) : Str := '"' :: escape dotenvCodes s ++ ['"']

/-- A single-quoted value for `s`: only backslashes are doubled. -/
def singleQuoted (s : Str) : Str := '\'' :: escape [('\\', '\\')] s ++ ['\'']

def IsTrailing (trailing : Str) : Prop := ∀ c ∈ (lstrip trailing).head?, c = '#'

instance (trailing : Str) : Decidable (IsTrailing trailing) := by
  unfold IsTrailing; infer_instance

section

variable {codes : List (Char × Char)} {c code : Char} {s : Str}

theorem escape_cons_of_some (h : codes.lookup c = some code) (s : Str) :
    escape codes (c :: s) = '\\' :: code :: escape codes s := by
  simp [escape, h]

theorem escape_cons_of_none (h : codes.lookup c = none) (s : Str) :
    escape codes (c :: s) = c :: escape codes s := by
  simp [escape, h]

theorem mem_of_lookup (h : codes.lookup c = some code) : (c, code) ∈ codes := by
  obtain ⟨front, back, hsplit, -⟩ := List.lookup_eq_some_iff.mp h
  rw [hsplit]
  exact List.mem_append_right front List.mem_cons_self

theorem escape_nil_codes (s : Str) : escape [] s = s := by
  induction s with
  | nil => rfl
  | cons c rest ih => rw [escape_cons_of_none rfl, ih]

theorem head_escape (h : (escape codes s).head? = some c) : c = '\\' ∨ codes.lookup c = none := by
  cases s with
  | nil => simp [escape] at h
  | cons d rest =>
      cases hlookup : codes.lookup d with
      | some code =>
          rw [escape_cons_of_some hlookup, List.head?_cons, Option.some.injEq] at h
          exact .inl h.symm
      | none =>
          rw [escape_cons_of_none hlookup, List.head?_cons, Option.some.injEq] at h
          exact .inr (h ▸ hlookup)

theorem pair_prefix_cons_iff {a b : Char} :
    [a, b] <+: c :: s ↔ a = c ∧ s.head? = some b := by
  rw [List.cons_prefix_cons]
  refine and_congr_right fun _ => ?_
  cases s with
  | nil => simp
  | cons d rest => rw [List.cons_prefix_cons, List.head?_cons, Option.some.injEq]; simp [eq_comm]

theorem replace_pair (a b : Char) (new s : Str) :
    replace [a, b] new (a :: b :: s) = new ++ replace [a, b] new s :=
  replace_append_self (List.cons_ne_nil a [b]) new s

theorem replace_pair_cons {a b : Char} (new : Str) (h : a = c → s.head? ≠ some b) :
    replace [a, b] new (c :: s) = c :: replace [a, b] new s := by
  apply replace_cons_of_not
  intro hbegins
  exact h (pair_prefix_cons_iff.mp hbegins).1 (pair_prefix_cons_iff.mp hbegins).2

theorem replace_pair_cons_cons {a b e : Char} (new : Str) (h : e ≠ b) :
    replace [a, b] new (c :: e :: s) = c :: replace [a, b] new (e :: s) :=
  replace_pair_cons new fun _ hhead => h (Option.some.inj hhead)

/-! ### Undoing one escape -/

theorem replace_escape_self {d : Char} (hlabels : ∀ code ∈ codes, code.2 ≠ '\\' ∧ code.2 ≠ d)
    (hd : codes.lookup d = none) (s : Str) :
    replace ['\\', d] [d] (escape ((d, d) :: codes) s) = escape codes s := by
  induction s with
  | nil => rfl
  | cons c rest ih =>
      by_cases hcd : c = d
      · subst hcd
        rw [@escape_cons_of_some _ c c (by simp), replace_pair, ih, escape_cons_of_none hd,
          List.singleton_append]
      · have hskip : ((d, d) :: codes).lookup c = codes.lookup c := by
          rw [List.lookup_cons, beq_false_of_ne hcd]
        cases hlookup : codes.lookup c with
        | some code =>
            have hcode := hlabels (c, code) (mem_of_lookup hlookup)
            rw [escape_cons_of_some (hskip.trans hlookup), escape_cons_of_some hlookup,
              replace_pair_cons_cons _ hcode.2,
              replace_pair_cons _ fun h => absurd h.symm hcode.1, ih]
        | none =>
            rw [escape_cons_of_none (hskip.trans hlookup), escape_cons_of_none hlookup,
              replace_pair_cons _ ?_, ih]
            intro hc hhead
            obtain hslash | hnone := head_escape hhead
            · exact hcd (hc.symm.trans hslash.symm)
            · simp at hnone

theorem replace_escape_letter {d letter : Char}
    (hlabels : ∀ code ∈ codes, code.2 ≠ '\\' ∧ code.2 ≠ letter) (hd : codes.lookup d = none)
    (hbackslash : ((d, letter) :: codes).lookup '\\' = none) (hslash : letter ≠ '\\')
    (hletter : ((d, letter) :: codes).lookup letter = none) (s : Str) :
    replace ['\\', letter] [d] (escape ((d, letter) :: codes) s) =
      escape codes (replace ['\\', letter] [d] s) := by
  induction hlength : s.length using Nat.strong_induction_on generalizing s with
  | _ n ih =>
      cases s with
      | nil => rfl
      | cons c rest =>
          have hrest := ih rest.length (by rw [← hlength, List.length_cons]; omega) rest rfl
          by_cases hcd : c = d
          · subst hcd
            have hne : '\\' ≠ c := by
              intro h
              rw [h] at hbackslash
              simp at hbackslash
            rw [@escape_cons_of_some _ c letter (by simp), replace_pair, hrest,
              replace_pair_cons _ fun h => absurd h hne, escape_cons_of_none hd,
              List.singleton_append]
          · have hskip : ((d, letter) :: codes).lookup c = codes.lookup c := by
              rw [List.lookup_cons, beq_false_of_ne hcd]
            cases hlookup : codes.lookup c with
            | some code =>
                have hcode := hlabels (c, code) (mem_of_lookup hlookup)
                have hne : '\\' ≠ c := by
                  intro h
                  rw [h] at hbackslash
                  rw [hskip, hlookup] at hbackslash
                  simp at hbackslash
                rw [escape_cons_of_some (hskip.trans hlookup),
                  replace_pair_cons_cons _ hcode.2,
                  replace_pair_cons _ fun h => absurd h.symm hcode.1, hrest,
                  replace_pair_cons _ fun h => absurd h hne, escape_cons_of_some hlookup]
            | none =>
                rw [escape_cons_of_none (hskip.trans hlookup)]
                by_cases hpair : c = '\\' ∧ rest.head? = some letter
                · obtain ⟨hc, hhead⟩ := hpair
                  obtain ⟨tail, htail⟩ := List.head?_eq_some_iff.mp hhead
                  have hshorter := ih tail.length
                    (by rw [← hlength, htail, List.length_cons, List.length_cons]; omega) tail rfl
                  subst hc htail
                  rw [escape_cons_of_none hletter, replace_pair, replace_pair, hshorter,
                    List.singleton_append, List.singleton_append, escape_cons_of_none hd]
                · have hhead : '\\' = c → rest.head? ≠ some letter :=
                    fun hc hhead => hpair ⟨hc.symm, hhead⟩
                  have hescaped : '\\' = c →
                      (escape ((d, letter) :: codes) rest).head? ≠ some letter := by
                    intro hc hfirst
                    cases rest with
                    | nil => simp [escape] at hfirst
                    | cons e tail =>
                        cases he : ((d, letter) :: codes).lookup e with
                        | some code =>
                            rw [escape_cons_of_some he] at hfirst
                            exact hslash (Option.some.inj hfirst).symm
                        | none =>
                            rw [escape_cons_of_none he] at hfirst
                            exact hhead hc hfirst
                  rw [replace_pair_cons _ hescaped, replace_pair_cons _ hhead, hrest,
                    escape_cons_of_none hlookup]

/-! ### Finding the closing quote -/

theorem closingQuote_escape (hquote : (codes.lookup '"').isSome) (hslash : (codes.lookup '\\').isSome)
    (s tail : Str) (index : Nat) :
    closingQuote '"' false index (escape codes s ++ '"' :: tail) =
      some (index + (escape codes s).length) := by
  induction s generalizing index with
  | nil => simp [escape, closingQuote]
  | cons c rest ih =>
      cases hlookup : codes.lookup c with
      | some code =>
          rw [escape_cons_of_some hlookup, List.cons_append, List.cons_append, closingQuote,
            if_neg (by simp), if_pos ⟨rfl, rfl⟩, closingQuote, if_pos ⟨rfl, rfl⟩, ih,
            List.length_cons, List.length_cons]
          congr 1
          omega
      | none =>
          have hneQuote : c ≠ '"' := fun h => by simp [h ▸ hlookup] at hquote
          have hneSlash : c ≠ '\\' := fun h => by simp [h ▸ hlookup] at hslash
          rw [escape_cons_of_none hlookup, List.cons_append, closingQuote, if_neg (by simp),
            if_neg (by simp [hneSlash]), if_neg hneQuote, ih, List.length_cons]
          congr 1
          omega

theorem closingQuote_single {body : Str} (h : '\'' ∉ body) (tail : Str) (index : Nat) :
    closingQuote '\'' false index (body ++ '\'' :: tail) = some (index + body.length) := by
  induction body generalizing index with
  | nil => simp [closingQuote]
  | cons c rest ih =>
      rw [List.mem_cons, not_or] at h
      rw [List.cons_append, closingQuote, if_neg (by simp), if_neg (by simp),
        if_neg (Ne.symm h.1), ih h.2, List.length_cons]
      congr 1
      omega

end

/-! ### Reading a quoted value -/

section

variable {ε : Type} (errorType : (message stableCode : Str) → ε) (label stableCode : Str)
variable {quote : Char} {body trailing s : Str}

theorem IsTrailing.strip_head (h : IsTrailing trailing) :
    strip trailing = [] ∨ (strip trailing).head? = some '#' := by
  cases hrest : lstrip trailing with
  | nil =>
      rw [strip, hrest]
      exact .inl rfl
  | cons c note =>
      have hc : c = '#' := h c (by rw [hrest]; rfl)
      subst hc
      obtain ⟨rest, hstrip⟩ := strip_cons (show isSpace '#' = false by decide) note
      have heq : strip trailing = strip ('#' :: note) := by
        rw [strip, hrest, strip, lstrip, List.dropWhile_cons_of_neg (by decide)]
      rw [heq, hstrip]
      exact .inr rfl

theorem strip_quoted (hquote : isSpace quote = false) (body trailing : Str) :
    strip (quote :: body ++ quote :: trailing) = quote :: body ++ quote :: rstrip trailing := by
  have hleft : lstrip (quote :: body ++ quote :: trailing) = quote :: body ++ quote :: trailing := by
    rw [lstrip, List.cons_append, List.dropWhile_cons_of_neg (by simp [hquote])]
  rw [strip, hleft, rstrip_append_cons hquote]

theorem IsTrailing.rstrip (h : IsTrailing trailing) : IsTrailing (rstrip trailing) := by
  have hsplit : trailing = trailing.takeWhile isSpace ++ lstrip trailing :=
    (List.takeWhile_append_dropWhile).symm
  have hfront : ∀ c ∈ trailing.takeWhile isSpace, isSpace c = true :=
    fun c hc => List.mem_takeWhile_imp hc
  intro c hc
  cases hrest : lstrip trailing with
  | nil =>
      have hall : Text.rstrip trailing = [] := by
        rw [hsplit, hrest, List.append_nil, Text.rstrip, List.rdropWhile_eq_nil_iff]
        exact hfront
      rw [hall] at hc
      cases hc
  | cons d note =>
      have hd : d = '#' := h d (by rw [hrest]; rfl)
      subst hd
      rw [hsplit, hrest, rstrip_append_cons (by decide), lstrip,
        List.dropWhile_append_of_pos hfront, List.dropWhile_cons_of_neg (by decide)] at hc
      exact (Option.some.inj hc).symm

theorem quotedPart_eq {tail : Str}
    (hclosing : closingQuote quote false 1 (body ++ quote :: tail) = some (1 + body.length))
    (htail : IsTrailing tail) :
    quotedPart errorType label stableCode quote (quote :: body ++ quote :: tail) = .ok body := by
  have htake : ((quote :: body ++ quote :: tail).take (1 + body.length)).drop 1 = body := by
    rw [Nat.add_comm, List.cons_append, List.take_succ_cons, List.drop_succ_cons, List.drop_zero,
      List.take_left]
  have hdrop : (quote :: body ++ quote :: tail).drop (1 + body.length + 1) = tail := by
    rw [Nat.add_comm 1, List.cons_append, List.drop_succ_cons, ← List.drop_drop, List.drop_left,
      List.drop_one, List.tail_cons]
  rw [quotedPart, show (quote :: body ++ quote :: tail).drop 1 = body ++ quote :: tail from rfl,
    hclosing]
  simp only [hdrop, htake]
  rw [if_neg]
  intro hbad
  exact htail.strip_head.elim hbad.1 hbad.2

theorem mem_replace {a b c : Char} {new text : Str} (h : c ∈ replace [a, b] new text) :
    c ∈ text ∨ c ∈ new := by
  by_contra hnot
  rw [not_or] at hnot
  have hnone : ∀ (rest : Str) (skip : Nat), c ∉ rest → c ∉ replaceFrom [a, b] new skip rest := by
    intro rest
    induction rest with
    | nil => intro skip _; simp [replaceFrom]
    | cons d rest ih =>
        intro skip hrest
        rw [List.mem_cons, not_or] at hrest
        cases skip with
        | succ skip => exact ih skip hrest.2
        | zero =>
            rw [replaceFrom]
            split_ifs with hmatch
            · rw [List.mem_append, not_or]
              exact ⟨hnot.2, ih _ hrest.2⟩
            · rw [List.mem_cons, not_or]
              exact ⟨hrest.1, ih _ hrest.2⟩
  exact hnone text 0 hnot.1 h

theorem parse_doubleQuoted (hdollar : '$' ∉ s) (htrailing : IsTrailing trailing) :
    parseDotenvValue errorType label stableCode (doubleQuoted s ++ trailing) =
      .ok (replace ['\\', 't'] ['\t'] (replace ['\\', 'r'] ['\r'] (replace ['\\', 'n'] ['\n'] s))) := by
  have hvalue : strip (doubleQuoted s ++ trailing) =
      '"' :: escape dotenvCodes s ++ '"' :: rstrip trailing := by
    rw [doubleQuoted, List.append_assoc, List.singleton_append, strip_quoted (by decide)]
  have hclosing : closingQuote '"' false 1 (escape dotenvCodes s ++ '"' :: rstrip trailing) =
      some (1 + (escape dotenvCodes s).length) :=
    closingQuote_escape (by decide) (by decide) s (rstrip trailing) 1
  have hpart := quotedPart_eq errorType label stableCode hclosing htrailing.rstrip
  have hundone : replacements.foldl (fun parsed r => replace r.1 r.2 parsed) (escape dotenvCodes s) =
      replace ['\\', 't'] ['\t'] (replace ['\\', 'r'] ['\r'] (replace ['\\', 'n'] ['\n'] s)) := by
    simp only [replacements, List.foldl_cons, List.foldl_nil, dotenvCodes]
    rw [replace_escape_self (by decide) (by decide), replace_escape_self (by decide) (by decide),
      replace_escape_letter (by decide) (by decide) (by decide) (by decide) (by decide),
      replace_escape_letter (by decide) (by decide) (by decide) (by decide) (by decide),
      replace_escape_letter (by decide) (by decide) (by decide) (by decide) (by decide),
      escape_nil_codes]
  have hfree : '$' ∉ replace ['\\', 't'] ['\t']
      (replace ['\\', 'r'] ['\r'] (replace ['\\', 'n'] ['\n'] s)) := by
    intro hmem
    obtain hmem | hmem := mem_replace hmem
    · obtain hmem | hmem := mem_replace hmem
      · obtain hmem | hmem := mem_replace hmem
        · exact hdollar hmem
        · simp at hmem
      · simp at hmem
    · simp at hmem
  rw [parseDotenvValue, hvalue]
  simp only [List.cons_append, List.head?_cons] at hpart ⊢
  rw [if_pos (by simp), hpart]
  simp only [ok_bind, if_true, hundone]
  exact if_neg hfree

theorem parse_singleQuoted (hquote : '\'' ∉ s) (hdollar : '$' ∉ s) (htrailing : IsTrailing trailing) :
    parseDotenvValue errorType label stableCode (singleQuoted s ++ trailing) = .ok s := by
  have hvalue : strip (singleQuoted s ++ trailing) =
      '\'' :: escape [('\\', '\\')] s ++ '\'' :: rstrip trailing := by
    rw [singleQuoted, List.append_assoc, List.singleton_append, strip_quoted (by decide)]
  have hescaped : '\'' ∉ escape [('\\', '\\')] s := by
    intro hmem
    obtain ⟨c, hc, hin⟩ := List.mem_flatMap.mp hmem
    by_cases hslash : c = '\\'
    · subst hslash
      simp at hin
    · have hlookup : [('\\', '\\')].lookup c = none := by simp [hslash]
      rw [hlookup, List.mem_singleton] at hin
      exact hquote (hin ▸ hc)
  have hpart := quotedPart_eq errorType label stableCode
    (closingQuote_single hescaped (rstrip trailing) 1) htrailing.rstrip
  rw [parseDotenvValue, hvalue]
  simp only [List.cons_append, List.head?_cons] at hpart ⊢
  rw [if_pos (by simp), hpart]
  simp only [ok_bind, if_neg (show ¬ '\'' = '"' by decide)]
  rw [replace_eq_self (List.mem_cons_of_mem _ List.mem_cons_self) hescaped,
    replace_escape_self (by decide) (by decide), escape_nil_codes]
  exact if_neg hdollar

end

/-! ### The round trip -/

/-- No backslash of `s` stands directly before the letter of an escape. -/
def NoEscapeLike (s : Str) : Prop := ∀ letter ∈ ['n', 'r', 't'], ¬ ['\\', letter] <:+: s

theorem undone_eq_self_iff (s : Str) :
    replace ['\\', 't'] ['\t'] (replace ['\\', 'r'] ['\r'] (replace ['\\', 'n'] ['\n'] s)) = s ↔
      NoEscapeLike s := by
  constructor
  · intro hsame
    have hn := @length_replace_le ['\\', 'n'] ['\n'] (by decide) (by decide) s
    have hr := @length_replace_le ['\\', 'r'] ['\r'] (by decide) (by decide)
      (replace ['\\', 'n'] ['\n'] s)
    have ht := @length_replace_le ['\\', 't'] ['\t'] (by decide) (by decide)
      (replace ['\\', 'r'] ['\r'] (replace ['\\', 'n'] ['\n'] s))
    rw [hsame] at ht
    have hnoN : ¬ ['\\', 'n'] <:+: s :=
      @not_isInfix_of_length_replace _ _ ['\n'] (by decide) (by omega)
    rw [replace_of_not_isInfix hnoN] at hr ht hsame
    have hnoR : ¬ ['\\', 'r'] <:+: s :=
      @not_isInfix_of_length_replace _ _ ['\r'] (by decide) (by omega)
    rw [replace_of_not_isInfix hnoR] at hsame
    have hnoT : ¬ ['\\', 't'] <:+: s :=
      @not_isInfix_of_length_replace _ _ ['\t'] (by decide) (congrArg List.length hsame)
    simp [NoEscapeLike, hnoN, hnoR, hnoT]
  · intro hnone
    rw [replace_of_not_isInfix (hnone 'n' (by decide)), replace_of_not_isInfix (hnone 'r' (by decide)),
      replace_of_not_isInfix (hnone 't' (by decide))]

/-- Both spellings of a value are read back, unless a backslash of it stands directly before an
`n`, an `r` or a `t`. -/
theorem dotenv_value_round_trip_iff {ε : Type} (errorType : (message stableCode : Str) → ε)
    (label stableCode : Str) {s trailing : Str} (hdollar : '$' ∉ s)
    (htrailing : IsTrailing trailing) :
    (parseDotenvValue errorType label stableCode (doubleQuoted s ++ trailing) = .ok s ∧
      ('\'' ∉ s →
        parseDotenvValue errorType label stableCode (singleQuoted s ++ trailing) = .ok s)) ↔
      NoEscapeLike s := by
  rw [parse_doubleQuoted errorType label stableCode hdollar htrailing, Except.ok.injEq,
    undone_eq_self_iff]
  apply and_iff_left
  intro hquote
  exact parse_singleQuoted errorType label stableCode hquote hdollar htrailing

theorem dotenv_value_round_trip_iff_workspace :
    (parseDotenvValue Prod.mk "workspace".toList "unsafe_override".toList
        (doubleQuoted "/srv/agent \"a\"".toList ++ "  # moved".toList) =
          .ok "/srv/agent \"a\"".toList ∧
      ('\'' ∉ "/srv/agent \"a\"".toList →
        parseDotenvValue Prod.mk "workspace".toList "unsafe_override".toList
          (singleQuoted "/srv/agent \"a\"".toList ++ "  # moved".toList) =
            .ok "/srv/agent \"a\"".toList)) ↔
      NoEscapeLike "/srv/agent \"a\"".toList :=
  dotenv_value_round_trip_iff Prod.mk _ _ (by decide) (by decide)

/-- A path with a directory `new` comes back with a line feed in it. -/
theorem windows_path_is_read_with_line_feed :
    '$' ∉ "C:\\new".toList ∧ IsTrailing [] ∧
      parseDotenvValue Prod.mk "workspace".toList "unsafe_override".toList
        (doubleQuoted "C:\\new".toList ++ []) = .ok "C:\new".toList ∧
      "C:\new".toList ≠ "C:\\new".toList := by
  refine ⟨by decide, by decide, by decide, by decide⟩

end OpenStarry.Recovery
