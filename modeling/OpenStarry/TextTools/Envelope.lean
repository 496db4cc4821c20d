import OpenStarry.TextTools.Dsml

/-!
# The grammar of DSML envelopes

An envelope is a list of calls, each a list of parameters, written with its tags and any blank space
between them. The parser takes exactly the texts that are written so, and gives back the calls they
are written from.
-/

namespace OpenStarry.TextTools

open Lib Lib.Text

variable (normal : Number → Number)

def Blank (space : Str) : Prop := ∀ c ∈ space, isAsciiWhitespace c = true

instance (space : Str) : Decidable (Blank space) :=
  inferInstanceAs (Decidable (∀ c ∈ space, isAsciiWhitespace c = true))

/-- A name that a tag can carry. -/
structure TagName where
  text : Str
  ne : text ≠ []
  plain : '"' ∉ text

structure Parameter where
  space : Str
  name : TagName
  isString : Bool
  raw : Str
  value : Json
  blank : Blank space
  raw_plain : ¬ parameterClose <:+: raw
  reads : parameterValue normal isString raw = some value

structure Invoke where
  space : Str
  name : TagName
  parameters : List (Parameter normal)
  closeSpace : Str
  blank : Blank space
  closeBlank : Blank closeSpace
  distinct : (parameters.map fun p => p.name.text).Nodup

structure Envelope where
  invokes : List (Invoke normal)
  closeSpace : Str
  ne : invokes ≠ []
  bounded : invokes.length ≤ defaultMaxToolCalls
  closeBlank : Blank closeSpace

variable {normal}

/-! ### How an envelope is written -/

def Parameter.opening (p : Parameter normal) : Str :=
  parameterHead ++ p.name.text ++ parameterTail p.isString

def Parameter.render (p : Parameter normal) : Str :=
  p.space ++ p.opening ++ p.raw ++ parameterClose

def Parameter.argument (p : Parameter normal) : Str × Json := (p.name.text, p.value)

def Invoke.opening (v : Invoke normal) : Str := invokeHead ++ v.name.text ++ invokeTail

def Invoke.render (v : Invoke normal) : Str :=
  v.space ++ v.opening ++ v.parameters.flatMap Parameter.render ++ v.closeSpace ++ invokeClose

def Invoke.call (v : Invoke normal) : DsmlCandidateCall where
  toolName := v.name.text
  arguments := v.parameters.map Parameter.argument

def Envelope.body (env : Envelope normal) : Str :=
  env.invokes.flatMap Invoke.render ++ env.closeSpace ++ toolCallsClose

def Envelope.render (env : Envelope normal) : Str := toolCallsOpen ++ env.body

def Envelope.calls (env : Envelope normal) : List DsmlCandidateCall := env.invokes.map Invoke.call

/-! ### Tags -/

theorem skip_append {space : Str} (h : Blank space) (rest : Str) :
    skipDsmlWhitespace (space ++ '<' :: rest) = '<' :: rest := by
  rw [skipDsmlWhitespace, List.dropWhile_append_of_pos h]
  rfl

theorem skip_eq_nil {space : Str} (h : Blank space) : skipDsmlWhitespace space = [] := by
  rw [skipDsmlWhitespace, List.dropWhile_eq_nil_iff]
  exact h

theorem exists_blank (text : Str) :
    ∃ space, Blank space ∧ text = space ++ skipDsmlWhitespace text :=
  ⟨text.takeWhile isAsciiWhitespace, fun _ hc => List.mem_takeWhile_imp hc,
    List.takeWhile_append_dropWhile.symm⟩

theorem openTag_append {head : Str} (name : TagName) (rest : Str) :
    openTag head (head ++ name.text ++ '"' :: rest) = some (name.text, '"' :: rest) := by
  have hname : (name.text ++ '"' :: rest).takeWhile (· ≠ '"') = name.text := by
    rw [List.takeWhile_append_of_pos]
    · simp
    · intro c hc
      exact decide_eq_true fun heq => name.plain (heq ▸ hc)
  rw [openTag, if_pos (by rw [List.append_assoc]; exact List.prefix_append _ _), List.append_assoc,
    List.drop_left]
  dsimp only
  rw [hname, if_neg name.ne, List.drop_left]

theorem exists_of_openTag {head text rest : Str} {name : Str}
    (h : openTag head text = some (name, rest)) :
    ∃ tagName : TagName, tagName.text = name ∧ text = head ++ name ++ rest := by
  unfold openTag at h
  split_ifs at h with hhead
  obtain ⟨after, rfl⟩ := hhead
  rw [List.drop_left] at h
  dsimp only at h
  split_ifs at h with hname
  cases h
  refine ⟨⟨after.takeWhile (· ≠ '"'), hname, fun hmem => ?_⟩, rfl, ?_⟩
  · have hquote := List.mem_takeWhile_imp hmem
    simp at hquote
  · rw [List.append_assoc, drop_length_takeWhile, List.takeWhile_append_dropWhile]

theorem invokeOpen_append (name : TagName) (rest : Str) :
    invokeOpen (invokeHead ++ name.text ++ invokeTail ++ rest) = some (name.text, rest) := by
  have htail : invokeTail ++ rest = '"' :: '>' :: rest := rfl
  rw [invokeOpen, List.append_assoc, htail, openTag_append, Option.bind_some]
  dsimp only
  rw [← htail, if_pos (List.prefix_append _ _), List.drop_left]

theorem parameterTail_append (isString : Bool) (rest : Str) :
    ∃ back, parameterTail isString ++ rest = '"' :: back := by
  cases isString with
  | true => exact ⟨_, rfl⟩
  | false => exact ⟨_, rfl⟩

theorem not_true_prefix_false (rest : Str) :
    ¬ parameterTail true <+: parameterTail false ++ rest := by
  have htrue : parameterTail true = "\" string=\"".toList ++ "true\">".toList := rfl
  have hfalse : parameterTail false ++ rest =
      "\" string=\"".toList ++ ("false\">".toList ++ rest) := rfl
  rw [htrue, hfalse, List.prefix_append_right_inj]
  intro h
  exact absurd (List.cons_prefix_cons.1 h).1 (by decide)

theorem parameterOpen_append (name : TagName) (isString : Bool) (rest : Str) :
    parameterOpen (parameterHead ++ name.text ++ parameterTail isString ++ rest) =
      some (name.text, isString, rest) := by
  obtain ⟨back, hback⟩ := parameterTail_append isString rest
  rw [parameterOpen, List.append_assoc, hback, openTag_append, Option.bind_some]
  dsimp only
  rw [← hback]
  cases isString with
  | true => rw [if_pos (List.prefix_append _ _), List.drop_left]
  | false =>
      rw [if_neg (not_true_prefix_false rest), if_pos (List.prefix_append _ _), List.drop_left]

theorem exists_of_invokeOpen {text rest name : Str} (h : invokeOpen text = some (name, rest)) :
    ∃ tagName : TagName, tagName.text = name ∧ text = invokeHead ++ name ++ invokeTail ++ rest := by
  obtain ⟨⟨name', after⟩, hopen, htail⟩ := Option.bind_eq_some_iff.1 h
  obtain ⟨tagName, hname, rfl⟩ := exists_of_openTag hopen
  split_ifs at htail with hprefix
  obtain ⟨back, rfl⟩ := hprefix
  cases htail
  exact ⟨tagName, hname, by rw [List.drop_left, ← List.append_assoc]⟩

theorem exists_of_parameterOpen {text rest name : Str} {isString : Bool}
    (h : parameterOpen text = some (name, isString, rest)) :
    ∃ tagName : TagName, tagName.text = name ∧
      text = parameterHead ++ name ++ parameterTail isString ++ rest := by
  obtain ⟨⟨name', after⟩, hopen, htail⟩ := Option.bind_eq_some_iff.1 h
  obtain ⟨tagName, hname, rfl⟩ := exists_of_openTag hopen
  split_ifs at htail with htrue hfalse
  · obtain ⟨back, rfl⟩ := htrue
    cases htail
    exact ⟨tagName, hname, by rw [List.drop_left, ← List.append_assoc]⟩
  · obtain ⟨back, rfl⟩ := hfalse
    cases htail
    exact ⟨tagName, hname, by rw [List.drop_left, ← List.append_assoc]⟩

/-! ### The close of a parameter

The `<` of the tag stands nowhere else in it, so it is found right behind a value without it. -/

theorem not_occursAt_of_lt {raw rest : Str} (hraw : ¬ parameterClose <:+: raw) {j : Nat}
    (hj : j < raw.length) : ¬ OccursAt parameterClose (raw ++ parameterClose ++ rest) j := by
  intro h
  have hclose : parameterClose = '<' :: parameterClose.tail := rfl
  rw [OccursAt, List.append_assoc, List.drop_append_of_le_length (Nat.le_of_lt hj)] at h
  cases List.prefix_or_prefix_of_prefix h (List.prefix_append (raw.drop j) _) with
  | inl hin => exact hraw (hin.isInfix.trans (List.drop_suffix j raw).isInfix)
  | inr hin =>
      obtain ⟨back, hback⟩ := hin
      nth_rewrite 1 [← hback] at h
      rw [List.prefix_append_right_inj] at h
      have hne : raw.drop j ≠ [] := by
        intro hnil
        have hlength := congrArg List.length hnil
        rw [List.length_drop, List.length_nil] at hlength
        omega
      obtain ⟨c, front, hfront⟩ := List.exists_cons_of_ne_nil hne
      cases back with
      | nil =>
          rw [List.append_nil] at hback
          apply hraw
          rw [← hback]
          exact (List.drop_suffix j raw).isInfix
      | cons d back =>
          -- the tag goes on with its own first character
          rw [hclose, List.cons_append] at h
          have hd := (List.cons_prefix_cons.1 h).1
          have hmem : '<' ∈ parameterClose.tail := by
            rw [← hback, hfront, hd]
            simp
          exact absurd hmem (by decide)

theorem find_parameterClose {raw : Str} (hraw : ¬ parameterClose <:+: raw) (rest : Str) :
    find parameterClose (raw ++ parameterClose ++ rest) = some raw.length := by
  rw [find_eq_some_iff (by decide)]
  constructor
  · rw [OccursAt, List.append_assoc, List.drop_left]
    exact List.prefix_append _ _
  · intro j hj
    exact not_occursAt_of_lt hraw hj

theorem exists_of_find {rest : Str} {offset : Nat} (h : find parameterClose rest = some offset) :
    ¬ parameterClose <:+: rest.take offset ∧
      rest = rest.take offset ++ parameterClose ++ rest.drop (offset + parameterClose.length) := by
  obtain ⟨hoccurs, hfirst⟩ := (find_eq_some_iff (by decide)).1 h
  constructor
  · rintro ⟨front, back, heq⟩
    have hlength := congrArg List.length heq
    rw [List.length_append, List.length_append, List.length_take] at hlength
    have hpos : 0 < parameterClose.length := by decide
    apply hfirst front.length (by omega)
    rw [OccursAt, ← List.take_append_drop offset rest, ← heq, List.append_assoc, List.append_assoc,
      List.drop_left]
    exact List.prefix_append _ _
  · rw [List.append_assoc, ← hoccurs.drop_eq, List.take_append_drop]

/-! ### Parameters -/

section

variable {arguments : Dict} {fuel : Nat} {rest : Str}

theorem not_invokeClose_prefix (rest : Str) : ¬ invokeClose <+: parameterHead ++ rest := by
  intro h
  exact absurd (List.cons_prefix_cons.1 (List.cons_prefix_cons.1 h).2).1 (by decide)

theorem parseParameters_close {space : Str} (h : Blank space) :
    parseParameters normal (fuel + 1) (space ++ invokeClose ++ rest) arguments =
      .ok (arguments, rest) := by
  have hskip : skipDsmlWhitespace (space ++ invokeClose ++ rest) = invokeClose ++ rest := by
    rw [List.append_assoc]
    exact skip_append h _
  rw [parseParameters, hskip, if_pos (List.prefix_append _ _), List.drop_left]

theorem parseParameters_parameter (p : Parameter normal)
    (hnew : arguments.lookup p.name.text = none) :
    parseParameters normal (fuel + 1) (p.render ++ rest) arguments =
      parseParameters normal fuel rest (arguments ++ [p.argument]) := by
  have hrender : p.render ++ rest = p.space ++ (p.opening ++ (p.raw ++ parameterClose ++ rest)) := by
    simp [Parameter.render]
  have hskip : skipDsmlWhitespace (p.render ++ rest) =
      p.opening ++ (p.raw ++ parameterClose ++ rest) := by
    rw [hrender]
    exact skip_append p.blank _
  have hclose : ¬ invokeClose <+: p.opening ++ (p.raw ++ parameterClose ++ rest) := by
    rw [Parameter.opening, List.append_assoc, List.append_assoc]
    exact not_invokeClose_prefix _
  have hopen : parameterOpen (p.opening ++ (p.raw ++ parameterClose ++ rest)) =
      some (p.name.text, p.isString, p.raw ++ parameterClose ++ rest) :=
    parameterOpen_append p.name p.isString _
  rw [parseParameters, hskip, if_neg hclose, hopen]
  dsimp only
  rw [hnew, Option.isSome_none, if_neg (by simp), find_parameterClose p.raw_plain]
  dsimp only
  have htake : (p.raw ++ parameterClose ++ rest).take p.raw.length = p.raw := by
    rw [List.append_assoc, List.take_left]
  have hdrop : (p.raw ++ parameterClose ++ rest).drop (p.raw.length + parameterClose.length) =
      rest := List.drop_left' (by rw [List.length_append])
  rw [htake, p.reads, hdrop]
  rfl

theorem length_le_flatMap_render (params : List (Parameter normal)) :
    params.length ≤ (params.flatMap Parameter.render).length := by
  induction params with
  | nil => exact Nat.le_refl 0
  | cons p params ih =>
      have hpos : 0 < parameterClose.length := by decide
      rw [List.flatMap_cons, List.length_cons, List.length_append, Parameter.render,
        List.length_append]
      omega

theorem lookup_argument_eq_none {p : Parameter normal} {params : List (Parameter normal)}
    (hdistinct : p.name.text ∉ params.map fun p => p.name.text)
    (hnew : ∀ q ∈ params, arguments.lookup q.name.text = none) :
    ∀ q ∈ params, (arguments ++ [p.argument]).lookup q.name.text = none := by
  intro q hq
  have hne : q.name.text ≠ p.name.text :=
    fun heq => hdistinct (heq ▸ List.mem_map_of_mem (f := fun p => p.name.text) hq)
  rw [List.lookup_append, hnew q hq, Option.none_or]
  simp [Parameter.argument, List.lookup_cons, beq_false_of_ne hne]

theorem parseParameters_render {params : List (Parameter normal)}
    (hdistinct : (params.map fun p => p.name.text).Nodup) :
    ∀ {arguments : Dict} {fuel : Nat}, (∀ p ∈ params, arguments.lookup p.name.text = none) →
      parseParameters normal (params.length + fuel) (params.flatMap Parameter.render ++ rest)
          arguments =
        parseParameters normal fuel rest (arguments ++ params.map Parameter.argument) := by
  induction params with
  | nil =>
      intro arguments fuel _
      simp
  | cons p params ih =>
      intro arguments fuel hnew
      rw [List.map_cons, List.nodup_cons] at hdistinct
      have hfuel : (p :: params).length + fuel = params.length + fuel + 1 := by
        rw [List.length_cons]
        omega
      rw [hfuel, List.flatMap_cons, List.append_assoc,
        parseParameters_parameter p (hnew p List.mem_cons_self), ih hdistinct.2]
      · rw [List.map_cons, List.append_assoc]
        rfl
      · exact lookup_argument_eq_none hdistinct.1 fun q hq => hnew q (List.mem_cons_of_mem p hq)

theorem exists_of_parseParameters :
    ∀ {fuel : Nat} {text rest : Str} {arguments arguments' : Dict},
      parseParameters normal fuel text arguments = .ok (arguments', rest) →
      ∃ (params : List (Parameter normal)) (space : Str), Blank space ∧
        text = params.flatMap Parameter.render ++ (space ++ invokeClose ++ rest) ∧
        arguments' = arguments ++ params.map Parameter.argument ∧
        (params.map fun p => p.name.text).Nodup ∧
        ∀ p ∈ params, arguments.lookup p.name.text = none := by
  intro fuel
  induction fuel with
  | zero =>
      intro text rest arguments arguments' h
      cases h
  | succ fuel ih =>
      intro text rest arguments arguments' h
      obtain ⟨space, hspace, htext⟩ := exists_blank text
      rw [parseParameters] at h
      generalize skipDsmlWhitespace text = body at h htext
      subst htext
      by_cases hclose : invokeClose <+: body
      · rw [if_pos hclose] at h
        obtain ⟨after, rfl⟩ := hclose
        rw [List.drop_left] at h
        cases h
        refine ⟨[], space, hspace, ?_, ?_, List.nodup_nil, by simp⟩
        · simp
        · simp
      rw [if_neg hclose] at h
      split at h
      next => cases h
      next name isString after hopen =>
        obtain ⟨tagName, rfl, rfl⟩ := exists_of_parameterOpen hopen
        split_ifs at h with hseen
        split at h
        next => cases h
        next offset hfind =>
          obtain ⟨hraw, hsplit⟩ := exists_of_find hfind
          split at h
          next => cases h
          next value hvalue =>
            obtain ⟨params, closeSpace, hblank, hafter, harguments, hdistinct, hnew⟩ := ih h
            have hfirst : arguments.lookup tagName.text = none :=
              Option.not_isSome_iff_eq_none.1 hseen
            refine ⟨⟨space, tagName, isString, after.take offset, value, hspace, hraw, hvalue⟩ ::
              params, closeSpace, hblank, ?_, ?_, ?_, ?_⟩
            · rw [List.flatMap_cons, List.append_assoc _ (params.flatMap _), ← hafter]
              conv_lhs => rw [hsplit]
              simp [Parameter.render, Parameter.opening]
            · rw [harguments, List.map_cons, List.append_assoc]
              rfl
            · rw [List.map_cons, List.nodup_cons]
              refine ⟨?_, hdistinct⟩
              intro hmem
              obtain ⟨q, hq, hname⟩ := List.mem_map.1 hmem
              have hlookup := hnew q hq
              rw [hname, List.lookup_append, hfirst, Option.none_or] at hlookup
              simp at hlookup
            · intro q hq
              cases List.mem_cons.1 hq with
              | inl heq =>
                  rw [heq]
                  exact hfirst
              | inr hq =>
                  have hlookup := hnew q hq
                  rw [List.lookup_append, Option.or_eq_none_iff] at hlookup
                  exact hlookup.1

end

/-! ### Calls -/

section

variable {calls : List DsmlCandidateCall} {fuel : Nat} {rest : Str}

theorem not_toolCallsClose_prefix (rest : Str) : ¬ toolCallsClose <+: invokeHead ++ rest := by
  intro h
  exact absurd (List.cons_prefix_cons.1 (List.cons_prefix_cons.1 h).2).1 (by decide)

theorem parseCalls_close {space trailing : Str} (h : Blank space) (htrailing : Blank trailing)
    (hcalls : calls ≠ []) :
    parseCalls normal (fuel + 1) (space ++ toolCallsClose ++ trailing) calls =
      .ok (calls, trailing) := by
  have hskip : skipDsmlWhitespace (space ++ toolCallsClose ++ trailing) =
      toolCallsClose ++ trailing := by
    rw [List.append_assoc]
    exact skip_append h _
  have hall : trailing.all isAsciiWhitespace = true := List.all_eq_true.2 htrailing
  rw [parseCalls, hskip, if_pos (List.prefix_append _ _), List.drop_left]
  dsimp only
  rw [hall, if_neg (by simp [hcalls])]

theorem parseCalls_invoke (v : Invoke normal) (hfew : calls.length < defaultMaxToolCalls) :
    parseCalls normal (fuel + 1) (v.render ++ rest) calls =
      parseCalls normal fuel rest (calls ++ [v.call]) := by
  generalize hparams : v.parameters.flatMap Parameter.render ++
    (v.closeSpace ++ invokeClose ++ rest) = body
  have hskip : skipDsmlWhitespace (v.render ++ rest) = v.opening ++ body := by
    have hrender : v.render ++ rest = v.space ++ (v.opening ++ body) := by
      simp [Invoke.render, ← hparams]
    rw [hrender]
    exact skip_append v.blank _
  have hclose : ¬ toolCallsClose <+: v.opening ++ body := by
    rw [Invoke.opening, List.append_assoc, List.append_assoc]
    exact not_toolCallsClose_prefix _
  have hopen : invokeOpen (v.opening ++ body) = some (v.name.text, body) :=
    invokeOpen_append v.name body
  have hlength : v.parameters.length ≤ body.length := by
    rw [← hparams, List.length_append]
    exact Nat.le_add_right_of_le (length_le_flatMap_render v.parameters)
  have hread : parseParameters normal (body.length + 1) body [] =
      .ok (v.parameters.map Parameter.argument, rest) := by
    have hfuel : body.length + 1 = v.parameters.length + (body.length - v.parameters.length + 1) := by
      omega
    rw [hfuel]
    conv_lhs => rw [← hparams]
    rw [parseParameters_render v.distinct (by simp), parseParameters_close v.closeBlank,
      List.nil_append]
  rw [parseCalls, hskip, if_neg hclose, hopen]
  dsimp only
  rw [hread]
  dsimp only
  rw [if_neg (Nat.not_le.2 hfew)]
  rfl

theorem parseCalls_render {invokes : List (Invoke normal)} :
    ∀ {calls : List DsmlCandidateCall} {fuel : Nat},
      calls.length + invokes.length ≤ defaultMaxToolCalls →
      parseCalls normal (invokes.length + fuel) (invokes.flatMap Invoke.render ++ rest) calls =
        parseCalls normal fuel rest (calls ++ invokes.map Invoke.call) := by
  induction invokes with
  | nil =>
      intro calls fuel _
      simp
  | cons v invokes ih =>
      intro calls fuel hfew
      rw [List.length_cons] at hfew
      have hfuel : (v :: invokes).length + fuel = invokes.length + fuel + 1 := by
        rw [List.length_cons]
        omega
      rw [hfuel, List.flatMap_cons, List.append_assoc, parseCalls_invoke v (by omega), ih]
      · rw [List.map_cons, List.append_assoc]
        rfl
      · rw [List.length_append, List.length_singleton]
        omega

theorem exists_of_parseCalls :
    ∀ {fuel : Nat} {text rest : Str} {calls calls' : List DsmlCandidateCall},
      calls.length ≤ defaultMaxToolCalls →
      parseCalls normal fuel text calls = .ok (calls', rest) →
      ∃ (invokes : List (Invoke normal)) (space : Str), Blank space ∧ Blank rest ∧
        text = invokes.flatMap Invoke.render ++ (space ++ toolCallsClose ++ rest) ∧
        calls' = calls ++ invokes.map Invoke.call ∧ calls' ≠ [] ∧
        calls'.length ≤ defaultMaxToolCalls := by
  intro fuel
  induction fuel with
  | zero =>
      intro text rest calls calls' _ h
      cases h
  | succ fuel ih =>
      intro text rest calls calls' hfew h
      obtain ⟨space, hspace, htext⟩ := exists_blank text
      rw [parseCalls] at h
      generalize skipDsmlWhitespace text = body at h htext
      subst htext
      by_cases hclose : toolCallsClose <+: body
      · rw [if_pos hclose] at h
        obtain ⟨after, rfl⟩ := hclose
        rw [List.drop_left] at h
        dsimp only at h
        split_ifs at h with hbad
        cases h
        rw [not_or, Bool.not_eq_false] at hbad
        refine ⟨[], space, hspace, List.all_eq_true.1 hbad.2, ?_, ?_, hbad.1, hfew⟩
        · simp
        · simp
      rw [if_neg hclose] at h
      split at h
      next => cases h
      next name after hopen =>
        obtain ⟨tagName, rfl, rfl⟩ := exists_of_invokeOpen hopen
        split at h
        next => cases h
        next arguments back hparams =>
          split_ifs at h with hmany
          obtain ⟨params, closeSpace, hblank, hafter, harguments, hdistinct, -⟩ :=
            exists_of_parseParameters hparams
          rw [List.nil_append] at harguments
          obtain ⟨invokes, lastSpace, hlast, hrest, hback, hcalls, hne, hbound⟩ :=
            ih (by rw [List.length_append, List.length_singleton]; omega) h
          refine ⟨⟨space, tagName, params, closeSpace, hspace, hblank, hdistinct⟩ :: invokes,
            lastSpace, hlast, hrest, ?_, ?_, hne, hbound⟩
          · rw [List.flatMap_cons, List.append_assoc _ (invokes.flatMap _), ← hback, hafter]
            simp [Invoke.render, Invoke.opening]
          · rw [hcalls, harguments, List.map_cons, List.append_assoc]
            rfl

end

/-! ### Envelopes -/

def Envelope.result (env : Envelope normal) (start : Nat) : DsmlCandidateResult where
  status := .complete
  calls := env.calls
  start := start
  stop := start + env.render.length
  callCount := env.calls.length

theorem length_le_flatMap_render_invokes (invokes : List (Invoke normal)) :
    invokes.length ≤ (invokes.flatMap Invoke.render).length := by
  induction invokes with
  | nil => exact Nat.le_refl 0
  | cons v invokes ih =>
      have hpos : 0 < invokeClose.length := by decide
      rw [List.flatMap_cons, List.length_cons, List.length_append, Invoke.render,
        List.length_append]
      omega

theorem parseDsmlEnvelopeAt_render (env : Envelope normal) (front : Str) {trailing : Str}
    (htrailing : Blank trailing) :
    parseDsmlEnvelopeAt normal (front ++ env.render ++ trailing) front.length =
      env.result front.length := by
  have hbody : (front ++ env.render ++ trailing).drop (front.length + toolCallsOpen.length) =
      env.body ++ trailing := by
    rw [Envelope.render, ← List.append_assoc front, List.append_assoc _ env.body]
    exact List.drop_left' List.length_append
  have hsplit : env.body ++ trailing = env.invokes.flatMap Invoke.render ++
      (env.closeSpace ++ toolCallsClose ++ trailing) := by
    simp [Envelope.body]
  have hread : parseCalls normal ((env.body ++ trailing).length + 1) (env.body ++ trailing) [] =
      .ok (env.calls, trailing) := by
    have hlength : env.invokes.length ≤ (env.body ++ trailing).length := by
      rw [hsplit, List.length_append]
      exact Nat.le_add_right_of_le (length_le_flatMap_render_invokes env.invokes)
    have hfuel : (env.body ++ trailing).length + 1 =
        env.invokes.length + ((env.body ++ trailing).length - env.invokes.length + 1) := by omega
    have hne : ([] : List DsmlCandidateCall) ++ env.invokes.map Invoke.call ≠ [] := by
      rw [List.nil_append]
      exact fun h => env.ne (List.map_eq_nil_iff.1 h)
    rw [hfuel]
    conv_lhs => rw [hsplit]
    rw [parseCalls_render (by simpa using env.bounded), parseCalls_close env.closeBlank htrailing hne,
      List.nil_append]
    rfl
  unfold parseDsmlEnvelopeAt
  dsimp only
  rw [hbody, hread]
  dsimp only
  have hstop : (front ++ env.render ++ trailing).length - trailing.length =
      front.length + env.render.length := by
    rw [List.length_append, Nat.add_sub_cancel, List.length_append]
  rw [hstop]
  rfl

theorem exists_of_complete {text : Str} {start : Nat} (hopen : toolCallsOpen <+: text.drop start)
    (h : (parseDsmlEnvelopeAt normal text start).status = .complete) :
    ∃ (env : Envelope normal) (trailing : Str), Blank trailing ∧
      text.drop start = env.render ++ trailing := by
  obtain ⟨body, hbody⟩ := hopen
  have hdrop : text.drop (start + toolCallsOpen.length) = body := by
    rw [← List.drop_drop, ← hbody, List.drop_left]
  unfold parseDsmlEnvelopeAt at h
  rw [hdrop] at h
  dsimp only at h
  split at h
  next calls rest hread =>
    obtain ⟨invokes, space, hspace, hrest, htext, hcalls, hne, hbound⟩ :=
      exists_of_parseCalls (Nat.zero_le _) hread
    rw [List.nil_append] at hcalls
    rw [hcalls] at hne hbound
    rw [List.length_map] at hbound
    have hinvokes : invokes ≠ [] := fun hnil => hne (by rw [hnil, List.map_nil])
    refine ⟨⟨invokes, space, hinvokes, hbound, hspace⟩, rest, hrest, ?_⟩
    rw [← hbody, htext]
    simp [Envelope.render, Envelope.body]
  next => cases h

end OpenStarry.TextTools
