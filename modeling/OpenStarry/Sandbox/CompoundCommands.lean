import OpenStarry.Lib.Outcome
import OpenStarry.Sandbox.Wrappers

/-!
# Compound commands

The splitter is an automaton over the open quote and the backslash. A text whose quotes are closed
and that does not end in a backslash leaves it as it began, so the segments of two texts with a
separator between them are those of the first and those of the second.
-/

namespace OpenStarry.Sandbox

open Lib Lib.Text Lib.Shlex

variable {host : CommandHost}

/-! ### One boundary at a time -/

theorem addSegment_nil (segments : List Str) : addSegment [] segments = segments := if_pos rfl

theorem map_addSegment_nil (x : Except CommandError (List Str)) :
    x.map (addSegment []) = x := by
  cases x with
  | error err => rfl
  | ok segments => exact congrArg Except.ok (addSegment_nil segments)

theorem addSegment_eq (segment : Str) (segments : List Str) :
    addSegment segment segments = addSegment segment [] ++ segments := by
  rw [addSegment, addSegment]
  split_ifs <;> rfl

theorem segmentsFrom_single {c : Char} (hc : isBoundary c = true) {rest : Str}
    (hdouble : ∀ more, rest = c :: more → ¬ (c = '&' ∨ c = '|')) (segment : Str) :
    segmentsFrom none false segment (c :: rest) =
      (segmentsFrom none false [] rest).map (addSegment segment) := by
  have hplain : c ≠ '\\' ∧ isQuote c = false := by
    rw [isBoundary, Bool.or_eq_true, Bool.or_eq_true, Bool.or_eq_true, decide_eq_true_eq,
      decide_eq_true_eq, decide_eq_true_eq, decide_eq_true_eq] at hc
    obtain ((rfl | rfl) | rfl) | rfl := hc <;> decide
  rw [segmentsFrom, if_neg fun h => hplain.1 h.1, if_neg (by simp), hplain.2,
    if_neg Bool.false_ne_true, if_pos hc]
  · rintro more rfl rfl
    exact hdouble more rfl (.inl rfl)
  · rintro more rfl rfl
    exact hdouble more rfl (.inr rfl)

theorem segmentsFrom_double {c : Char} (hc : c = '&' ∨ c = '|') (rest segment : Str) :
    segmentsFrom none false segment (c :: c :: rest) =
      (segmentsFrom none false [] rest).map (addSegment segment) := by
  obtain rfl | rfl := hc
  · rw [segmentsFrom, if_neg (by decide), if_neg (by simp), if_neg (by decide)]
  · rw [segmentsFrom, if_neg (by decide), if_neg (by simp), if_neg (by decide)]

theorem segmentsFrom_leading {c : Char} (hc : isBoundary c = true) (rest : Str) :
    segmentsFrom none false [] (c :: rest) = segmentsFrom none false [] rest := by
  induction hlength : rest.length using Nat.strong_induction_on generalizing c rest with
  | _ n ih =>
      by_cases hdouble : ∃ more, rest = c :: more ∧ (c = '&' ∨ c = '|')
      · obtain ⟨more, rfl, hkind⟩ := hdouble
        rw [segmentsFrom_double hkind, map_addSegment_nil]
        rw [List.length_cons] at hlength
        exact (ih more.length (by omega) hc more rfl).symm
      · rw [segmentsFrom_single hc (fun more hmore hkind => hdouble ⟨more, hmore, hkind⟩),
          map_addSegment_nil]

theorem segmentsFrom_boundary {c : Char} (hc : isBoundary c = true) (rest segment : Str) :
    segmentsFrom none false segment (c :: rest) =
      (segmentsFrom none false [] rest).map (addSegment segment) := by
  by_cases hdouble : ∃ more, rest = c :: more ∧ (c = '&' ∨ c = '|')
  · obtain ⟨more, rfl, hkind⟩ := hdouble
    rw [segmentsFrom_double hkind, segmentsFrom_leading hc]
  · exact segmentsFrom_single hc (fun more hmore hkind => hdouble ⟨more, hmore, hkind⟩) segment

/-! ### The automaton -/

abbrev SplitState := Option Char × Bool

def splitStep (state : SplitState) (c : Char) : SplitState :=
  if state.2 then (state.1, false)
  else if c = '\\' ∧ state.1 ≠ some '\'' then (state.1, true)
  else if state.1.isSome then (if state.1 = some c then none else state.1, false)
  else if isQuote c then (some c, false)
  else (none, false)

theorem segmentsFrom_cons {state : SplitState} {c : Char}
    (hc : ¬ (state = (none, false) ∧ isBoundary c = true)) (segment rest : Str) :
    segmentsFrom state.1 state.2 segment (c :: rest) =
      segmentsFrom (splitStep state c).1 (splitStep state c).2 (segment ++ [c]) rest := by
  obtain ⟨quote, escaped⟩ := state
  cases escaped with
  | true => rw [segmentsFrom, splitStep, if_pos rfl]
  | false =>
      have hno : ¬ ((quote, false) : SplitState).2 = true := Bool.false_ne_true
      rw [segmentsFrom.eq_def, splitStep, if_neg hno]
      by_cases hescape : c = '\\' ∧ quote ≠ some '\''
      · simp only [if_pos hescape]
      · simp only [if_neg hescape]
        cases quote with
        | some mark => simp only [Option.isSome_some, if_true]
        | none =>
            have hboundary : ¬ isBoundary c = true := fun h => hc ⟨rfl, h⟩
            simp only [Option.isSome_none, Bool.false_eq_true, if_false]
            by_cases hquote : isQuote c = true
            · simp only [if_pos hquote]
            · simp only [if_neg hquote]
              split
              · exact absurd rfl hboundary
              · exact absurd rfl hboundary
              · rw [if_neg hboundary]

theorem splitStep_boundary {c : Char} (hc : isBoundary c = true) :
    splitStep (none, false) c = (none, false) := by
  rw [isBoundary, Bool.or_eq_true, Bool.or_eq_true, Bool.or_eq_true, decide_eq_true_eq,
    decide_eq_true_eq, decide_eq_true_eq, decide_eq_true_eq] at hc
  obtain ((rfl | rfl) | rfl) | rfl := hc <;> decide

theorem quote_closed_of_segments {state : SplitState} {segment text : Str} {segments : List Str}
    (h : segmentsFrom state.1 state.2 segment text = .ok segments) :
    (text.foldl splitStep state).1 = none := by
  induction text generalizing state segment segments with
  | nil =>
      obtain ⟨quote, escaped⟩ := state
      rw [segmentsFrom] at h
      cases quote with
      | none => rfl
      | some open_ => exact nomatch h
  | cons c rest ih =>
      rw [List.foldl_cons]
      by_cases hc : state = (none, false) ∧ isBoundary c = true
      · obtain ⟨rfl, hboundary⟩ := hc
        rw [segmentsFrom_boundary hboundary] at h
        obtain ⟨found, hfound, -⟩ := map_eq_ok.mp h
        rw [splitStep_boundary hboundary]
        exact ih hfound
      · rw [segmentsFrom_cons hc] at h
        exact ih h

theorem segmentsFrom_append {state : SplitState} {first : Str}
    (hclosed : first.foldl splitStep state = (none, false)) {c : Char} (hc : isBoundary c = true)
    (segment second : Str) :
    segmentsFrom state.1 state.2 segment (first ++ c :: second) = do
      let front ← segmentsFrom state.1 state.2 segment first
      let back ← segmentsFrom none false [] second
      return front ++ back := by
  induction first generalizing state segment with
  | nil =>
      obtain rfl : state = (none, false) := hclosed
      rw [List.nil_append, segmentsFrom_boundary hc, segmentsFrom]
      cases segmentsFrom none false [] second with
      | error err => rfl
      | ok back => exact congrArg Except.ok (addSegment_eq segment back)
  | cons d rest ih =>
      rw [List.foldl_cons] at hclosed
      rw [List.cons_append]
      by_cases hd : state = (none, false) ∧ isBoundary d = true
      · obtain ⟨rfl, hboundary⟩ := hd
        rw [splitStep_boundary hboundary] at hclosed
        rw [segmentsFrom_boundary hboundary, segmentsFrom_boundary hboundary, ih hclosed]
        cases segmentsFrom none false [] rest with
        | error err => rfl
        | ok front =>
            cases segmentsFrom none false [] second with
            | error err => rfl
            | ok back =>
                show Except.ok (addSegment segment (front ++ back)) =
                  Except.ok (addSegment segment front ++ back)
                rw [addSegment_eq segment (front ++ back), addSegment_eq segment front,
                  List.append_assoc]
      · rw [segmentsFrom_cons hd, segmentsFrom_cons hd, ih hclosed]

/-! ### Backslashes at the end -/

def trailingBackslashes (text : Str) : Nat := (text.rtakeWhile (· = '\\')).length

def EndsInBackslash (text : Str) : Prop := trailingBackslashes text % 2 = 1

instance (text : Str) : Decidable (EndsInBackslash text) := inferInstanceAs (Decidable (_ = _))

theorem trailingBackslashes_concat (text : Str) (c : Char) :
    trailingBackslashes (text ++ [c]) = if c = '\\' then trailingBackslashes text + 1 else 0 := by
  rw [trailingBackslashes, trailingBackslashes]
  split_ifs with hc
  · rw [List.rtakeWhile_concat_pos _ _ _ (by simpa using hc), List.length_append,
      List.length_singleton]
  · rw [List.rtakeWhile_concat_neg _ _ _ (by simpa using hc), List.length_nil]

theorem escaped_foldl (text : Str) :
    let state := text.foldl splitStep (none, false)
    (state.1 ≠ some '\'' → (state.2 = true ↔ EndsInBackslash text)) ∧
      (state.1 = some '\'' → state.2 = false) := by
  induction text using List.reverseRecOn with
  | nil => exact ⟨fun _ => by decide, fun h => nomatch h⟩
  | append_singleton text c ih =>
      rw [List.foldl_append, List.foldl_cons, List.foldl_nil]
      rw [EndsInBackslash, trailingBackslashes_concat]
      rw [EndsInBackslash] at ih
      generalize text.foldl splitStep (none, false) = state at ih ⊢
      obtain ⟨quote, escaped⟩ := state
      obtain ⟨hodd, hsingle⟩ := ih
      simp only at hodd hsingle
      cases escaped with
      | true =>
          have hquote : quote ≠ some '\'' := fun h => Bool.false_ne_true (hsingle h).symm
          have hcount := (hodd hquote).mp rfl
          have hstep : splitStep (quote, true) c = (quote, false) := if_pos rfl
          rw [hstep]
          refine ⟨fun _ => ?_, fun _ => rfl⟩
          simp only [Bool.false_eq_true, false_iff]
          split_ifs
          · omega
          · decide
      | false =>
          have hno : ¬ ((quote, false) : SplitState).2 = true := Bool.false_ne_true
          by_cases hescape : c = '\\' ∧ quote ≠ some '\''
          · have hstep : splitStep (quote, false) c = (quote, true) := by
              rw [splitStep, if_neg hno, if_pos hescape]
            have hcount : ¬ trailingBackslashes text % 2 = 1 := by
              rw [← hodd hescape.2]
              exact Bool.false_ne_true
            rw [hstep, if_pos hescape.1]
            refine ⟨fun _ => ?_, fun h => absurd h hescape.2⟩
            simp only [true_iff]
            omega
          · have hstep : (splitStep (quote, false) c).2 = false := by
              rw [splitStep, if_neg hno, if_neg hescape]
              split_ifs <;> rfl
            refine ⟨fun hquote => ?_, fun _ => hstep⟩
            rw [hstep]
            have hplain : c ≠ '\\' := by
              rintro rfl
              have hinside : quote = some '\'' := not_not.mp fun h => hescape ⟨rfl, h⟩
              apply hquote
              rw [splitStep, if_neg hno, if_neg hescape, hinside]
              rfl
            rw [if_neg hplain]
            decide

theorem foldl_closed {text : Str} {segments : List Str}
    (h : segmentsFrom none false [] text = .ok segments) (hend : ¬ EndsInBackslash text) :
    text.foldl splitStep (none, false) = (none, false) := by
  have hquote := @quote_closed_of_segments (none, false) _ _ _ h
  have hescaped := (escaped_foldl text).1 (by rw [hquote]; exact nofun)
  rw [← hescaped, Bool.not_eq_true] at hend
  exact Prod.ext hquote hend

/-! ### Here documents -/

def HasNoHeredoc (text : Str) : Prop := ¬ ['<', '<'] <:+: text

theorem hasNoHeredoc_append {first second : Str} {c : Char} (hc : c ≠ '<')
    (hfirst : HasNoHeredoc first) (hsecond : HasNoHeredoc second) :
    HasNoHeredoc (first ++ c :: second) := by
  have hcons : HasNoHeredoc (c :: second) := by
    rw [HasNoHeredoc, List.infix_cons_iff]
    rintro (hbegins | hinfix)
    · exact hc (List.cons_prefix_cons.mp hbegins).1.symm
    · exact hsecond hinfix
  induction first with
  | nil => exact hcons
  | cons d rest ih =>
      rw [HasNoHeredoc, List.infix_cons_iff, not_or] at hfirst
      rw [HasNoHeredoc, List.cons_append, List.infix_cons_iff]
      rintro (hbegins | hinfix)
      · apply hfirst.1
        obtain ⟨hd, hbegins⟩ := List.cons_prefix_cons.mp hbegins
        rw [← hd]
        apply List.cons_prefix_cons.mpr
        refine ⟨rfl, ?_⟩
        cases rest with
        | nil => exact absurd (List.cons_prefix_cons.mp hbegins).1.symm hc
        | cons e rest =>
            rw [← (List.cons_prefix_cons.mp hbegins).1]
            exact List.cons_prefix_cons.mpr ⟨rfl, List.nil_prefix⟩
      · exact ih hfirst.2 hinfix

theorem splitSegments_eq {text : Str} (h : HasNoHeredoc text) (stripHeredocs : Bool) :
    splitSegments host text stripHeredocs = segmentsFrom none false [] text := by
  rw [splitSegments, stripShellHeredocBodies, if_neg h, ite_self]

/-! ### Separators -/

def separators : List Str := [";", "&&", "||", "|", "&", "\n"].map String.toList

theorem segmentsFrom_separator {first second separator : Str} {front back : List Str}
    (hseparator : separator ∈ separators)
    (hfirst : segmentsFrom none false [] first = .ok front)
    (hsecond : segmentsFrom none false [] second = .ok back) (hend : ¬ EndsInBackslash first) :
    segmentsFrom none false [] (first ++ separator ++ second) = .ok (front ++ back) := by
  have hclosed := foldl_closed hfirst hend
  have hjoin : ∀ {c : Char} {rest : Str}, isBoundary c = true →
      segmentsFrom none false [] rest = .ok back →
        segmentsFrom none false [] (first ++ c :: rest) = .ok (front ++ back) := by
    intro c rest hc hrest
    rw [@segmentsFrom_append (none, false) _ hclosed c hc, hfirst, hrest]
    rfl
  have hskip : ∀ {c : Char}, isBoundary c = true →
      segmentsFrom none false [] (c :: second) = .ok back :=
    fun hc => (segmentsFrom_leading hc second).trans hsecond
  rw [List.append_assoc]
  have hkinds : ∀ separator ∈ separators, ∃ c, isBoundary c = true ∧
      (separator = [c] ∨ separator = [c, c]) := by
    intro separator h
    simp only [separators, List.map_cons, List.map_nil, List.mem_cons, List.not_mem_nil,
      or_false] at h
    obtain rfl | rfl | rfl | rfl | rfl | rfl := h
    · exact ⟨';', rfl, .inl rfl⟩
    · exact ⟨'&', rfl, .inr rfl⟩
    · exact ⟨'|', rfl, .inr rfl⟩
    · exact ⟨'|', rfl, .inl rfl⟩
    · exact ⟨'&', rfl, .inl rfl⟩
    · exact ⟨'\n', rfl, .inl rfl⟩
  obtain ⟨c, hc, rfl | rfl⟩ := hkinds separator hseparator
  · exact hjoin hc hsecond
  · exact hjoin hc (hskip hc)

/-! ### Parsing -/

theorem parseShellSegments_eq_ok_iff {platform : Option Str} {command : Str}
    (hheredoc : HasNoHeredoc command) {parsed : List CommandSegment} :
    parseShellSegments host platform command = .ok parsed ↔
      parsed ≠ [] ∧ ∃ sources, segmentsFrom none false [] command = .ok sources ∧
        sources.mapM (parseSegment host (platformName host platform)) = .ok parsed := by
  simp only [parseShellSegments]
  rw [splitSegments_eq hheredoc, bind_eq_ok]
  constructor
  · rintro ⟨sources, hsources, h⟩
    obtain ⟨found, hfound, h⟩ := bind_eq_ok.mp h
    split_ifs at h with hempty
    obtain rfl := pure_eq_ok.mp h
    exact ⟨hempty, sources, hsources, hfound⟩
  · rintro ⟨hempty, sources, hsources, hparsed⟩
    refine ⟨sources, hsources, bind_eq_ok.mpr ⟨parsed, hparsed, ?_⟩⟩
    rw [if_neg hempty]
    rfl

theorem parseShellSegments_append {platform : Option Str} {first second separator : Str}
    {front back : List CommandSegment} (hseparator : separator ∈ separators)
    (hfirst : parseShellSegments host platform first = .ok front)
    (hsecond : parseShellSegments host platform second = .ok back)
    (hheredoc : HasNoHeredoc first) (hheredoc' : HasNoHeredoc second)
    (hend : ¬ EndsInBackslash first) :
    parseShellSegments host platform (first ++ separator ++ second) = .ok (front ++ back) := by
  have hwhole : HasNoHeredoc (first ++ separator ++ second) := by
    have hkinds : ∀ separator ∈ separators, (∃ c, c ≠ '<' ∧ separator = [c]) ∨
        ∃ c d, c ≠ '<' ∧ d ≠ '<' ∧ separator = [c, d] := by
      intro separator h
      simp only [separators, List.map_cons, List.map_nil, List.mem_cons, List.not_mem_nil,
        or_false] at h
      obtain rfl | rfl | rfl | rfl | rfl | rfl := h
      · exact .inl ⟨';', by decide, rfl⟩
      · exact .inr ⟨'&', '&', by decide, by decide, rfl⟩
      · exact .inr ⟨'|', '|', by decide, by decide, rfl⟩
      · exact .inl ⟨'|', by decide, rfl⟩
      · exact .inl ⟨'&', by decide, rfl⟩
      · exact .inl ⟨'\n', by decide, rfl⟩
    rw [List.append_assoc]
    obtain ⟨c, hc, rfl⟩ | ⟨c, d, hc, hd, rfl⟩ := hkinds separator hseparator
    · exact hasNoHeredoc_append hc hheredoc hheredoc'
    · have hempty : HasNoHeredoc [] := fun h => absurd h (by decide)
      have hrest : HasNoHeredoc ([] ++ d :: second) := hasNoHeredoc_append hd hempty hheredoc'
      exact hasNoHeredoc_append hc hheredoc hrest
  obtain ⟨hne, sources, hsources, hparsed⟩ := (parseShellSegments_eq_ok_iff hheredoc).mp hfirst
  obtain ⟨-, others, hothers, hparsed'⟩ := (parseShellSegments_eq_ok_iff hheredoc').mp hsecond
  apply (parseShellSegments_eq_ok_iff hwhole).mpr
  refine ⟨List.append_ne_nil_of_left_ne_nil hne back, sources ++ others,
    segmentsFrom_separator hseparator hsources hothers hend, ?_⟩
  rw [mapM_eq_ok_iff_forall₂] at hparsed hparsed' ⊢
  exact List.rel_append hparsed hparsed'

/-! ### Deciding -/

def CommandAction.rank : CommandAction → Nat
  | .auto => 0
  | .approval => 1
  | .deny => 2

def stricter (first second : CommandAction) : CommandAction :=
  if first.rank < second.rank then second else first

theorem action_strictest (decisions : List CommandDecision) :
    (strictest decisions).action =
      if ∃ decision ∈ decisions, decision.action = .deny then .deny
      else if ∃ decision ∈ decisions, decision.action = .approval then .approval
      else .auto := by
  rw [strictest]
  cases hdeny : decisions.find? fun decision => decide (decision.action = .deny) with
  | some decision =>
      have hmem := List.mem_of_find?_eq_some hdeny
      have haction : decision.action = .deny := by simpa using List.find?_some hdeny
      rw [if_pos ⟨decision, hmem, haction⟩]
      exact haction
  | none =>
      rw [List.find?_eq_none] at hdeny
      have hno : ¬ ∃ decision ∈ decisions, decision.action = .deny := by
        rintro ⟨decision, hmem, haction⟩
        exact hdeny decision hmem (decide_eq_true haction)
      rw [if_neg hno]
      cases happroval : decisions.find? fun decision => decide (decision.action = .approval) with
      | some decision =>
          have hmem := List.mem_of_find?_eq_some happroval
          have haction : decision.action = .approval := by simpa using List.find?_some happroval
          rw [if_pos ⟨decision, hmem, haction⟩]
          exact haction
      | none =>
          rw [List.find?_eq_none] at happroval
          have hno : ¬ ∃ decision ∈ decisions, decision.action = .approval := by
            rintro ⟨decision, hmem, haction⟩
            exact happroval decision hmem (decide_eq_true haction)
          rw [if_neg hno]
          rfl

theorem action_strictest_append (front back : List CommandDecision) :
    (strictest (front ++ back)).action =
      stricter (strictest front).action (strictest back).action := by
  rw [action_strictest, action_strictest, action_strictest]
  simp only [List.mem_append, or_and_right, exists_or]
  by_cases hdeny : ∃ decision ∈ front, decision.action = .deny
  all_goals by_cases hdeny' : ∃ decision ∈ back, decision.action = .deny
  all_goals by_cases happroval : ∃ decision ∈ front, decision.action = .approval
  all_goals by_cases happroval' : ∃ decision ∈ back, decision.action = .approval
  all_goals
    simp only [hdeny, hdeny', happroval, happroval', true_or, or_true, or_self, if_true, if_false]
    rfl

theorem mapM_append_except {ε α β : Type} (f : α → Except ε β) (front back : List α) :
    (front ++ back).mapM f = do
      let xs ← front.mapM f
      let ys ← back.mapM f
      return xs ++ ys := List.mapM_append

/-- The segments of a compound command are those of its parts, and it is judged by its strictest
part. -/
theorem compound_commands_are_judged_by_their_parts {platform : Option Str}
    {policy : SandboxPolicy} {first second separator : Str} {front back : List CommandSegment}
    (hseparator : separator ∈ separators)
    (hfirst : parseShellSegments host platform first = .ok front)
    (hsecond : parseShellSegments host platform second = .ok back)
    (hheredoc : HasNoHeredoc first) (hheredoc' : HasNoHeredoc second)
    (hend : ¬ EndsInBackslash first) :
    parseShellSegments host platform (first ++ separator ++ second) = .ok (front ++ back) ∧
      (decideShellCommand host platform (first ++ separator ++ second) policy).map
          CommandDecision.action = do
        let decision ← decideShellCommand host platform first policy
        let other ← decideShellCommand host platform second policy
        return stricter decision.action other.action := by
  have hwhole := parseShellSegments_append hseparator hfirst hsecond hheredoc hheredoc' hend
  refine ⟨hwhole, ?_⟩
  rw [decideShellCommand, decideShellCommand, decideShellCommand, hwhole, hfirst, hsecond]
  simp only
  rw [mapM_append_except]
  cases front.mapM fun segment => decideCommand host platform segment.argv policy with
  | error err => rfl
  | ok decisions =>
      cases back.mapM fun segment => decideCommand host platform segment.argv policy with
      | error err => rfl
      | ok others => exact congrArg Except.ok (action_strictest_append decisions others)

/-- `python build.py && git push` has two segments and is judged by the second. -/
theorem build_and_push_is_judged_by_push :
    parseShellSegments asciiHost (some "linux".toList)
        ("python build.py ".toList ++ "&&".toList ++ " git push".toList) =
      .ok ([⟨"python build.py".toList, ["python".toList, "build.py".toList]⟩] ++
        [⟨"git push".toList, ["git".toList, "push".toList]⟩]) ∧
      (decideShellCommand asciiHost (some "linux".toList)
          ("python build.py ".toList ++ "&&".toList ++ " git push".toList) {}).map
          CommandDecision.action = do
        let decision ←
          decideShellCommand asciiHost (some "linux".toList) "python build.py ".toList {}
        let other ← decideShellCommand asciiHost (some "linux".toList) " git push".toList {}
        return stricter decision.action other.action :=
  compound_commands_are_judged_by_their_parts (by decide) (by decide +kernel) (by decide +kernel)
    (by unfold HasNoHeredoc; decide +kernel) (by unfold HasNoHeredoc; decide +kernel) (by decide)

end OpenStarry.Sandbox
