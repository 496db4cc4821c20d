import OpenStarry.Lib.Text

/-!
# Lines put next to each other

A piece is one line of a text with its end, if it has one. A text put together from pieces has the
pieces for its lines unless two of them run together: a piece without an end takes the next one up,
and a carriage return takes a line feed.
-/

namespace OpenStarry.Lib.Text

/-- What ends a line. -/
inductive Ending : Str → Prop where
  | missing : Ending []
  | boundary (c : Char) (hc : isLineBoundary c = true) : Ending [c]
  | returnFeed : Ending ['\r', '\n']

def IsPiece (p : Str) : Prop :=
  p ≠ [] ∧ ∃ line ending, p = line ++ ending ∧ SingleLine line ∧ Ending ending

def Merges (p rest : Str) : Prop :=
  rest ≠ [] ∧ (isTerminated p = false ∨ p.getLast? = some '\r' ∧ rest.head? = some '\n')

instance (p rest : Str) : Decidable (Merges p rest) := inferInstanceAs (Decidable (_ ∧ _))

def Apart (pieces : List Str) : Prop := pieces.IsChain fun p q => ¬ Merges p q

instance (pieces : List Str) : Decidable (Apart pieces) :=
  inferInstanceAs (Decidable (List.IsChain _ pieces))

/-! ### The lines of a text are pieces -/

theorem IsPiece.cons {c : Char} (hc : isLineBoundary c = false) {p : Str} (hp : IsPiece p) :
    IsPiece (c :: p) := by
  obtain ⟨-, line, ending, rfl, hline, hending⟩ := hp
  exact ⟨List.cons_ne_nil _ _, c :: line, ending, rfl, singleLine_cons.mpr ⟨hc, hline⟩, hending⟩

theorem isPiece_of_mem_splitlinesKeepends (text : Str) :
    ∀ p ∈ splitlinesKeepends text, IsPiece p := by
  fun_induction splitlinesKeepends text with
  | case1 => exact fun p hp => absurd hp List.not_mem_nil
  | case2 rest ih =>
      have hp : IsPiece ['\r', '\n'] :=
        ⟨List.cons_ne_nil _ _, [], _, rfl, singleLine_nil, .returnFeed⟩
      exact List.forall_mem_cons.mpr ⟨hp, ih⟩
  | case3 c rest hne hboundary ih =>
      have hp : IsPiece [c] :=
        ⟨List.cons_ne_nil _ _, [], [c], rfl, singleLine_nil, .boundary c hboundary⟩
      exact List.forall_mem_cons.mpr ⟨hp, ih⟩
  | case4 c rest hne hboundary hempty ih =>
      have hline : SingleLine [c] := singleLine_cons.mpr ⟨by simpa using hboundary, singleLine_nil⟩
      have hp : IsPiece [c] := ⟨List.cons_ne_nil _ _, [c], [], rfl, hline, .missing⟩
      exact List.forall_mem_singleton.mpr hp
  | case5 c rest hne hboundary line lines hsplit ih =>
      rw [hsplit] at ih
      obtain ⟨hfirst, hrest⟩ := List.forall_mem_cons.mp ih
      exact List.forall_mem_cons.mpr ⟨hfirst.cons (by simpa using hboundary), hrest⟩

theorem flatten_splitlinesKeepends (text : Str) : (splitlinesKeepends text).flatten = text := by
  fun_induction splitlinesKeepends text with
  | case1 => rfl
  | case2 rest ih => rw [List.flatten_cons, ih]; rfl
  | case3 c rest hne hboundary ih => rw [List.flatten_cons, ih]; rfl
  | case4 c rest hne hboundary hempty ih =>
      rw [hempty] at ih
      rw [← ih]
      rfl
  | case5 c rest hne hboundary line lines hsplit ih =>
      rw [hsplit] at ih
      rw [← ih]
      rfl

theorem splitlinesKeepends_ne_nil {text : Str} (hne : text ≠ []) : splitlinesKeepends text ≠ [] := by
  intro hnil
  apply hne
  rw [← flatten_splitlinesKeepends text, hnil]
  rfl

/-! ### A piece and what stands behind it -/

theorem SingleLine.splitlinesKeepends_prepend {line : Str} (hline : SingleLine line)
    {rest first : Str} {lines : List Str} (hrest : splitlinesKeepends rest = first :: lines) :
    splitlinesKeepends (line ++ rest) = (line ++ first) :: lines := by
  induction line with
  | nil => exact hrest
  | cons c line ih =>
      obtain ⟨hc, hline⟩ := singleLine_cons.mp hline
      rw [List.cons_append, splitlinesKeepends, if_neg (by simp [hc]), ih hline]
      · rfl
      · rintro rest' rfl
        simp [isLineBoundary] at hc

theorem splitlinesKeepends_boundary {c : Char} (hc : isLineBoundary c = true) {rest : Str}
    (hrest : ¬ (c = '\r' ∧ rest.head? = some '\n')) :
    splitlinesKeepends (c :: rest) = [c] :: splitlinesKeepends rest := by
  rw [splitlinesKeepends, if_pos hc]
  rintro rest' rfl rfl
  exact hrest ⟨rfl, rfl⟩

theorem isTerminated_append {line ending : Str} (hline : SingleLine line) (hending : Ending ending) :
    isTerminated (line ++ ending) = decide (ending ≠ []) := by
  cases hending with
  | missing =>
      rw [List.append_nil, isTerminated, decide_eq_false (not_not_intro rfl)]
      cases hlast : line.getLast? with
      | none => rfl
      | some c => exact hline c (List.mem_of_getLast? hlast)
  | boundary c hc =>
      rw [isTerminated_concat, hc]
      rfl
  | returnFeed =>
      have hsplit : line ++ ['\r', '\n'] = (line ++ ['\r']) ++ ['\n'] := by
        rw [List.append_assoc]
        rfl
      rw [hsplit, isTerminated_concat]
      rfl

theorem splitlinesKeepends_piece {p rest : Str} (hp : IsPiece p) (hmerges : ¬ Merges p rest) :
    splitlinesKeepends (p ++ rest) = p :: splitlinesKeepends rest := by
  obtain ⟨hne, line, ending, rfl, hline, hending⟩ := hp
  have hterminated := isTerminated_append hline hending
  rw [List.append_assoc]
  cases hending with
  | missing =>
      have hrest : rest = [] := by
        by_contra hrest
        exact hmerges ⟨hrest, Or.inl hterminated⟩
      rw [List.append_nil] at hne ⊢
      rw [hrest, List.nil_append, List.append_nil, hline.splitlinesKeepends_eq hne]
      rfl
  | boundary c hc =>
      apply hline.splitlinesKeepends_prepend
      apply splitlinesKeepends_boundary hc
      rintro ⟨rfl, hhead⟩
      apply hmerges
      refine ⟨?_, Or.inr ⟨by simp, hhead⟩⟩
      rintro rfl
      exact absurd hhead (by simp)
  | returnFeed =>
      have hboth : splitlinesKeepends (['\r', '\n'] ++ rest) =
          ['\r', '\n'] :: splitlinesKeepends rest := by
        rw [List.cons_append, List.singleton_append, splitlinesKeepends]
      exact hline.splitlinesKeepends_prepend hboth

theorem length_splitlinesKeepends_merges {p rest : Str} (hp : IsPiece p) (hmerges : Merges p rest) :
    (splitlinesKeepends (p ++ rest)).length = (splitlinesKeepends rest).length := by
  obtain ⟨hne, line, ending, rfl, hline, hending⟩ := hp
  obtain ⟨hrest, hopen⟩ := hmerges
  rw [isTerminated_append hline hending] at hopen
  rw [List.append_assoc]
  cases hending with
  | missing =>
      obtain ⟨first, lines, hlines⟩ := List.exists_cons_of_ne_nil (splitlinesKeepends_ne_nil hrest)
      rw [List.nil_append, hline.splitlinesKeepends_prepend hlines, hlines]
      rfl
  | boundary c hc =>
      obtain ⟨hreturn, hfeed⟩ := hopen.resolve_left (by simp)
      obtain rfl : c = '\r' := by simpa using hreturn
      obtain ⟨tail, rfl⟩ : ∃ tail, rest = '\n' :: tail := by
        cases rest with
        | nil => exact absurd hfeed (by simp)
        | cons d tail => exact ⟨tail, by rw [Option.some_inj.mp hfeed]⟩
      have hboth : splitlinesKeepends (['\r'] ++ '\n' :: tail) =
          ['\r', '\n'] :: splitlinesKeepends tail := by
        rw [List.singleton_append, splitlinesKeepends]
      have hfeed' : splitlinesKeepends ('\n' :: tail) = ['\n'] :: splitlinesKeepends tail :=
        splitlinesKeepends_boundary rfl (by simp)
      rw [hline.splitlinesKeepends_prepend hboth, hfeed']
      rfl
  | returnFeed =>
      obtain ⟨hreturn, -⟩ := hopen.resolve_left (by simp)
      simp at hreturn

/-! ### Lists of pieces -/

theorem merges_flatten {p q : Str} (hq : q ≠ []) (rest : List Str) :
    Merges p (q :: rest).flatten ↔ Merges p q := by
  obtain ⟨c, tail, rfl⟩ := List.exists_cons_of_ne_nil hq
  rw [List.flatten_cons, Merges, Merges, List.cons_append]
  simp

theorem splitlinesKeepends_flatten_pieces {pieces : List Str} (hpieces : ∀ p ∈ pieces, IsPiece p) :
    (Apart pieces → splitlinesKeepends pieces.flatten = pieces) ∧
      (splitlinesKeepends pieces.flatten).length ≤ pieces.length ∧
      ((splitlinesKeepends pieces.flatten).length = pieces.length → Apart pieces) := by
  induction pieces with
  | nil => exact ⟨fun _ => rfl, le_rfl, fun _ => List.IsChain.nil⟩
  | cons p rest ih =>
      obtain ⟨hp, hrest⟩ := List.forall_mem_cons.mp hpieces
      obtain ⟨hsame, hle, hapart⟩ := ih hrest
      rw [List.flatten_cons, List.length_cons]
      by_cases hmerges : Merges p rest.flatten
      · have hlength := length_splitlinesKeepends_merges hp hmerges
        obtain ⟨q, tail, rfl⟩ : ∃ q tail, rest = q :: tail := by
          apply List.exists_cons_of_ne_nil
          rintro rfl
          exact hmerges.1 rfl
        rw [merges_flatten (List.forall_mem_cons.mp hrest).1.1] at hmerges
        refine ⟨?_, by omega, by omega⟩
        intro hchain
        exact absurd hmerges (List.isChain_cons_cons.mp hchain).1
      · have hchain : Apart (p :: rest) ↔ Apart rest := by
          cases rest with
          | nil => simp [Apart]
          | cons q tail =>
              rw [merges_flatten (List.forall_mem_cons.mp hrest).1.1] at hmerges
              rw [Apart, Apart, List.isChain_cons_cons]
              exact and_iff_right hmerges
        rw [splitlinesKeepends_piece hp hmerges, hchain, List.length_cons]
        refine ⟨fun h => by rw [hsame h], Nat.succ_le_succ hle, fun h => hapart ?_⟩
        omega

theorem splitlines_flatten_iff {pieces : List Str} (hpieces : ∀ p ∈ pieces, IsPiece p) :
    splitlines pieces.flatten = pieces.map (List.rdropWhile isLineBoundary) ↔ Apart pieces := by
  obtain ⟨hsame, -, hapart⟩ := splitlinesKeepends_flatten_pieces hpieces
  constructor
  · intro heq
    apply hapart
    have hlength := congrArg List.length heq
    rwa [splitlines, List.length_map, List.length_map] at hlength
  · intro h
    rw [splitlines, hsame h]

theorem apart_of_forall {pieces : List Str} (h : ∀ p ∈ pieces, ∀ rest, ¬ Merges p rest) :
    Apart pieces := by
  induction pieces with
  | nil => exact List.IsChain.nil
  | cons p rest ih =>
      obtain ⟨hp, hrest⟩ := List.forall_mem_cons.mp h
      cases rest with
      | nil => exact List.IsChain.singleton p
      | cons q tail => exact List.isChain_cons_cons.mpr ⟨hp q, ih hrest⟩

/-! ### Lines joined by line feeds -/

theorem unlines_concat_nil (lines : List Str) :
    unlines (lines ++ [[]]) = (lines.map (· ++ ['\n'])).flatten := by
  induction lines with
  | nil => rfl
  | cons line rest ih =>
      have hjoin : unlines (line :: rest ++ [[]]) = line ++ '\n' :: unlines (rest ++ [[]]) := by
        rw [unlines, unlines, List.cons_append, List.intercalate_cons_of_ne_nil (by simp)]
        simp
      rw [hjoin, ih, List.map_cons, List.flatten_cons, List.append_assoc, List.singleton_append]

theorem length_splitlines_unlines_concat_nil {lines : List Str}
    (hlines : ∀ line ∈ lines, SingleLine line) :
    (splitlines (unlines (lines ++ [[]]))).length = lines.length := by
  have hpieces : ∀ p ∈ lines.map (· ++ ['\n']), IsPiece p := by
    intro p hp
    obtain ⟨line, hline, rfl⟩ := List.mem_map.mp hp
    exact ⟨List.concat_ne_nil _ _, line, ['\n'], rfl, hlines line hline, .boundary '\n' rfl⟩
  have hapart : Apart (lines.map (· ++ ['\n'])) := by
    apply apart_of_forall
    intro p hp rest hmerges
    obtain ⟨line, -, rfl⟩ := List.mem_map.mp hp
    obtain ⟨-, hopen | ⟨hreturn, -⟩⟩ := hmerges
    · rw [isTerminated_concat] at hopen
      exact absurd hopen (by decide)
    · rw [List.getLast?_concat] at hreturn
      exact absurd hreturn (by decide)
  rw [unlines_concat_nil, splitlines, (splitlinesKeepends_flatten_pieces hpieces).1 hapart,
    List.length_map, List.length_map]

/-! ### What the lines of two texts say -/

section

variable {α : Type*} {f : Str → Option α}

theorem splitlinesKeepends_merges_newline {p : Str} (hp : IsPiece p) {rest : Str}
    (hmerges : Merges p ('\n' :: rest)) :
    splitlinesKeepends (p ++ '\n' :: rest) = (p ++ ['\n']) :: splitlinesKeepends rest := by
  have hpiece : IsPiece (p ++ ['\n']) := by
    obtain ⟨-, line, ending, rfl, hline, hending⟩ := hp
    obtain ⟨-, hopen⟩ := hmerges
    rw [isTerminated_append hline hending] at hopen
    refine ⟨List.concat_ne_nil _ _, line, ending ++ ['\n'], List.append_assoc _ _ _, hline, ?_⟩
    cases hending with
    | missing => exact .boundary '\n' rfl
    | boundary c hc =>
        obtain ⟨hreturn, -⟩ := hopen.resolve_left (by simp)
        obtain rfl : c = '\r' := by simpa using hreturn
        exact .returnFeed
    | returnFeed =>
        obtain ⟨hreturn, -⟩ := hopen.resolve_left (by simp)
        simp at hreturn
  have hapart : ¬ Merges (p ++ ['\n']) rest := by
    rintro ⟨-, hopen | ⟨hreturn, -⟩⟩
    · rw [isTerminated_concat] at hopen
      exact absurd hopen (by decide)
    · rw [List.getLast?_concat] at hreturn
      exact absurd hreturn (by decide)
  have hsplit := splitlinesKeepends_piece hpiece hapart
  rwa [List.append_assoc, List.singleton_append] at hsplit

theorem filterMap_splitlines_append (hf : f [] = none) (s t : Str) :
    (splitlines (s ++ '\n' :: t)).filterMap f =
      (splitlines s).filterMap f ++ (splitlines t).filterMap f := by
  have hfeed : splitlinesKeepends ('\n' :: t) = ['\n'] :: splitlinesKeepends t :=
    splitlinesKeepends_boundary rfl (by simp)
  have hstop : ['\n'].rdropWhile isLineBoundary = [] := by decide
  have hblank : (splitlines ('\n' :: t)).filterMap f = (splitlines t).filterMap f := by
    rw [splitlines, hfeed, List.map_cons, hstop, List.filterMap_cons_none hf, splitlines]
  have hpieces := isPiece_of_mem_splitlinesKeepends s
  have happend : ∀ pieces : List Str, (∀ p ∈ pieces, IsPiece p) → Apart pieces →
      (splitlines (pieces.flatten ++ '\n' :: t)).filterMap f =
        (pieces.map (List.rdropWhile isLineBoundary)).filterMap f ++
          (splitlines t).filterMap f := by
    intro pieces hpieces hapart
    induction pieces with
    | nil =>
        rw [List.flatten_nil, List.nil_append, hblank]
        rfl
    | cons p rest ih =>
        obtain ⟨hp, hrest⟩ := List.forall_mem_cons.mp hpieces
        rw [List.flatten_cons, List.append_assoc]
        cases rest with
        | nil =>
            rw [List.flatten_nil, List.nil_append]
            by_cases hmerges : Merges p ('\n' :: t)
            · rw [splitlines, splitlinesKeepends_merges_newline hp hmerges, List.map_cons,
                List.rdropWhile_concat_pos _ _ _ (by decide), ← splitlines, List.map_singleton,
                ← List.filterMap_append, List.singleton_append]
            · rw [splitlines, splitlinesKeepends_piece hp hmerges, List.map_cons, ← splitlines,
                List.map_singleton, ← List.singleton_append, List.filterMap_append, hblank]
        | cons q tail =>
            obtain ⟨happart, hchain⟩ := List.isChain_cons_cons.mp hapart
            have hq := (List.forall_mem_cons.mp hrest).1.1
            have hmerges : ¬ Merges p ((q :: tail).flatten ++ '\n' :: t) := by
              obtain ⟨c, inner, rfl⟩ := List.exists_cons_of_ne_nil hq
              rw [Merges] at happart ⊢
              simpa using happart
            rw [splitlines, splitlinesKeepends_piece hp hmerges, List.map_cons, ← splitlines,
              List.map_cons]
            rw [← List.singleton_append, List.filterMap_append, ih hrest hchain,
              ← List.append_assoc, ← List.filterMap_append]
            rfl
  have hapart : Apart (splitlinesKeepends s) := by
    apply (splitlinesKeepends_flatten_pieces hpieces).2.2
    rw [flatten_splitlinesKeepends]
  have h := happend (splitlinesKeepends s) hpieces hapart
  rwa [flatten_splitlinesKeepends] at h

theorem filterMap_splitlines_unlines (hf : f [] = none) (parts : List Str) :
    (splitlines (unlines parts)).filterMap f =
      parts.flatMap fun part => (splitlines part).filterMap f := by
  induction parts with
  | nil => rfl
  | cons part rest ih =>
      cases rest with
      | nil => rw [unlines, List.intercalate_singleton, List.flatMap_singleton]
      | cons next rest =>
          rw [unlines, List.intercalate_cons_of_ne_nil (List.cons_ne_nil _ _), List.append_assoc,
            List.singleton_append, filterMap_splitlines_append hf, ← unlines, ih]
          rfl

end

end OpenStarry.Lib.Text
