import OpenStarry.Compaction.RoundBoundaries

/-!
# Calls and their results stay together

A compaction keeps calls and results together exactly when no place a cut can come to rest at lies
between a call and its result. Rounds are closed by every request of the user and by every final
answer, also while a call is open, so such places exist.
-/

namespace OpenStarry.Compaction

open Lib Lib.Text

/-- `asked i j` says that the tool result in entry `j` was requested by the call in entry `i`. -/
def SplitAt (asked : Nat → Nat → Prop) (cut : Nat) : Prop :=
  ∃ i j, asked i j ∧ i < cut ∧ cut ≤ j

def Unsplit (texts : Texts) (entries : List Entry) (asked : Nat → Nat → Prop) : Prop :=
  ∀ b ∈ apiRoundBoundaries texts entries, ¬ SplitAt asked (landing texts entries b)

def RoundsLand (texts : Texts) (entries : List Entry) : Prop :=
  ∀ b ∈ apiRoundBoundaries texts entries,
    landing texts entries b ∈ apiRoundBoundaries texts entries

def KeepsPairs (env : Env) (entries : List Entry) (asked : Nat → Nat → Prop) : Prop :=
  ∀ request r, request.entries = entries → compactContextNew env request = .ok r →
    r.skipReason = none → ∀ i j, asked i j → r.removedCount ≤ j → r.removedCount ≤ i

variable {env : Env} {entries : List Entry} {asked : Nat → Nat → Prop}

theorem keepsPairs_of_unsplit (hunsplit : Unsplit env.texts entries asked) :
    KeepsPairs env entries asked := by
  intro request r hentries hr _ i j hasked hj
  obtain hunchanged | ⟨forced, hforced, -, -, hremoved, -⟩ := compactContextNew_cases hr
  · rw [hunchanged.2.1]
    exact Nat.zero_le i
  · have hlength := (chooseCut_le hforced).1.trans (protectedStart_le _ _)
    rw [List.length_take_of_le hlength] at hremoved
    rw [hremoved] at hj ⊢
    by_contra hlt
    -- The cut is zero, or a boundary moved back: a forced cut is moved back to itself.
    have hrest : chooseCut env request forced = 0 ∨ ∃ b ∈ apiRoundBoundaries env.texts entries,
        landing env.texts entries b = chooseCut env request forced := by
      unfold chooseCut
      split_ifs
      · exact Or.inl rfl
      · cases forced with
        | none =>
            refine Or.inr ⟨_, (roundStart_spec entries (protectedCut env request)).1, ?_⟩
            rw [Option.getD_none, retreatToApiRoundBoundary_eq, hentries]
        | some cut =>
            obtain ⟨-, hboundary, -⟩ := validateForcedPrefixCut_spec hforced
            rw [hentries] at hforced hboundary
            exact Or.inr ⟨cut, hboundary, (validateForcedPrefixCut_landing hforced)⟩
    obtain hzero | ⟨b, hb, hland⟩ := hrest
    · omega
    · exact hunsplit b hb (hland ▸ ⟨i, j, hasked, not_le.mp hlt, hj⟩)

/-! ### A caller can cut at every place where a cut rests -/

def unprotectedConfig : CompactionConfig where
  overBudget _ _ := false
  compactionProfile := .conversation
  protectedRecentMessages := 0
  protectSemanticTail := false
  coverageBlocking := false
  networkEnabled := false
  llmCallLimit := 2

def cutRequest (entries : List Entry) (window : Int) (cut : Nat) : CompactionRequest where
  entries
  contextWindowTokens := window
  contextWindowChars := none
  config := unprotectedConfig
  customInstructions := none
  previousSummary := none
  summaryReplayRenderer := none
  consumerAdmission := none
  forcedPrefixCut := .int cut
  trigger := .messageCount

theorem validate_cutRequest {cut : Nat} (hpos : 0 < cut) (hle : cut ≤ entries.length)
    (hboundary : cut ∈ apiRoundBoundaries env.texts entries)
    (hland : landing env.texts entries cut = cut) :
    validateForcedPrefixCut env entries (.int cut) unprotectedConfig = .ok (some cut) := by
  have hrange : ¬ ((cut : Int) ≤ 0 ∨ (entries.length : Int) < cut) := by omega
  have hprotected : applyProtectedTail env.texts entries cut unprotectedConfig = cut := by
    have htail : protectedStart entries unprotectedConfig = entries.length := rfl
    have hlive : semanticStart env.texts entries unprotectedConfig = entries.length := rfl
    rw [applyProtectedTail, htail, hlive]
    omega
  rw [validateForcedPrefixCut]
  simp only [Int.toNat_natCast]
  rw [if_neg hrange, if_neg (by rw [retreatToTurnBoundary_eq, hland]; simp),
    if_neg (by rw [hprotected]; simp),
    if_neg (by rw [retreatToApiRoundBoundary_eq, roundStart_of_boundary hboundary, hland]; simp)]
  rfl

def plainSummary (env : Env) (entries : List Entry) (cut : Nat) : StructuredSummary :=
  (env.structuredSummary (env.fallbackText [] (entries.take cut)) (entries.take cut) false 0).1

def justEnough (env : Env) (entries : List Entry) (cut : Nat) : Nat :=
  env.estimateTokens (env.render (plainSummary env entries cut)) + tokensOf env (entries.drop cut)

theorem boundedSummary_cutRequest (cut : Nat) :
    boundedSummary env (cutRequest entries (justEnough env entries cut) cut) (entries.drop cut)
      (plainSummary env entries cut) = plainSummary env entries cut := by
  have hfits : (env.estimateTokens (env.render (plainSummary env entries cut)) : Int) ≤
      max 1 (max 1 ((justEnough env entries cut : Int) - tokensOf env (entries.drop cut) - 0)) := by
    unfold justEnough
    omega
  unfold boundedSummary fitStructuredSummaryCurrentStatus
  dsimp only
  rw [if_pos]
  rw [decide_eq_true_eq]
  exact ⟨hfits, rfl⟩

theorem finish_cutRequest {cut : Nat} (hpos : 0 < cut) (hle : cut ≤ entries.length)
    {sizes : Sizes} (hprevious : sizes.previousSummary = [])
    (htokens : sizes.previousSummaryTokens = 0) (chunks fallbacks : Nat) :
    CutsAt (cutRequest entries (justEnough env entries cut) cut) cut
      (finish env (cutRequest entries (justEnough env entries cut) cut) sizes cut false chunks
        ⟨env.fallbackText [] (entries.take cut), 0, fallbacks⟩) := by
  have hobligations : obligationEntries sizes (entries.take cut) = entries.take cut := by
    rw [obligationEntries, if_pos hprevious]
  apply @finish_cuts env _ sizes cut chunks _ (plainSummary env entries cut) rfl rfl
  · rw [hprevious, htokens]
    show boundedSummary env _ _ (env.structuredSummary _ (obligationEntries sizes
      (entries.take cut)) false 0).1 = _
    rw [hobligations]
    exact boundedSummary_cutRequest cut
  · have hremoved : 0 < (entries.take cut).length := by
      rw [List.length_take_of_le hle]
      exact hpos
    simp only [compactionQualityReport, decide_eq_true_eq]
    exact ⟨Or.inl hremoved, Or.inl rfl, Int.le_refl (justEnough env entries cut : Int), rfl,
      Or.inr rfl⟩

theorem compactContextNew_forced {request : CompactionRequest} {cut : Nat}
    (hvalid : validateForcedPrefixCut env request.entries request.forcedPrefixCut
      request.config = .ok (some cut)) (htake : request.entries.take cut ≠ []) :
    compactContextNew env request =
      summarizeAndFinish env request (sizesOf env request) cut false := by
  have hentries : request.entries ≠ [] := by
    intro hnil
    rw [hnil, List.take_nil] at htake
    exact htake rfl
  have hcut : chooseCut env request (some cut) = cut := by
    rw [chooseCut, if_neg hentries, Option.getD_some]
  unfold compactContextNew
  dsimp only
  rw [if_neg fun h => hentries h.1, hvalid]
  dsimp only
  unfold compactAt
  dsimp only
  rw [if_neg fun h => absurd h.1 (by simp), hcut, if_pos htake]

theorem summarizeAndFinish_plain {request : CompactionRequest}
    (hnetwork : request.config.networkEnabled = false) (sizes : Sizes) (cut : Nat) :
    summarizeAndFinish env request sizes cut false =
      .ok (finish env request sizes cut false 1
        ⟨env.fallbackText sizes.previousSummary (request.entries.take cut), 0, 1⟩) := by
  have hplan : planChunks env request (request.entries.take cut) false =
      ([request.entries.take cut], 0) := by
    simp [planChunks, hnetwork]
  unfold summarizeAndFinish
  rw [hplan]
  simp [prepruned, summarizeChunks, askModel, hnetwork, rollChunk, Except.map, pure, Except.pure,
    bind, Except.bind]

theorem cutRequest_cuts {cut : Nat} (hpos : 0 < cut) (hle : cut ≤ entries.length)
    (hboundary : cut ∈ apiRoundBoundaries env.texts entries)
    (hland : landing env.texts entries cut = cut) :
    ∃ r, compactContextNew env (cutRequest entries (justEnough env entries cut) cut) = .ok r ∧
      CutsAt (cutRequest entries (justEnough env entries cut) cut) cut r := by
  have htake : entries.take cut ≠ [] := by
    apply List.ne_nil_of_length_pos
    rw [List.length_take_of_le hle]
    exact hpos
  have hforced := @compactContextNew_forced env
    (cutRequest entries (justEnough env entries cut) cut) cut
    (validate_cutRequest hpos hle hboundary hland) htake
  rw [summarizeAndFinish_plain rfl] at hforced
  exact ⟨_, hforced, finish_cutRequest hpos hle rfl rfl 1 1⟩

theorem mem_offsets_le {start : Nat} {groups : List (List Entry)} {b : Nat}
    (hb : b ∈ offsets start groups) : b ≤ start + groups.flatten.length := by
  induction groups generalizing start with
  | nil => exact absurd hb List.not_mem_nil
  | cons group rest ih =>
      rw [List.flatten_cons, List.length_append]
      rw [offsets, List.mem_cons] at hb
      rcases hb with rfl | hb
      · omega
      · have := ih hb
        omega

theorem flush_flatten (g : Grouping) :
    g.flush.groups.flatten ++ g.flush.current = g.groups.flatten ++ g.current := by
  unfold Grouping.flush
  split_ifs with hnil
  · rfl
  · simp

theorem groupStep_flatten (texts : Texts) (g : Grouping) (entry : Entry) :
    (groupStep texts g entry).groups.flatten ++ (groupStep texts g entry).current =
      g.groups.flatten ++ g.current ++ [entry] := by
  have hbefore : (closeBefore texts g entry).groups.flatten ++ (closeBefore texts g entry).current =
      g.groups.flatten ++ g.current := by
    unfold closeBefore
    dsimp only
    split_ifs
    · exact flush_flatten g
    · exact flush_flatten g
    · rfl
    · rfl
  have happend : ((closeBefore texts g entry).append entry).groups.flatten ++
      ((closeBefore texts g entry).append entry).current = g.groups.flatten ++ g.current ++ [entry] := by
    rw [← hbefore, Grouping.append, List.append_assoc]
  rw [← happend]
  unfold groupStep closeAfter
  split_ifs
  · rfl
  · rfl
  · exact flush_flatten _
  · rfl

theorem apiRoundGroups_flatten (texts : Texts) (entries : List Entry) :
    (apiRoundGroups texts entries).flatten = entries := by
  have hfold : ∀ (rest : List Entry) (g : Grouping),
      (rest.foldl (groupStep texts) g).groups.flatten ++ (rest.foldl (groupStep texts) g).current =
        g.groups.flatten ++ g.current ++ rest := by
    intro rest
    induction rest with
    | nil => intro g; simp
    | cons entry rest ih =>
        intro g
        rw [List.foldl_cons, ih, groupStep_flatten, List.append_assoc, List.singleton_append]
  have hend := flush_flatten (entries.foldl (groupStep texts) ⟨[], []⟩)
  have hnone : (entries.foldl (groupStep texts) ⟨[], []⟩).flush.current = [] := by
    unfold Grouping.flush
    split_ifs with hnil
    · exact hnil
    · rfl
  rw [hnone, List.append_nil, hfold] at hend
  exact hend

theorem boundary_le_length {texts : Texts} {b : Nat} (hb : b ∈ apiRoundBoundaries texts entries) :
    b ≤ entries.length := by
  rcases List.mem_cons.mp hb with rfl | hb
  · exact Nat.zero_le _
  · have hle := mem_offsets_le hb
    rw [apiRoundGroups_flatten] at hle
    omega

/-- Calls and results stay together in every compaction when no place a cut rests at lies between
them; and only then, as far as cuts rest at round boundaries. -/
theorem compact_keepsPairs_iff (env : Env) (entries : List Entry) (asked : Nat → Nat → Prop) :
    (Unsplit env.texts entries asked → KeepsPairs env entries asked) ∧
      (RoundsLand env.texts entries →
        (KeepsPairs env entries asked ↔ Unsplit env.texts entries asked)) := by
  refine ⟨keepsPairs_of_unsplit, fun hlands => ⟨?_, keepsPairs_of_unsplit⟩⟩
  rintro hkeeps b hb ⟨i, j, hasked, hi, hj⟩
  have hboundary := hlands b hb
  have hle := boundary_le_length hboundary
  obtain ⟨r, hr, hcuts⟩ := @cutRequest_cuts env entries _ (by omega) hle hboundary
    (landing_landing entries b)
  obtain ⟨hskip, -, hremoved, -⟩ := hcuts
  have hcount : r.removedCount = landing env.texts entries b :=
    hremoved.trans (List.length_take_of_le hle)
  have := hkeeps _ r rfl hr hskip i j hasked (by omega)
  omega

def steeredCall : List Entry :=
  [row "assistant" "" [("tool_calls".toList, .arr
      [.obj [("type".toList, .str "tool_use".toList), ("id".toList, .str "a".toList)]])],
    row "user" "and hurry" [],
    row "tool" "done" [("tool_call_id".toList, .str "a".toList)]]

/-- The message of the user closes the round of the open call: a cut between the two is accepted,
and the result is kept without its call. -/
theorem steered_result_loses_call :
    isCallAt plainEnv.texts steeredCall 0 = true ∧ isResultAt plainEnv.texts steeredCall 2 = true ∧
      ¬ KeepsPairs plainEnv steeredCall fun i j => i = 0 ∧ j = 2 := by
  refine ⟨by decide, by decide, fun hkeeps => ?_⟩
  obtain ⟨r, hr, hskip, -, hremoved, -⟩ := @cutRequest_cuts plainEnv steeredCall 1 (by decide)
    (by decide) (by decide) (by decide)
  have hcount : r.removedCount = 1 := hremoved
  have := hkeeps _ r rfl hr hskip 0 2 ⟨rfl, rfl⟩ (by omega)
  omega

end OpenStarry.Compaction
