import OpenStarry.Compaction.Cuts

/-!
# What a compaction returns

Every result keeps a suffix of the entries. A result that removes something has passed the gates,
and its cut is behind neither protection; it stands at a round boundary when moving it back from
one leads to one.
-/

namespace OpenStarry.Compaction

open Lib Lib.Text

variable {env : Env} {request : CompactionRequest} {r : CompactionResult}

/-- What a compaction promises of its result. -/
structure Sound (env : Env) (request : CompactionRequest) (r : CompactionResult) : Prop where
  suffix : r.keptEntries = request.entries.drop r.removedCount
  start : r.keptStartIndex = r.removedCount
  skipped : r.skipReason ≠ none → r.removedCount = 0 ∧ r.keptEntries = request.entries
  boundary : 0 < r.removedCount →
    r.removedCount ∈ apiRoundBoundaries env.texts request.entries
  protectedTail : 0 < r.removedCount →
    r.removedCount ≤ protectedStart request.entries request.config
  liveRound : 0 < r.removedCount →
    r.removedCount ≤ semanticStart env.texts request.entries request.config
  fits : 0 < r.removedCount → (r.tokensAfter : Int) ≤ request.contextWindowTokens

def LandsOnRound (env : Env) (request : CompactionRequest) : Prop :=
  request.forcedPrefixCut ≠ .none ∨
    landing env.texts request.entries
        (roundStart env.texts request.entries (protectedCut env request)) ∈
      apiRoundBoundaries env.texts request.entries

/-! ### The ways to a result -/

def Unchanged (request : CompactionRequest) (r : CompactionResult) : Prop :=
  r.keptEntries = request.entries ∧ r.removedCount = 0 ∧ r.keptStartIndex = 0

def CutsAt (request : CompactionRequest) (cut : Nat) (r : CompactionResult) : Prop :=
  r.skipReason = none ∧ r.keptEntries = request.entries.drop cut ∧
    r.removedCount = (request.entries.take cut).length ∧ r.keptStartIndex = cut ∧
    (r.tokensAfter : Int) ≤ request.contextWindowTokens

theorem skipped_unchanged (request : CompactionRequest) (tokens : Nat) (reason : String) :
    Unchanged request (skipped request tokens reason) := ⟨rfl, rfl, rfl⟩

theorem fits_of_passes {kept : List Entry} {before after removed chars : Nat} {replaces : Bool}
    (hpasses : (compactionQualityReport request kept before after removed chars
      replaces).passesStructuralGate = true) : (after : Int) ≤ request.contextWindowTokens := by
  simp only [compactionQualityReport, decide_eq_true_eq] at hpasses
  exact hpasses.2.2.1

theorem finish_cases (sizes : Sizes) (cut : Nat) (replaceOnly : Bool) (chunks : Nat)
    (rolling : Rolling) :
    Unchanged request (finish env request sizes cut replaceOnly chunks rolling) ∨
      CutsAt request cut (finish env request sizes cut replaceOnly chunks rolling) := by
  unfold finish
  dsimp only
  split_ifs with hblocked hrejected hfails
  · exact Or.inl ⟨rfl, rfl, rfl⟩
  · exact Or.inl ⟨rfl, rfl, rfl⟩
  · exact Or.inl ⟨rfl, rfl, rfl⟩
  · rw [Bool.not_eq_true', Bool.not_eq_false] at hfails
    exact Or.inr ⟨rfl, rfl, rfl, rfl, fits_of_passes hfails⟩

theorem finish_cuts {sizes : Sizes} {cut chunks : Nat} {rolling : Rolling}
    {summary : StructuredSummary} (hcoverage : request.config.coverageBlocking = false)
    (hadmission : request.consumerAdmission = none)
    (hsummary : boundedSummary env request (request.entries.drop cut)
      (env.structuredSummary rolling.text (obligationEntries sizes (request.entries.take cut))
        (sizes.previousSummary ≠ []) sizes.previousSummaryTokens).1 = summary)
    (hpasses : (compactionQualityReport request (request.entries.drop cut) sizes.totalTokens
      (env.estimateTokens (replayed request (env.render summary)) +
        tokensOf env (request.entries.drop cut)) (request.entries.take cut).length
      ((replayed request (env.render summary)).length + replayChars env (request.entries.drop cut))
      false).passesStructuralGate = true) :
    CutsAt request cut (finish env request sizes cut false chunks rolling) := by
  unfold finish
  dsimp only
  rw [hsummary, if_neg (by simp [hcoverage]), if_neg (by simp [hadmission]),
    if_neg (by rw [hpasses]; exact Bool.false_ne_true)]
  exact ⟨rfl, rfl, rfl, rfl, fits_of_passes hpasses⟩

theorem summarizeAndFinish_cases {sizes : Sizes} {cut : Nat} {replaceOnly : Bool}
    (hr : summarizeAndFinish env request sizes cut replaceOnly = .ok r) :
    Unchanged request r ∨ CutsAt request cut r := by
  obtain ⟨rolling, -, rfl⟩ := map_eq_ok.mp hr
  exact finish_cases sizes cut replaceOnly _ rolling

theorem validateForcedPrefixCut_spec {entries : List Entry} {forced : PrefixCut}
    {cfg : CompactionConfig} {cut : Nat}
    (hcut : validateForcedPrefixCut env entries forced cfg = .ok (some cut)) :
    forced ≠ .none ∧ cut ∈ apiRoundBoundaries env.texts entries ∧
      applyProtectedTail env.texts entries cut cfg = cut := by
  unfold validateForcedPrefixCut at hcut
  cases forced with
  | none => cases hcut
  | other => cases hcut
  | int n =>
      dsimp only at hcut
      split_ifs at hcut with hrange hturn hprotected hround
      cases hcut
      refine ⟨by simp, boundary_of_retreat_eq (not_not.mp hround), not_not.mp hprotected⟩

theorem validateForcedPrefixCut_landing {entries : List Entry} {forced : PrefixCut}
    {cfg : CompactionConfig} {cut : Nat}
    (hcut : validateForcedPrefixCut env entries forced cfg = .ok (some cut)) :
    landing env.texts entries cut = cut := by
  unfold validateForcedPrefixCut at hcut
  cases forced with
  | none => cases hcut
  | other => cases hcut
  | int n =>
      dsimp only at hcut
      split_ifs at hcut with hrange hturn
      cases hcut
      rw [← retreatToTurnBoundary_eq]
      exact not_not.mp hturn

theorem validateForcedPrefixCut_none {entries : List Entry} {forced : PrefixCut}
    {cfg : CompactionConfig}
    (hcut : validateForcedPrefixCut env entries forced cfg = .ok none) : forced = .none := by
  unfold validateForcedPrefixCut at hcut
  cases forced with
  | none => rfl
  | other => cases hcut
  | int n =>
      dsimp only at hcut
      split_ifs at hcut
      cases hcut

theorem CutsAt.zero (hr : CutsAt request 0 r) : Unchanged request r := by
  obtain ⟨-, hkept, hremoved, hstart, -⟩ := hr
  exact ⟨hkept, hremoved, hstart⟩

theorem compactContextNew_cases (hr : compactContextNew env request = .ok r) :
    Unchanged request r ∨
      ∃ forced, validateForcedPrefixCut env request.entries request.forcedPrefixCut
        request.config = .ok forced ∧ CutsAt request (chooseCut env request forced) r := by
  unfold compactContextNew at hr
  dsimp only at hr
  split_ifs at hr with hempty
  · cases pure_eq_ok.mp hr
    exact Or.inl ⟨rfl, rfl, rfl⟩
  · cases hforced : validateForcedPrefixCut env request.entries request.forcedPrefixCut
      request.config with
    | error reason =>
        rw [hforced] at hr
        cases pure_eq_ok.mp hr
        exact Or.inl (skipped_unchanged request _ reason)
    | ok forced =>
        rw [hforced] at hr
        dsimp only at hr
        unfold compactAt at hr
        dsimp only at hr
        split_ifs at hr
        · cases pure_eq_ok.mp hr
          exact Or.inl (skipped_unchanged request _ _)
        · exact (summarizeAndFinish_cases hr).imp_right fun hcut => ⟨forced, rfl, hcut⟩
        · exact Or.inl ((summarizeAndFinish_cases hr).elim (fun h => h) CutsAt.zero)
        all_goals
          cases pure_eq_ok.mp hr
          exact Or.inl (skipped_unchanged request _ _)

/-! ### Results that remove something -/

theorem chooseCut_le {forced : Option Nat}
    (hforced : validateForcedPrefixCut env request.entries request.forcedPrefixCut
      request.config = .ok forced) :
    chooseCut env request forced ≤ protectedStart request.entries request.config ∧
      chooseCut env request forced ≤ semanticStart env.texts request.entries request.config := by
  have hclip : ∀ cut, applyProtectedTail env.texts request.entries cut request.config ≤
        protectedStart request.entries request.config ∧
      applyProtectedTail env.texts request.entries cut request.config ≤
        semanticStart env.texts request.entries request.config := by
    intro cut
    unfold applyProtectedTail
    omega
  unfold chooseCut
  split_ifs
  · exact ⟨Nat.zero_le _, Nat.zero_le _⟩
  · cases forced with
    | none =>
        have hback := @retreatToApiRoundBoundary_le env.texts request.entries
          (protectedCut env request)
        have hprotected := hclip (findTurnBoundaryCut env request.entries
          (request.contextWindowTokens / 2)
          (request.contextWindowChars.map fun chars => max 1 (chars / 2)))
        exact ⟨hback.trans hprotected.1, hback.trans hprotected.2⟩
    | some cut =>
        have hcut := (validateForcedPrefixCut_spec hforced).2.2
        have hprotected := hclip cut
        rw [hcut] at hprotected
        exact hprotected

theorem protectedStart_le (entries : List Entry) (cfg : CompactionConfig) :
    protectedStart entries cfg ≤ entries.length := by
  unfold protectedStart
  dsimp only
  split_ifs <;> omega

theorem chooseCut_boundary_iff {forced : Option Nat}
    (hforced : validateForcedPrefixCut env request.entries request.forcedPrefixCut
      request.config = .ok forced) (hentries : request.entries ≠ []) :
    chooseCut env request forced ∈ apiRoundBoundaries env.texts request.entries ↔
      LandsOnRound env request := by
  rw [chooseCut, if_neg hentries, LandsOnRound]
  cases forced with
  | none =>
      rw [Option.getD_none, retreatToApiRoundBoundary_eq, validateForcedPrefixCut_none hforced]
      simp
  | some cut =>
      obtain ⟨hgiven, hboundary, -⟩ := validateForcedPrefixCut_spec hforced
      exact iff_of_true hboundary (Or.inl hgiven)

theorem Unchanged.sound (hr : Unchanged request r) : Sound env request r := by
  obtain ⟨hkept, hremoved, hstart⟩ := hr
  have hnone : ¬ 0 < r.removedCount := by omega
  constructor
  · rw [hkept, hremoved, List.drop_zero]
  · rw [hstart, hremoved]
  · exact fun _ => ⟨hremoved, hkept⟩
  · exact fun h => absurd h hnone
  · exact fun h => absurd h hnone
  · exact fun h => absurd h hnone
  · exact fun h => absurd h hnone

def plainEnv : Env where
  texts := ⟨fun s => s.map Char.toLower, Json.dumps⟩
  estimateTokens text := text.length / 4
  jsonText := Json.dumpsWith Json.defaultSeparators
  intOf
    | .num n => some (Text.intOf n.text)
    | _ => some 0
  chunkEntries _ entries := [entries]
  callModel _ _ _ := .ok none
  fallbackText previous _ := previous ++ "...".toList
  structuredSummary merged _ _ _ := (⟨merged, .null⟩, false)
  render summary := summary.currentStatus

def plainConfig : CompactionConfig where
  overBudget total window := window < total * 12 / 10
  compactionProfile := .conversation
  protectedRecentMessages := 0
  protectSemanticTail := true
  coverageBlocking := true
  networkEnabled := false
  llmCallLimit := 2

def plainRequest (entries : List Entry) : CompactionRequest where
  entries
  contextWindowTokens := 1000
  contextWindowChars := none
  config := plainConfig
  customInstructions := none
  previousSummary := none
  summaryReplayRenderer := none
  consumerAdmission := none
  forcedPrefixCut := .none
  trigger := .tokenBudget

def row (role text : String) (fields : Dict) : Entry :=
  [("role".toList, .str role.toList), ("content".toList, .str text.toList)] ++ fields

def tokenCount (n : Number) : Str × Json := ("token_count".toList, .num n)

def turnSegments (id : String) : Str × Json :=
  ("tool_calls".toList, .arr
    [.obj [("type".toList, .str "tool_use".toList), ("id".toList, .str id.toList)],
      .obj [("type".toList, .str "tool_result".toList), ("tool_use_id".toList, .str id.toList),
        ("result".toList, .str [])]])

def twoTurns : List Entry :=
  [row "user" "go" [tokenCount ⟨"500".toList, by decide⟩],
    row "assistant" "" [turnSegments "a", tokenCount ⟨"100".toList, by decide⟩],
    row "assistant" "" [turnSegments "b", tokenCount ⟨"600".toList, by decide⟩]]

def protectedLastRow : CompactionRequest :=
  { plainRequest twoTurns with config := { plainConfig with protectedRecentMessages := 1 } }

theorem exists_of_removedCount {env : Env} {request : CompactionRequest} {n : Nat}
    (hcount : (compactContextNew env request).toOption.map (·.removedCount) = some n) :
    ∃ r, compactContextNew env request = .ok r ∧ r.removedCount = n := by
  obtain ⟨r, hr, hn⟩ := Option.map_eq_some_iff.mp hcount
  exact ⟨r, toOption_eq_some.mp hr, hn⟩

def twoAnswers : List Entry :=
  [row "user" "go" [tokenCount ⟨"500".toList, by decide⟩],
    row "assistant" "done" [tokenCount ⟨"100".toList, by decide⟩],
    row "user" "on" [tokenCount ⟨"200".toList, by decide⟩],
    row "assistant" "done" [tokenCount ⟨"100".toList, by decide⟩]]

end OpenStarry.Compaction
