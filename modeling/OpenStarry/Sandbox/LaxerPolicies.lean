import OpenStarry.Sandbox.SystemTools

/-!
# Laxer policies

A command runs unasked when each of its segments does. More prefixes that are allowed, fewer that
need an approval and less control of system tools take that from no command.
-/

namespace OpenStarry.Sandbox

open Lib Lib.Text

variable {host : CommandHost} {policy policy' : SandboxPolicy}

/-! ### The best prefix -/

section

variable {platform : Platform} {words best : List Str} {prefixes : List (List Str)}

theorem longest_mem (first : List Str) (rest : List (List Str)) :
    longest (first :: rest) ∈ first :: rest := by
  rw [longest]
  induction rest generalizing first with
  | nil => exact List.mem_cons_self
  | cons next rest ih =>
      rw [List.foldl_cons]
      split_ifs
      · exact List.mem_cons_of_mem _ (ih next)
      · obtain heq | hmem := List.mem_cons.mp (ih first)
        · rw [heq]
          exact List.mem_cons_self
        · exact List.mem_cons_of_mem _ (List.mem_cons_of_mem _ hmem)

theorem returns_bestPrefix : Returns (bestPrefix host platform words prefixes) ↔
    ∀ tokens ∈ prefixes, Returns (validateCommandPrefix tokens) := by
  rw [bestPrefix, returns_map, returns_mapM]
  exact forall₂_congr fun tokens _ => returns_map.trans returns_map

theorem bestPrefix_ne_nil_iff (h : bestPrefix host platform words prefixes = .ok best) :
    best ≠ [] ↔ ∃ tokens ∈ prefixes, matchesPrefix host platform words tokens = .ok true := by
  rw [bestPrefix, map_eq_ok] at h
  obtain ⟨found, hfound, rfl⟩ := h
  have hall := mapM_eq_ok_iff_forall₂.mp hfound
  have hmatched : ∀ tokens, tokens ∈ found.filterMap id ↔
      tokens ∈ prefixes ∧ matchesPrefix host platform words tokens = .ok true := by
    intro tokens
    rw [List.mem_filterMap]
    constructor
    · rintro ⟨_, hx, rfl⟩
      obtain ⟨given, hgiven, hmap⟩ := exists_of_forall₂_right hall _ hx
      obtain ⟨matched, hmatch, hpick⟩ := map_eq_ok.mp hmap
      cases matched with
      | false => cases hpick
      | true =>
          obtain rfl := Option.some.inj hpick
          exact ⟨hgiven, hmatch⟩
    · rintro ⟨htokens, hmatch⟩
      obtain ⟨x, hx, hmap⟩ := exists_of_forall₂_left hall tokens htokens
      rw [hmatch] at hmap
      exact ⟨x, hx, (Except.ok.inj hmap).symm⟩
  cases hlist : found.filterMap id with
  | nil =>
      refine iff_of_false (not_not_intro rfl) ?_
      rintro ⟨tokens, hmatch⟩
      have hmem := (hmatched tokens).mpr hmatch
      rw [hlist] at hmem
      exact List.not_mem_nil hmem
  | cons first rest =>
      have hmem := longest_mem first rest
      rw [← hlist] at hmem ⊢
      refine iff_of_true (fun hempty => ?_) ⟨_, (hmatched _).mp hmem⟩
      -- An empty prefix is refused, so it matches nothing.
      rw [hempty] at hmem
      cases ((hmatched []).mp hmem).2

end

/-! ### One command -/

def RunsUnasked (host : CommandHost) (platform : Platform) (policy : SandboxPolicy)
    (words : List Str) : Prop :=
  words ≠ [] ∧
    (∀ tokens ∈ policy.commands.autoAllowPrefixes, Returns (validateCommandPrefix tokens)) ∧
    ((∃ tokens ∈ policy.commands.autoAllowPrefixes,
        matchesPrefix host platform words tokens = .ok true) ∨
      (∀ tokens ∈ policy.commands.requireApprovalPrefixes,
        Returns (validateCommandPrefix tokens) ∧
          matchesPrefix host platform words tokens ≠ .ok true) ∧
        (isSystemTool host platform words = true → policy.commands.systemTools = .auto) ∧
        isGitPush host platform words = false)

theorem action_decideTool_auto_iff {platform : Platform} {words : List Str} {tools : SystemTools} :
    (decideTool host platform words tools).action = .auto ↔
      (isSystemTool host platform words = true → tools = .auto) ∧
        isGitPush host platform words = false := by
  rw [decideTool]
  cases isSystemTool host platform words with
  | false => cases isGitPush host platform words <;> simp
  | true =>
      cases tools with
      | auto => cases isGitPush host platform words <;> simp
      | prompt => simp
      | disabled => simp

theorem decideCommand_auto_iff {platform : Option Str} {argv : List Str} :
    (decideCommand host platform argv policy).map CommandDecision.action = .ok .auto ↔
      ∃ words, stripWrappers host (platformName host platform) argv = .ok words ∧
        RunsUnasked host (platformName host platform) policy words := by
  rw [map_eq_ok, decideCommand]
  simp only [bind_eq_ok]
  constructor
  · rintro ⟨decision, ⟨words, hwords, h⟩, haction⟩
    refine ⟨words, hwords, ?_⟩
    split_ifs at h with hempty
    · rw [← pure_eq_ok.mp h] at haction
      cases haction
    · obtain ⟨auto, hauto, h⟩ := bind_eq_ok.mp h
      refine ⟨hempty, returns_bestPrefix.mp ⟨auto, hauto⟩, ?_⟩
      split_ifs at h with hmatch
      · exact .inl ((bestPrefix_ne_nil_iff hauto).mp hmatch)
      · obtain ⟨approval, happroval, h⟩ := bind_eq_ok.mp h
        split_ifs at h with hasks
        · rw [← pure_eq_ok.mp h] at haction
          cases haction
        · rw [← pure_eq_ok.mp h, action_decideTool_auto_iff] at haction
          have hreadable := returns_bestPrefix.mp ⟨approval, happroval⟩
          exact .inr ⟨fun tokens htokens => ⟨hreadable tokens htokens, fun hmatched =>
            hasks ((bestPrefix_ne_nil_iff happroval).mpr ⟨tokens, htokens, hmatched⟩)⟩, haction⟩
  · rintro ⟨words, hwords, hempty, hreadable, hruns⟩
    obtain ⟨auto, hauto⟩ := returns_bestPrefix.mpr hreadable
    by_cases hmatch : auto = []
    · obtain hallowed | ⟨hasks, htool⟩ := hruns
      · exact absurd hmatch ((bestPrefix_ne_nil_iff hauto).mpr hallowed)
      · obtain ⟨approval, happroval⟩ := returns_bestPrefix.mpr fun tokens htokens =>
          (hasks tokens htokens).1
        have hnone : approval = [] := by
          by_contra hne
          obtain ⟨tokens, htokens, hmatched⟩ := (bestPrefix_ne_nil_iff happroval).mp hne
          exact (hasks tokens htokens).2 hmatched
        refine ⟨_, ⟨words, hwords, ?_⟩, action_decideTool_auto_iff.mpr htool⟩
        rw [if_neg hempty]
        refine bind_eq_ok.mpr ⟨auto, hauto, ?_⟩
        rw [if_neg (not_not_intro hmatch)]
        refine bind_eq_ok.mpr ⟨approval, happroval, ?_⟩
        rw [if_neg (not_not_intro hnone)]
        rfl
    · refine ⟨{ action := .auto, code := "user_auto_allow", argv := words, matchedPrefix := auto },
        ⟨words, hwords, ?_⟩, rfl⟩
      rw [if_neg hempty]
      refine bind_eq_ok.mpr ⟨auto, hauto, ?_⟩
      rw [if_pos hmatch]
      rfl

/-! ### A shell command -/

theorem strictest_auto_iff (decisions : List CommandDecision) :
    (strictest decisions).action = .auto ↔ ∀ decision ∈ decisions, decision.action = .auto := by
  have hfound : ∀ action, action ≠ CommandAction.auto → ∀ decision,
      decisions.find? (fun decision => decision.action = action) = some decision →
      (decision.action = .auto ↔ ∀ decision ∈ decisions, decision.action = .auto) := by
    intro action hne decision hfind
    have haction : decision.action = action := by simpa using List.find?_some hfind
    refine iff_of_false (fun hauto => hne (haction.symm.trans hauto)) fun hall => ?_
    exact hne (haction.symm.trans (hall decision (List.mem_of_find?_eq_some hfind)))
  unfold strictest
  cases hdeny : decisions.find? fun decision => decision.action = .deny with
  | some decision => exact hfound .deny (by decide) decision hdeny
  | none =>
      cases happroval : decisions.find? fun decision => decision.action = .approval with
      | some decision => exact hfound .approval (by decide) decision happroval
      | none =>
          refine iff_of_true rfl fun decision hdecision => ?_
          have hnoDeny := List.find?_eq_none.mp hdeny decision hdecision
          have hnoApproval := List.find?_eq_none.mp happroval decision hdecision
          rw [decide_eq_true_eq] at hnoDeny hnoApproval
          cases haction : decision.action with
          | auto => rfl
          | approval => exact absurd haction hnoApproval
          | deny => exact absurd haction hnoDeny

structure Laxer (policy policy' : SandboxPolicy) : Prop where
  allows : policy.commands.autoAllowPrefixes ⊆ policy'.commands.autoAllowPrefixes
  asks : policy'.commands.requireApprovalPrefixes ⊆ policy.commands.requireApprovalPrefixes
  tools : policy.commands.systemTools = .auto → policy'.commands.systemTools = .auto
  readable : ∀ tokens ∈ policy'.commands.autoAllowPrefixes, Returns (validateCommandPrefix tokens)

theorem RunsUnasked.laxer {platform : Platform} {words : List Str}
    (h : RunsUnasked host platform policy words) (hlaxer : Laxer policy policy') :
    RunsUnasked host platform policy' words := by
  obtain ⟨hempty, -, hruns⟩ := h
  refine ⟨hempty, hlaxer.readable, ?_⟩
  obtain ⟨tokens, htokens, hmatched⟩ | ⟨hasks, htools, hpush⟩ := hruns
  · exact .inl ⟨tokens, hlaxer.allows htokens, hmatched⟩
  · exact .inr ⟨fun tokens htokens => hasks tokens (hlaxer.asks htokens),
      fun htool => hlaxer.tools (htools htool), hpush⟩

/-- A shell command that runs unasked under a policy runs unasked under every laxer one. -/
theorem laxer_policy_runs_unasked {host : CommandHost} {policy policy' : SandboxPolicy}
    {platform : Option Str} {command : Str} (hlaxer : Laxer policy policy')
    (hruns : (decideShellCommand host platform command policy).map CommandDecision.action =
      .ok .auto) :
    (decideShellCommand host platform command policy').map CommandDecision.action = .ok .auto := by
  unfold decideShellCommand at hruns ⊢
  cases hparse : parseShellSegments host platform command with
  | error err =>
      rw [hparse] at hruns
      cases hruns
  | ok segments =>
      rw [hparse] at hruns
      obtain ⟨_, hdecided, haction⟩ := map_eq_ok.mp hruns
      obtain ⟨decisions, hdecisions, rfl⟩ := map_eq_ok.mp hdecided
      have hall := mapM_eq_ok_iff_forall₂.mp hdecisions
      rw [strictest_auto_iff] at haction
      have hsegments : ∀ segment ∈ segments, ∃ decision,
          decideCommand host platform segment.argv policy' = .ok decision ∧
            decision.action = .auto := by
        intro segment hsegment
        obtain ⟨decision, hdecision, hok⟩ := exists_of_forall₂_left hall segment hsegment
        obtain ⟨words, hwords, hunasked⟩ := decideCommand_auto_iff.mp
          (map_eq_ok.mpr ⟨decision, hok, haction decision hdecision⟩)
        exact map_eq_ok.mp (decideCommand_auto_iff.mpr ⟨words, hwords, hunasked.laxer hlaxer⟩)
      obtain ⟨laxDecisions, hlax⟩ := exists_forall₂ hsegments
      refine map_eq_ok.mpr ⟨strictest laxDecisions, map_eq_ok.mpr ⟨laxDecisions,
        mapM_eq_ok_iff_forall₂.mpr (hlax.imp fun _ _ h => h.1), rfl⟩, ?_⟩
      rw [strictest_auto_iff]
      intro decision hdecision
      obtain ⟨_, -, -, hauto⟩ := exists_of_forall₂_right hlax decision hdecision
      exact hauto

def makePolicy (prefixes : List (List Str)) : SandboxPolicy :=
  { commands := { autoAllowPrefixes := prefixes } }

theorem laxer_policy_runs_unasked_make :
    (decideShellCommand asciiHost (some "linux".toList) "make test && ls".toList
      (makePolicy [["git".toList, "push".toList]])).map CommandDecision.action = .ok .auto := by
  have hlaxer : Laxer (makePolicy []) (makePolicy [["git".toList, "push".toList]]) := by
    refine ⟨List.nil_subset _, List.Subset.refl _, id, fun tokens htokens => ?_⟩
    rw [List.mem_singleton.mp htokens]
    exact ⟨["git".toList, "push".toList], by decide +kernel⟩
  exact laxer_policy_runs_unasked hlaxer (by decide +kernel)

end OpenStarry.Sandbox
