import OpenStarry.Lib.Outcome
import OpenStarry.Sandbox.Wrappers

/-!
# Control of system tools

The catalogue is consulted with the words that are left when wrappers are taken away. `sudo` is in
the catalogue and is itself a wrapper, so it is controlled only through what it runs.
-/

namespace OpenStarry.Sandbox

open Lib Lib.Text Lib.Shlex

variable {host : CommandHost} {policy : SandboxPolicy}

/-! ### Prefixes that match nothing -/

def allPrefixes (policy : SandboxPolicy) : List (List Str) :=
  policy.commands.autoAllowPrefixes ++ policy.commands.requireApprovalPrefixes

def PrefixesReadable (policy : SandboxPolicy) : Prop :=
  ∀ tokens ∈ allPrefixes policy, Returns (validateCommandPrefix tokens)

def NoPrefixMatches (host : CommandHost) (platform : Platform) (policy : SandboxPolicy)
    (words : List Str) : Prop :=
  ∀ tokens ∈ allPrefixes policy, matchesPrefix host platform words tokens ≠ .ok true

theorem bestPrefix_eq_ok_iff {platform : Platform} {words best : List Str}
    {prefixes : List (List Str)}
    (hnone : ∀ tokens ∈ prefixes, matchesPrefix host platform words tokens ≠ .ok true) :
    bestPrefix host platform words prefixes = .ok best ↔
      (∀ tokens ∈ prefixes, Returns (validateCommandPrefix tokens)) ∧ best = [] := by
  have hpart : ∀ tokens ∈ prefixes, ∀ found : Option (List Str),
      (matchesPrefix host platform words tokens).map (fun found =>
        if found then some tokens else none) = .ok found ↔
          Returns (validateCommandPrefix tokens) ∧ found = none := by
    intro tokens htokens found
    have hreturns : Returns (matchesPrefix host platform words tokens) ↔
        Returns (validateCommandPrefix tokens) := returns_map
    rw [← hreturns, map_eq_ok]
    constructor
    · rintro ⟨matched, hmatched, rfl⟩
      refine ⟨⟨matched, hmatched⟩, ?_⟩
      cases matched with
      | true => exact absurd hmatched (hnone tokens htokens)
      | false => rfl
    · rintro ⟨⟨matched, hmatched⟩, rfl⟩
      refine ⟨matched, hmatched, ?_⟩
      cases matched with
      | true => exact absurd hmatched (hnone tokens htokens)
      | false => rfl
  have hempty : longest ((prefixes.map fun _ : List Str => (none : Option (List Str))).filterMap id)
      = [] := by
    have hfilter :
        (prefixes.map fun _ : List Str => (none : Option (List Str))).filterMap id = [] := by
      rw [List.filterMap_map, List.filterMap_eq_nil_iff]
      exact fun _ _ => rfl
    rw [hfilter]
    rfl
  rw [bestPrefix, map_eq_ok]
  constructor
  · rintro ⟨found, hfound, rfl⟩
    obtain ⟨hreadable, rfl⟩ := (mapM_eq_ok hpart).mp hfound
    exact ⟨hreadable, hempty⟩
  · rintro ⟨hreadable, rfl⟩
    exact ⟨_, (mapM_eq_ok hpart).mpr ⟨hreadable, rfl⟩, hempty⟩

theorem decideCommand_eq_ok_iff {platform : Option Str} {argv tokens : List Str}
    (hstrip : stripWrappers host (platformName host platform) argv = .ok tokens)
    (hnone : NoPrefixMatches host (platformName host platform) policy tokens)
    (decision : CommandDecision) :
    decideCommand host platform argv policy = .ok decision ↔
      if tokens = [] then decision = { action := .approval, code := "command_parse_failed" }
      else PrefixesReadable policy ∧
        decision = decideTool host (platformName host platform) tokens
          policy.commands.systemTools := by
  have hauto : ∀ best, bestPrefix host (platformName host platform) tokens
      policy.commands.autoAllowPrefixes = .ok best ↔ _ :=
    fun best => bestPrefix_eq_ok_iff
      fun entry hentry => hnone entry (List.mem_append_left _ hentry)
  have happroval : ∀ best, bestPrefix host (platformName host platform) tokens
      policy.commands.requireApprovalPrefixes = .ok best ↔ _ :=
    fun best => bestPrefix_eq_ok_iff
      fun entry hentry => hnone entry (List.mem_append_right _ hentry)
  rw [decideCommand, hstrip]
  simp only [ok_bind]
  split_ifs with hempty
  · rw [pure_eq_ok, eq_comm]
  · rw [PrefixesReadable, allPrefixes, List.forall_mem_append]
    constructor
    · intro h
      obtain ⟨auto, hbest, h⟩ := bind_eq_ok.mp h
      obtain ⟨hreadable, rfl⟩ := (hauto auto).mp hbest
      rw [if_neg (by simp)] at h
      obtain ⟨approval, hbest, h⟩ := bind_eq_ok.mp h
      obtain ⟨hreadable', rfl⟩ := (happroval approval).mp hbest
      rw [if_neg (by simp), pure_eq_ok] at h
      exact ⟨⟨hreadable, hreadable'⟩, h.symm⟩
    · rintro ⟨⟨hreadable, hreadable'⟩, rfl⟩
      apply bind_eq_ok.mpr
      refine ⟨[], (hauto []).mpr ⟨hreadable, rfl⟩, ?_⟩
      rw [if_neg (by simp)]
      apply bind_eq_ok.mpr
      refine ⟨[], (happroval []).mpr ⟨hreadable', rfl⟩, ?_⟩
      rw [if_neg (by simp)]
      rfl

/-! ### Tools of the catalogue -/

def requiredAction : SystemTools → Option CommandAction
  | .auto => none
  | .prompt => some .approval
  | .disabled => some .deny

theorem action_decideTool_iff {platform : Platform} {tokens : List Str} {tools : SystemTools}
    {action : CommandAction} (hmode : requiredAction tools = some action) :
    (decideTool host platform tokens tools).action = action ↔
      isSystemTool host platform tokens = true ∨
        action = .approval ∧ isGitPush host platform tokens = true := by
  rw [decideTool]
  cases tools with
  | auto => exact nomatch hmode
  | prompt =>
      obtain rfl := Option.some.inj hmode
      cases isSystemTool host platform tokens with
      | true => simp
      | false => cases isGitPush host platform tokens <;> simp
  | disabled =>
      obtain rfl := Option.some.inj hmode
      cases isSystemTool host platform tokens with
      | true => simp
      | false => cases isGitPush host platform tokens <;> simp

/-- What `sudo` runs is decided as the policy asks. -/
def SudoControlled (host : CommandHost) (platform : Platform) (policy : SandboxPolicy)
    (action : CommandAction) (rest : List Str) : Prop :=
  ∃ tokens, stripWrappers host platform (rest.dropWhile isWrapperOption) = .ok tokens ∧
    (tokens = [] ∧ action = .approval ∨
      PrefixesReadable policy ∧ (isSystemTool host platform tokens = true ∨
        action = .approval ∧ isGitPush host platform tokens = true))

section

variable {platform : Platform} {first : Str} {rest : List Str}

/-- On POSIX platforms every tool of the catalogue but `sudo` stays in front. -/
theorem stripWrappers_of_tool (hposix : platform ≠ .windows)
    (htool : isSystemTool host platform (first :: rest) = true)
    (hsudo : normalizeExecutable host platform first ≠ "sudo".toList) :
    stripWrappers host platform (first :: rest) = .ok (first :: rest) := by
  have hplain : ∀ name ∈ (systemToolCatalog platform).map String.toList, name ≠ "sudo".toList →
      isOneOf ["env", "sudo"] name = false ∧ name ≠ "cmd".toList ∧
        isOneOf ["powershell", "pwsh"] name = false ∧
          isOneOf ["bash", "sh", "zsh", "fish"] name = false := by
    cases platform with
    | windows => exact absurd rfl hposix
    | darwin => decide
    | linux => decide
  have hname : normalizeExecutable host platform first ∈
      (systemToolCatalog platform).map String.toList := of_decide_eq_true htool
  apply stripWrappers_of_unwrapped
  rw [Unwrapped]
  generalize normalizeExecutable host platform first = name at hname hsudo ⊢
  obtain ⟨hwrapper, hcmd, hpower, hshell⟩ := hplain name hname hsudo
  refine ⟨hwrapper, ?_⟩
  rw [shellText, if_neg (fun h => hcmd h.1), hpower, if_neg Bool.false_ne_true, hshell,
    if_neg Bool.false_ne_true]

end

/-- A tool of the catalogue gets the action that the policy asks for exactly when it is not `sudo`
and the prefixes can be read, or when it is `sudo` and what it runs gets that action. -/
theorem system_tool_controlled_iff {platform : Option Str} {first : Str} {rest : List Str}
    {action : CommandAction} (hposix : platformName host platform ≠ .windows)
    (hmode : requiredAction policy.commands.systemTools = some action)
    (htool : isSystemTool host (platformName host platform) (first :: rest) = true)
    (hmatch : ∀ words, words = first :: rest ∨
      stripWrappers host (platformName host platform) (first :: rest) = .ok words →
        NoPrefixMatches host (platformName host platform) policy words) :
    (decideCommand host platform (first :: rest) policy).map CommandDecision.action =
        .ok action ↔
      if normalizeExecutable host (platformName host platform) first = "sudo".toList then
        SudoControlled host (platformName host platform) policy action rest
      else PrefixesReadable policy := by
  have hdecide : ∀ tokens,
      stripWrappers host (platformName host platform) (first :: rest) = .ok tokens →
      ((decideCommand host platform (first :: rest) policy).map CommandDecision.action =
          .ok action ↔
        (tokens = [] ∧ action = .approval ∨
          PrefixesReadable policy ∧
            (isSystemTool host (platformName host platform) tokens = true ∨
              action = .approval ∧ isGitPush host (platformName host platform) tokens = true))) := by
    intro tokens hstrip
    rw [map_eq_ok]
    simp only [decideCommand_eq_ok_iff hstrip (hmatch tokens (.inr hstrip))]
    by_cases hempty : tokens = []
    · simp only [if_pos hempty, exists_eq_left]
      have hno : isSystemTool host (platformName host platform) tokens = false ∧
          isGitPush host (platformName host platform) tokens = false := by
        rw [hempty]
        exact ⟨rfl, rfl⟩
      simp [hempty ▸ hno, eq_comm, hempty]
    · have haction := @action_decideTool_iff host (platformName host platform) tokens _ _ hmode
      simp only [if_neg hempty]
      constructor
      · rintro ⟨decision, ⟨hreadable, rfl⟩, hdecision⟩
        exact .inr ⟨hreadable, haction.mp hdecision⟩
      · rintro (⟨hnil, -⟩ | ⟨hreadable, htools⟩)
        · exact absurd hnil hempty
        · exact ⟨_, ⟨hreadable, rfl⟩, haction.mpr htools⟩
  split_ifs with hsudo
  · have hround : stripWrappers host (platformName host platform) (first :: rest) =
        stripWrappers host (platformName host platform) (rest.dropWhile isWrapperOption) := by
      rw [stripWrappers_cons, hsudo, if_pos (by decide)]
    constructor
    · intro h
      obtain ⟨decision, hdecision, -⟩ := map_eq_ok.mp h
      obtain ⟨tokens, hstrip, -⟩ := bind_eq_ok.mp hdecision
      exact ⟨tokens, hround ▸ hstrip, (hdecide tokens hstrip).mp h⟩
    · rintro ⟨tokens, hstrip, hcontrolled⟩
      exact (hdecide tokens (hround.trans hstrip)).mpr hcontrolled
  · rw [hdecide _ (stripWrappers_of_tool hposix htool hsudo)]
    simp [htool]

def disabledTools : SandboxPolicy := { commands := { systemTools := .disabled } }

theorem noPrefixMatches_disabledTools (platform : Platform) (words : List Str) :
    NoPrefixMatches asciiHost platform disabledTools words :=
  fun _ htokens => absurd htokens List.not_mem_nil

/-- `/usr/bin/crontab -l` is denied. -/
theorem crontab_is_denied :
    (decideCommand asciiHost (some "linux".toList) ["/usr/bin/crontab".toList, "-l".toList]
      disabledTools).map CommandDecision.action = .ok .deny :=
  (system_tool_controlled_iff (by decide +kernel) rfl (by decide +kernel)
    fun words _ => noPrefixMatches_disabledTools _ words).mpr (by
      rw [if_neg (by decide +kernel)]
      exact fun _ htokens => absurd htokens List.not_mem_nil)

/-- `sudo ls` is a tool of the catalogue that runs unasked. -/
theorem sudo_runs_unasked :
    platformName asciiHost (some "linux".toList) ≠ .windows ∧
      disabledTools.commands.systemTools = .disabled ∧
      isSystemTool asciiHost (platformName asciiHost (some "linux".toList))
        ["sudo".toList, "ls".toList] = true ∧
      (∀ words, NoPrefixMatches asciiHost (platformName asciiHost (some "linux".toList))
        disabledTools words) ∧
      (decideCommand asciiHost (some "linux".toList) ["sudo".toList, "ls".toList]
        disabledTools).map CommandDecision.action = .ok .auto := by
  refine ⟨by decide +kernel, rfl, by decide +kernel, ?_, by decide +kernel⟩
  exact fun words => noPrefixMatches_disabledTools _ words

end OpenStarry.Sandbox
