import OpenStarry.Sandbox.CommandPolicy

/-!
# Taking wrappers away

Every round takes the name of a wrapper away, so the fuel lasts. What is left has no wrapper in
front of it, and taking wrappers away again changes nothing.
-/

namespace OpenStarry.Sandbox

open Lib Lib.Text Lib.Shlex

variable {host : CommandHost} {platform : Platform}

/-! ### Names -/

theorem normalizeExecutable_nil : normalizeExecutable host platform [] = [] := by
  rw [normalizeExecutable, List.map_nil, host.pathName_nil]
  split_ifs with hwindows
  · rw [host.casefold_nil]
    rfl
  · rfl

theorem ne_nil_of_isOneOf {names : List String} {first : Str} (hnames : isOneOf names [] = false)
    (h : isOneOf names (normalizeExecutable host platform first) = true) : first ≠ [] := by
  rintro rfl
  rw [normalizeExecutable_nil, hnames] at h
  exact Bool.false_ne_true h

theorem argumentAfter_mem {isFlag : Str → Bool} {words : List Str} {source : Str}
    (h : argumentAfter isFlag words = some source) : source ∈ words := by
  induction words with
  | nil => exact nomatch h
  | cons flag rest ih =>
      cases rest with
      | nil => exact nomatch h
      | cons next rest =>
          rw [argumentAfter] at h
          split_ifs at h
          · obtain rfl := Option.some.inj h
            exact List.mem_cons_of_mem _ List.mem_cons_self
          · exact List.mem_cons_of_mem _ (ih h)

theorem shellText_mem {first : Str} {rest : List Str} {source : Str}
    (h : shellText host (normalizeExecutable host platform first) rest = some source) :
    first ≠ [] ∧ source ∈ rest := by
  rw [shellText] at h
  split_ifs at h with hcmd hpower hshell
  · constructor
    · rintro rfl
      rw [normalizeExecutable_nil] at hcmd
      exact absurd hcmd.1 (by decide)
    · exact List.mem_of_getElem? h
  · exact ⟨ne_nil_of_isOneOf (by decide) hpower, argumentAfter_mem h⟩
  · exact ⟨ne_nil_of_isOneOf (by decide) hshell, argumentAfter_mem h⟩

/-! ### Fuel -/

theorem length_le_totalLength {word : Str} {words : List Str} (h : word ∈ words) :
    word.length ≤ totalLength words := by
  induction words with
  | nil => exact absurd h List.not_mem_nil
  | cons first rest ih =>
      rw [totalLength_cons]
      obtain rfl | h := List.mem_cons.mp h
      · exact Nat.le_add_right _ _
      · have := ih h
        omega

theorem totalLength_dropWhile_le (p : Str → Bool) (words : List Str) :
    totalLength (words.dropWhile p) ≤ totalLength words := by
  induction words with
  | nil => exact Nat.le_refl _
  | cons word rest ih =>
      rw [List.dropWhile_cons, totalLength_cons]
      split_ifs
      · omega
      · rw [totalLength_cons]

theorem totalLength_lexWords_le {source : Str} {words : List Str}
    (h : lexWords platform source = .ok words) : totalLength words ≤ source.length := by
  rw [lexWords] at h
  cases hsplit : split (decide (platform ≠ .windows)) source with
  | error err =>
      rw [hsplit] at h
      exact nomatch h
  | ok found =>
      rw [hsplit] at h
      obtain rfl := Except.ok.inj h
      exact totalLength_split_le hsplit

theorem stripFrom_congr {fuel more : Nat} {argv : List Str} (hfuel : totalLength argv < fuel)
    (hmore : totalLength argv < more) :
    stripFrom host platform fuel argv = stripFrom host platform more argv := by
  induction fuel generalizing more argv with
  | zero => exact absurd hfuel (Nat.not_lt_zero _)
  | succ fuel ih =>
      cases more with
      | zero => exact absurd hmore (Nat.not_lt_zero _)
      | succ more =>
          cases argv with
          | nil => rfl
          | cons first rest =>
              rw [totalLength_cons] at hfuel hmore
              simp only [stripFrom]
              split_ifs with hwrapper
              · have hpos := List.length_pos_of_ne_nil (ne_nil_of_isOneOf (by decide) hwrapper)
                have hdrop := totalLength_dropWhile_le isWrapperOption rest
                exact ih (by omega) (by omega)
              · cases htext : shellText host (normalizeExecutable host platform first) rest with
                | none => rfl
                | some source =>
                    obtain ⟨hfirst, hmem⟩ := shellText_mem htext
                    have hpos := List.length_pos_of_ne_nil hfirst
                    have hsource := length_le_totalLength hmem
                    show (lexWords platform source).bind _ = (lexWords platform source).bind _
                    cases hwords : lexWords platform source with
                    | error err => rfl
                    | ok words =>
                        have hle := totalLength_lexWords_le hwords
                        have hless : totalLength words < fuel := by omega
                        exact ih hless (by omega)

theorem stripWrappers_cons (first : Str) (rest : List Str) :
    stripWrappers host platform (first :: rest) =
      if isOneOf ["env", "sudo"] (normalizeExecutable host platform first) then
        stripWrappers host platform (rest.dropWhile isWrapperOption)
      else
        match shellText host (normalizeExecutable host platform first) rest with
        | some source => tokenize host platform source
        | none => .ok (first :: rest) := by
  rw [stripWrappers, stripFrom]
  split_ifs with hwrapper
  · have hpos := List.length_pos_of_ne_nil (ne_nil_of_isOneOf (by decide) hwrapper)
    have hdrop := totalLength_dropWhile_le isWrapperOption rest
    rw [totalLength_cons]
    exact stripFrom_congr (by omega) (by omega)
  · cases htext : shellText host (normalizeExecutable host platform first) rest with
    | none => rfl
    | some source =>
        obtain ⟨hfirst, hmem⟩ := shellText_mem htext
        have hpos := List.length_pos_of_ne_nil hfirst
        have hsource := length_le_totalLength hmem
        show (lexWords platform source).bind _ = (lexWords platform source).bind _
        cases hwords : lexWords platform source with
        | error err => rfl
        | ok words =>
            have hle := totalLength_lexWords_le hwords
            have hless : totalLength words < totalLength (first :: rest) := by
              rw [totalLength_cons]
              omega
            exact stripFrom_congr hless (Nat.lt_succ_self _)

@[simp] theorem stripWrappers_nil : stripWrappers host platform [] = .ok [] := rfl

/-! ### What is left -/

def Unwrapped (host : CommandHost) (platform : Platform) : List Str → Prop
  | [] => True
  | first :: rest =>
      isOneOf ["env", "sudo"] (normalizeExecutable host platform first) = false ∧
        shellText host (normalizeExecutable host platform first) rest = none

theorem stripWrappers_of_unwrapped {tokens : List Str} (h : Unwrapped host platform tokens) :
    stripWrappers host platform tokens = .ok tokens := by
  cases tokens with
  | nil => rfl
  | cons first rest => rw [stripWrappers_cons, h.1, if_neg Bool.false_ne_true, h.2]

theorem unwrapped_of_stripWrappers {argv tokens : List Str}
    (h : stripWrappers host platform argv = .ok tokens) : Unwrapped host platform tokens := by
  induction hlength : totalLength argv using Nat.strong_induction_on generalizing argv with
  | _ length ih =>
      cases argv with
      | nil =>
          cases h
          trivial
      | cons first rest =>
          rw [stripWrappers_cons] at h
          rw [totalLength_cons] at hlength
          split_ifs at h with hwrapper
          · have hpos := List.length_pos_of_ne_nil (ne_nil_of_isOneOf (by decide) hwrapper)
            have hdrop := totalLength_dropWhile_le isWrapperOption rest
            exact ih _ (by omega) h rfl
          · cases htext : shellText host (normalizeExecutable host platform first) rest with
            | none =>
                rw [htext] at h
                cases h
                exact ⟨Bool.eq_false_iff.mpr hwrapper, htext⟩
            | some source =>
                obtain ⟨hfirst, hmem⟩ := shellText_mem htext
                have hpos := List.length_pos_of_ne_nil hfirst
                have hsource := length_le_totalLength hmem
                rw [htext] at h
                change (lexWords platform source).bind _ = _ at h
                cases hwords : lexWords platform source with
                | error err =>
                    rw [hwords] at h
                    cases h
                | ok words =>
                    have hle := totalLength_lexWords_le hwords
                    rw [hwords] at h
                    exact ih _ (by omega) h rfl

/-- However many wrappers stand in front of a command, the words that are looked up have none left,
and the decision on the command is the decision on these words. -/
theorem decided_without_wrappers (host : CommandHost) (platform : Option Str) (argv : List Str)
    (policy : SandboxPolicy) :
    (∀ tokens, stripWrappers host (platformName host platform) argv = .ok tokens →
      Unwrapped host (platformName host platform) tokens) ∧
    decideCommand host platform argv policy =
      (stripWrappers host (platformName host platform) argv).bind fun tokens =>
        decideCommand host platform tokens policy := by
  refine ⟨fun tokens => unwrapped_of_stripWrappers, ?_⟩
  rw [decideCommand]
  cases hstrip : stripWrappers host (platformName host platform) argv with
  | error err => rfl
  | ok tokens =>
      have hagain := stripWrappers_of_unwrapped (unwrapped_of_stripWrappers hstrip)
      show _ = decideCommand host platform tokens policy
      rw [decideCommand, hagain]

/-! ### A POSIX host -/

def posixName (text : Str) : Str :=
  ((text.splitOn '/').filter fun part => part ≠ [] && part ≠ ['.']).getLast?.getD []

def asciiHost : CommandHost where
  lower := List.map Char.toLower
  casefold := List.map Char.toLower
  casefold_nil := List.map_nil
  pathName := posixName
  pathName_nil := by decide
  isWord c := c.isAlphanum || c = '_'
  osName := "posix".toList

end OpenStarry.Sandbox
