import OpenStarry.Session.Conversations

/-!
# Canonical keys

Normalizing an id twice gives what normalizing it once gives, unless cutting the id to its greatest
length leaves a dash at its end; and so it is with the keys that hold the id of an agent.
-/

namespace OpenStarry.Session

open Lib Text

section

variable (lower : Str → Str)

/-! ### Keys with an agent -/

def buildWebchatKey (agentId : Str) : Str :=
  "agent:".toList ++ normalizeAgentId lower agentId ++ ":webchat:default".toList

def buildSubagentKey (baseKey : Str) : Str := "subagent:".toList ++ baseKey

def buildSubagentSessionKey (agentId runId : Str) : Str :=
  "agent:".toList ++ normalizeAgentId lower agentId ++ ":subagent:".toList ++
    normalizeIdSegment lower runId

def parseAgentId (sessionKey : Str) : Str :=
  let stripped := strip sessionKey
  let key :=
    if "subagent:agent:".toList.isPrefixOf stripped then stripped.drop "subagent:".length else stripped
  if "agent:".toList.isPrefixOf key then
    let candidate := ((key.splitOn ':')[1]?).getD []
    if candidate = [] then "main".toList else normalizeAgentId lower candidate
  else "main".toList

/-- A call of a builder for an agent; a subagent key stands over the key of another call. -/
inductive AgentKeyCall where
  | conversation (call : KeyCall)
  | webchat (agentId : Str)
  | subagentSession (agentId runId : Str)

def AgentKeyCall.agentId : AgentKeyCall → Str
  | conversation call => call.agentId
  | webchat agentId => agentId
  | subagentSession agentId _ => agentId

def AgentKeyCall.baseKey : AgentKeyCall → Str
  | conversation call => call.key lower
  | webchat agentId => buildWebchatKey lower agentId
  | subagentSession agentId runId => buildSubagentSessionKey lower agentId runId

def AgentKeyCall.key (call : AgentKeyCall) (ofSubagent : Bool) : Str :=
  if ofSubagent then buildSubagentKey (call.baseKey lower) else call.baseKey lower

def KeyCall.ComponentsStripped (call : KeyCall) : Prop :=
  (match call.base with
    | .direct peerId channel accountId _ =>
        Stripped peerId ∧ (∀ c ∈ channel, Stripped c) ∧ ∀ a ∈ accountId, Stripped a
    | .group channel peerId => Stripped channel ∧ Stripped peerId
    | .groupSender channel peerId senderId => Stripped channel ∧ Stripped peerId ∧ Stripped senderId
    | .channel channel peerId => Stripped channel ∧ Stripped peerId) ∧
    ∀ thread ∈ call.thread, Stripped thread.1

def AgentKeyCall.ComponentsStripped : AgentKeyCall → Prop
  | conversation call => Stripped call.agentId ∧ call.ComponentsStripped
  | webchat agentId => Stripped agentId
  | subagentSession agentId runId => Stripped agentId ∧ Stripped runId

end

/-! ### Ids -/

section

variable {lower : Str → Str}

def trimmedId (lower : Str → Str) (value : Str) : Str :=
  (((lower (strip value)).map fun c => if isSegmentChar c then c else '-').dropWhile
    (· = '-')).rdropWhile (· = '-')

def CutAtDash (lower : Str → Str) (value : Str) : Prop := (trimmedId lower value)[63]? = some '-'

def KeepsSegmentChars (lower : Str → Str) : Prop :=
  ∀ s : Str, (∀ c ∈ s, isSegmentChar c = true) → lower s = s

theorem toNat_of_isSegmentChar {c : Char} (h : isSegmentChar c = true) :
    c.toNat = 45 ∨ 48 ≤ c.toNat ∧ c.toNat ≤ 57 ∨ c.toNat = 95 ∨ 97 ≤ c.toNat ∧ c.toNat ≤ 122 := by
  simp only [isSegmentChar, Bool.or_eq_true, Bool.and_eq_true, decide_eq_true_eq] at h
  rcases h with ((⟨hlow, hhigh⟩ | ⟨hlow, hhigh⟩) | rfl) | rfl
  · have hlow : 97 ≤ c.toNat := hlow
    have hhigh : c.toNat ≤ 122 := hhigh
    omega
  · have hlow : 48 ≤ c.toNat := hlow
    have hhigh : c.toNat ≤ 57 := hhigh
    omega
  · decide
  · decide

theorem isSpace_of_isSegmentChar {c : Char} (h : isSegmentChar c = true) : isSpace c = false := by
  have hrange := toNat_of_isSegmentChar h
  simp only [isSpace, Bool.or_eq_false_iff, Bool.and_eq_false_iff, decide_eq_false_iff_not,
    beq_eq_false_iff_ne]
  omega

theorem isSegmentChar_trimmedId {value : Str} {c : Char} (h : c ∈ trimmedId lower value) :
    isSegmentChar c = true := by
  have hmem := (List.dropWhile_sublist _).subset ((List.rdropWhile_prefix _ _).subset h)
  obtain ⟨d, -, rfl⟩ := List.mem_map.mp hmem
  split
  · assumption
  · decide

theorem normalizeIdSegment_eq (value : Str) : normalizeIdSegment lower value =
    if trimmedId lower value = [] then "default".toList else (trimmedId lower value).take 64 := rfl

theorem trimmedId_strip (value : Str) : trimmedId lower (strip value) = trimmedId lower value := by
  rw [trimmedId, trimmedId, strip_strip]

theorem getLast?_trimmedId_ne (value : Str) : (trimmedId lower value).getLast? ≠ some '-' := by
  intro hlast
  have hne : trimmedId lower value ≠ [] := by
    rintro hnil
    rw [hnil] at hlast
    exact absurd hlast (by simp)
  have hdash := List.rdropWhile_last_not (· = '-') _ hne
  rw [List.getLast?_eq_some_getLast hne, Option.some_inj] at hlast
  exact hdash (decide_eq_true hlast)

theorem head?_trimmedId_ne (value : Str) : (trimmedId lower value).head? ≠ some '-' := by
  intro hhead
  obtain ⟨back, hback⟩ := List.rdropWhile_prefix (· = '-')
    (((lower (strip value)).map fun c => if isSegmentChar c then c else '-').dropWhile (· = '-'))
  have hfirst := List.head?_dropWhile_not (· = '-')
    ((lower (strip value)).map fun c => if isSegmentChar c then c else '-')
  rw [← hback, List.head?_append] at hfirst
  rw [trimmedId] at hhead
  rw [hhead] at hfirst
  simp at hfirst

theorem getLast?_take_eq_iff {t : Str} (h : t.getLast? ≠ some '-') :
    (t.take 64).getLast? = some '-' ↔ t[63]? = some '-' := by
  by_cases hlong : 64 < t.length
  · have hlast : (t.take 64).getLast? = t[63]? := by
      rw [List.getLast?_eq_getElem?, List.length_take, Nat.min_eq_left (by omega),
        List.getElem?_take_of_lt (by omega)]
    rw [hlast]
  · rw [List.take_of_length_le (by omega)]
    constructor
    · exact fun hlast => absurd hlast h
    · intro hdash
      have hlength := (List.getElem?_eq_some_iff.mp hdash).1
      have hlast : t.getLast? = some '-' := by
        rw [List.getLast?_eq_getElem?, show t.length - 1 = 63 by omega, hdash]
      exact absurd hlast h

/-! ### Agent ids -/

theorem mem_normalizeIdSegment {value : Str} {c : Char} (h : c ∈ normalizeIdSegment lower value) :
    isSegmentChar c = true := by
  have hdefault : ∀ c ∈ "default".toList, isSegmentChar c = true := by decide
  rw [normalizeIdSegment_eq] at h
  split at h
  · exact hdefault c h
  · exact isSegmentChar_trimmedId (List.mem_of_mem_take h)

theorem mem_normalizeAgentId {agentId : Str} {c : Char} (h : c ∈ normalizeAgentId lower agentId) :
    isSegmentChar c = true := by
  have hmain : ∀ c ∈ "main".toList, isSegmentChar c = true := by decide
  rw [normalizeAgentId] at h
  dsimp only at h
  split at h
  · exact hmain c h
  · split at h
    · exact hmain c h
    · exact mem_normalizeIdSegment h

/-- A normalized agent id is `main` or a trimmed id cut to its length. -/
theorem normalizeAgentId_cases (hlower : KeepsSegmentChars lower) (agentId : Str) :
    normalizeAgentId lower agentId = "main".toList ∧ ¬CutAtDash lower agentId ∨
      normalizeAgentId lower agentId = (trimmedId lower agentId).take 64 ∧
        trimmedId lower agentId ≠ [] ∧ normalizeAgentId lower agentId ≠ "default".toList := by
  have hshort : ∀ t : Str, t.length < 64 → t[63]? ≠ some '-' := by
    intro t ht hdash
    exact absurd (List.getElem?_eq_some_iff.mp hdash).1 (by omega)
  have hsmall : ∀ t : Str, lower (strip agentId) = t → (∀ c ∈ t, isSegmentChar c = true) →
      t.length < 64 → ¬CutAtDash lower agentId := by
    intro t ht hchars hlength
    apply hshort
    have hle : (trimmedId lower agentId).length ≤ (lower (strip agentId)).length := by
      have hmap : ((lower (strip agentId)).map fun c => if isSegmentChar c then c else '-').length =
          (lower (strip agentId)).length := List.length_map _
      rw [← hmap]
      exact (List.rdropWhile_prefix _ _).length_le.trans (List.dropWhile_sublist _).length_le
    rw [ht] at hle
    omega
  rw [normalizeAgentId]
  dsimp only
  by_cases hraw : strip agentId = [] ∨ lower (strip agentId) = "default".toList
  · rw [if_pos hraw]
    refine Or.inl ⟨rfl, ?_⟩
    rcases hraw with hempty | hdefault
    · exact hsmall [] (by rw [hempty]; exact hlower [] (by simp)) (by simp) (by simp)
    · exact hsmall _ hdefault (by decide) (by decide)
  · rw [if_neg hraw, normalizeIdSegment_eq, trimmedId_strip]
    by_cases hempty : trimmedId lower agentId = []
    · rw [if_pos hempty, if_pos rfl]
      refine Or.inl ⟨rfl, ?_⟩
      rw [CutAtDash, hempty]
      simp
    · rw [if_neg hempty]
      by_cases hdefault : (trimmedId lower agentId).take 64 = "default".toList
      · rw [if_pos hdefault]
        refine Or.inl ⟨rfl, hshort _ ?_⟩
        have hlength := congrArg List.length hdefault
        rw [List.length_take] at hlength
        have hseven : "default".toList.length = 7 := by decide
        omega
      · rw [if_neg hdefault]
        exact Or.inr ⟨rfl, hempty, hdefault⟩

theorem getLast?_normalizeAgentId_iff (hlower : KeepsSegmentChars lower) (agentId : Str) :
    (normalizeAgentId lower agentId).getLast? = some '-' ↔ CutAtDash lower agentId := by
  rcases normalizeAgentId_cases hlower agentId with ⟨hmain, hnot⟩ | ⟨hcut, -, -⟩
  · rw [hmain]
    exact iff_of_false (by decide) hnot
  · rw [hcut]
    exact getLast?_take_eq_iff (getLast?_trimmedId_ne agentId)

theorem normalizeAgentId_normalizeAgentId (hlower : KeepsSegmentChars lower) (agentId : Str) :
    normalizeAgentId lower (normalizeAgentId lower agentId) = normalizeAgentId lower agentId ↔
      ¬CutAtDash lower agentId := by
  have hchars : ∀ c ∈ normalizeAgentId lower agentId, isSegmentChar c = true :=
    fun c hc => mem_normalizeAgentId hc
  have hlast := getLast?_normalizeAgentId_iff hlower agentId
  have hfacts : normalizeAgentId lower agentId ≠ [] ∧
      normalizeAgentId lower agentId ≠ "default".toList ∧
      (normalizeAgentId lower agentId).head? ≠ some '-' ∧
      (normalizeAgentId lower agentId).length ≤ 64 := by
    rcases normalizeAgentId_cases hlower agentId with ⟨hmain, -⟩ | ⟨hcut, hne, hdefault⟩
    · rw [hmain]
      decide
    · refine ⟨?_, hdefault, ?_, ?_⟩
      · rw [hcut, Ne, List.take_eq_nil_iff]
        simp [hne]
      · rw [hcut, List.head?_take]
        simpa using head?_trimmedId_ne agentId
      · rw [hcut]
        exact List.length_take_le 64 _
  generalize normalizeAgentId lower agentId = r at hchars hlast hfacts ⊢
  obtain ⟨hne, hdefault, hhead, hlength⟩ := hfacts
  have hstrip : strip r = r := strip_eq_self fun c hc => isSpace_of_isSegmentChar (hchars c hc)
  have hmap : (r.map fun c => if isSegmentChar c then c else '-') = r := by
    conv_rhs => rw [← List.map_id r]
    exact List.map_congr_left fun c hc => if_pos (hchars c hc)
  have hfront : r.dropWhile (· = '-') = r := by
    rw [List.dropWhile_eq_self_iff]
    intro hpos hdash
    apply hhead
    rw [List.head?_eq_getElem?, List.getElem?_eq_getElem hpos, of_decide_eq_true hdash]
  have htrim : trimmedId lower r = r.rdropWhile (· = '-') := by
    rw [trimmedId, hstrip, hlower r hchars, hmap, hfront]
  have hrest : r.rdropWhile (· = '-') ≠ [] := by
    rw [Ne, List.rdropWhile_eq_nil_iff]
    intro hall
    obtain ⟨c, rest, rfl⟩ := List.exists_cons_of_ne_nil hne
    apply hhead
    rw [List.head?_cons, of_decide_eq_true (hall c List.mem_cons_self)]
  have hraw : ¬(r = [] ∨ r = "default".toList) := not_or.mpr ⟨hne, hdefault⟩
  rw [normalizeAgentId, hstrip, hlower r hchars, if_neg hraw, normalizeIdSegment_eq, htrim,
    if_neg hrest, List.take_of_length_le ((List.rdropWhile_prefix _ _).length_le.trans hlength)]
  rw [← hlast]
  dsimp only
  by_cases hdash : r.getLast? = some '-'
  · have hback : r.rdropWhile (· = '-') ≠ r := by
      rw [Ne, List.rdropWhile_eq_self_iff]
      intro h
      apply h hne
      rw [List.getLast?_eq_some_getLast hne, Option.some_inj] at hdash
      exact decide_eq_true hdash
    refine iff_of_false ?_ (not_not_intro hdash)
    split
    · rintro rfl
      exact absurd hdash (by decide)
    · exact hback
  · have hback : r.rdropWhile (· = '-') = r := by
      rw [List.rdropWhile_eq_self_iff]
      intro _ h
      apply hdash
      rw [List.getLast?_eq_some_getLast hne, of_decide_eq_true h]
    rw [hback, if_neg hdefault]
    exact iff_of_true rfl hdash

/-! ### Keys of agents -/

def agentKey (agentId rest : Str) : Str := "agent:".toList ++ (agentId ++ rest)

def IsRest (rest : Str) : Prop := rest = [] ∨ ∃ behind, rest = ':' :: behind

theorem splitOn_agentKey {agentId : Str} (hagent : ':' ∉ agentId) {rest : Str} (hrest : IsRest rest) :
    ∃ more, (agentKey agentId rest).splitOn ':' = "agent".toList :: agentId :: more ∧
      [':'].intercalate (agentId :: more) = agentId ++ rest := by
  have hword : ':' ∉ "agent".toList := by decide
  have hkey : agentKey agentId rest = "agent".toList ++ ':' :: (agentId ++ rest) := rfl
  rw [hkey, List.splitOn_append_cons_self_of_not_mem hword]
  rcases hrest with rfl | ⟨behind, rfl⟩
  · rw [List.append_nil, List.splitOn_eq_singleton hagent]
    exact ⟨[], rfl, List.append_nil _⟩
  · rw [List.splitOn_append_cons_self_of_not_mem hagent]
    refine ⟨behind.splitOn ':', rfl, ?_⟩
    rw [List.intercalate_cons_of_ne_nil (List.splitOn_ne_nil _ _), List.intercalate_splitOn,
      List.append_assoc, List.singleton_append]

theorem canonicalizeAgentKey_agentKey {agentId : Str} (hagent : ':' ∉ agentId) {rest : Str}
    (hrest : IsRest rest) : canonicalizeAgentKey lower (agentKey agentId rest) =
      agentKey (normalizeAgentId lower agentId) rest := by
  have hnormal := colon_notMem_normalizeAgentId lower agentId
  obtain ⟨more, hparts, hback⟩ := splitOn_agentKey hagent hrest
  rw [canonicalizeAgentKey, hparts]
  dsimp only
  have hrest : [':'].intercalate (normalizeAgentId lower agentId :: more) =
      normalizeAgentId lower agentId ++ rest := by
    cases more with
    | nil =>
        have hnil : rest = [] := by simpa using hback
        rw [hnil]
        rfl
    | cons part more =>
        rw [List.intercalate_cons_cons] at hback ⊢
        rw [List.append_assoc, List.append_cancel_left_eq] at hback
        rw [List.append_assoc, hback]
  rw [List.intercalate_cons_cons, hrest]
  rfl

def agentOf (key : Str) : Option Str :=
  let stripped := strip key
  if "subagent:agent:".toList.isPrefixOf stripped then
    some (beforeFirst ':' (stripped.drop "subagent:agent:".length))
  else if "agent:".toList.isPrefixOf stripped then
    some (beforeFirst ':' (stripped.drop "agent:".length))
  else none

theorem agentOf_cases (key : Str) :
    (∃ agentId rest, ':' ∉ agentId ∧ IsRest rest ∧ agentOf key = some agentId ∧
      (strip key = agentKey agentId rest ∨ strip key = "subagent:".toList ++ agentKey agentId rest)) ∨
      agentOf key = none ∧ "subagent:agent:".toList.isPrefixOf (strip key) = false ∧
        "agent:".toList.isPrefixOf (strip key) = false := by
  have hcut : ∀ text : Str, ':' ∉ beforeFirst ':' text ∧ IsRest (text.dropWhile (· != ':')) ∧
      text = beforeFirst ':' text ++ text.dropWhile (· != ':') := by
    intro text
    refine ⟨List.count_eq_zero.mp (count_beforeFirst ':' text), ?_,
      (List.takeWhile_append_dropWhile).symm⟩
    cases hrest : text.dropWhile (· != ':') with
    | nil => exact Or.inl rfl
    | cons c behind =>
        have hhead := List.head?_dropWhile_not (· != ':') text
        rw [hrest] at hhead
        have hc : c = ':' := by simpa using hhead
        exact Or.inr ⟨behind, by rw [hc]⟩
  rw [agentOf]
  by_cases hsub : "subagent:agent:".toList.isPrefixOf (strip key) = true
  · obtain ⟨text, htext⟩ := List.isPrefixOf_iff_prefix.mp hsub
    obtain ⟨hcolon, hrest, hback⟩ := hcut text
    have hdrop : (strip key).drop "subagent:agent:".length = text := by
      rw [← htext]
      rfl
    refine Or.inl ⟨_, _, hcolon, hrest, by rw [if_pos hsub, hdrop], Or.inr ?_⟩
    rw [agentKey, ← hback, ← htext]
    rfl
  · rw [if_neg hsub]
    by_cases hagent : "agent:".toList.isPrefixOf (strip key) = true
    · obtain ⟨text, htext⟩ := List.isPrefixOf_iff_prefix.mp hagent
      obtain ⟨hcolon, hrest, hback⟩ := hcut text
      have hdrop : (strip key).drop "agent:".length = text := by
        rw [← htext]
        rfl
      refine Or.inl ⟨_, _, hcolon, hrest, by rw [if_pos hagent, hdrop], Or.inl ?_⟩
      rw [agentKey, ← hback, htext]
    · rw [if_neg hagent]
      exact Or.inr ⟨rfl, Bool.eq_false_iff.mpr hsub, Bool.eq_false_iff.mpr hagent⟩

theorem stripped_agentKey {front agentId agentId' rest : Str} (hne : agentId' ≠ [])
    (hid : ∀ c ∈ agentId', isSpace c = false)
    (h : Stripped (front ++ agentKey agentId rest)) : Stripped (front ++ agentKey agentId' rest) := by
  constructor
  · intro c hc
    apply h.1 c
    cases front with
    | nil => exact hc
    | cons d front => exact hc
  · intro c hc
    cases rest using List.reverseRecOn with
    | nil =>
        rw [agentKey, List.append_nil, List.getLast?_append_of_ne_nil _ (by simp),
          List.getLast?_append_of_ne_nil _ hne] at hc
        exact hid c (List.mem_of_getLast? hc)
    | append_singleton rest d =>
        have hlast : ∀ id : Str, (front ++ agentKey id (rest ++ [d])).getLast? = some d := by
          intro id
          rw [agentKey, ← List.append_assoc, ← List.append_assoc, ← List.append_assoc,
            List.getLast?_concat]
        apply h.2 c
        rw [hlast] at hc ⊢
        exact hc

theorem isSpace_normalizeAgentId {agentId : Str} :
    ∀ c ∈ normalizeAgentId lower agentId, isSpace c = false :=
  fun _ hc => isSpace_of_isSegmentChar (mem_normalizeAgentId hc)

theorem normalizeAgentId_ne_nil (agentId : Str) : normalizeAgentId lower agentId ≠ [] := by
  rw [normalizeAgentId]
  dsimp only
  split
  · decide
  · split
    · decide
    · rw [normalizeIdSegment_eq]
      split
      · decide
      · rename_i hne
        rw [Ne, List.take_eq_nil_iff]
        simp [hne]

def subagentFront (ofSubagent : Bool) : Str := if ofSubagent then "subagent:".toList else []

theorem canonicalizeSessionKey_agentKey {agentId rest : Str} (hagent : ':' ∉ agentId)
    (hrest : IsRest rest) (ofSubagent : Bool)
    {key : Str} (hkey : strip key = subagentFront ofSubagent ++ agentKey agentId rest) :
    canonicalizeSessionKey lower key =
      subagentFront ofSubagent ++ agentKey (normalizeAgentId lower agentId) rest := by
  rw [canonicalizeSessionKey, hkey]
  cases ofSubagent with
  | true =>
      have hne : subagentFront true ++ agentKey agentId rest ≠ [] := nofun
      have halias : subagentFront true ++ agentKey agentId rest ≠ "webchat:default".toList := nofun
      have hfront : "subagent:agent:".toList.isPrefixOf
          (subagentFront true ++ agentKey agentId rest) = true := rfl
      have hdrop : (subagentFront true ++ agentKey agentId rest).drop "subagent:".length =
          agentKey agentId rest := rfl
      rw [if_neg hne, if_neg halias, if_pos hfront, hdrop, canonicalizeAgentKey_agentKey hagent hrest]
      rfl
  | false =>
      have hne : subagentFront false ++ agentKey agentId rest ≠ [] := nofun
      have halias : subagentFront false ++ agentKey agentId rest ≠ "webchat:default".toList := nofun
      have hother : "subagent:agent:".toList.isPrefixOf
          (subagentFront false ++ agentKey agentId rest) = false := rfl
      have hfront : "agent:".toList.isPrefixOf (subagentFront false ++ agentKey agentId rest) = true :=
        rfl
      rw [if_neg hne, if_neg halias, if_neg (Bool.eq_false_iff.mp hother), if_pos hfront]
      exact canonicalizeAgentKey_agentKey hagent hrest

theorem parseAgentId_agentKey {agentId rest : Str} (hagent : ':' ∉ agentId) (hne : agentId ≠ [])
    (hrest : IsRest rest) (ofSubagent : Bool)
    {key : Str} (hkey : strip key = subagentFront ofSubagent ++ agentKey agentId rest) :
    parseAgentId lower key = normalizeAgentId lower agentId := by
  obtain ⟨more, hparts, -⟩ := splitOn_agentKey hagent hrest
  have hfront : "agent:".toList.isPrefixOf (agentKey agentId rest) = true := rfl
  have hstep : (if "subagent:agent:".toList.isPrefixOf (strip key) then
      (strip key).drop "subagent:".length else strip key) = agentKey agentId rest := by
    rw [hkey]
    cases ofSubagent <;> rfl
  rw [parseAgentId, hstep, if_pos hfront, hparts]
  exact if_neg hne

theorem canonicalizeSessionKey_idempotent_iff (hlower : KeepsSegmentChars lower) (key : Str) :
    canonicalizeSessionKey lower (canonicalizeSessionKey lower key) = canonicalizeSessionKey lower key ↔
      ∀ agentId ∈ agentOf key, ¬CutAtDash lower agentId := by
  rcases agentOf_cases key with ⟨agentId, rest, hagent, hrest, hof, hkey⟩ | ⟨hof, hsub, hnone⟩
  · obtain ⟨ofSubagent, hkey⟩ : ∃ ofSubagent : Bool,
        strip key = subagentFront ofSubagent ++ agentKey agentId rest := by
      rcases hkey with hkey | hkey
      · exact ⟨false, hkey⟩
      · exact ⟨true, hkey⟩
    have honce : canonicalizeSessionKey lower key =
        subagentFront ofSubagent ++ agentKey (normalizeAgentId lower agentId) rest :=
      canonicalizeSessionKey_agentKey hagent hrest ofSubagent hkey
    have hstrip : strip (subagentFront ofSubagent ++
        agentKey (normalizeAgentId lower agentId) rest) =
          subagentFront ofSubagent ++ agentKey (normalizeAgentId lower agentId) rest :=
      strip_eq_self_iff.mpr (stripped_agentKey (normalizeAgentId_ne_nil agentId)
        isSpace_normalizeAgentId (hkey ▸ stripped_strip key))
    rw [honce, canonicalizeSessionKey_agentKey (colon_notMem_normalizeAgentId lower agentId) hrest
      ofSubagent hstrip, hof, List.append_cancel_left_eq, agentKey, agentKey,
      List.append_cancel_left_eq, List.append_cancel_right_eq,
      normalizeAgentId_normalizeAgentId hlower]
    simp
  · rw [hof]
    refine iff_of_true ?_ (by simp)
    have hplain : ∀ text : Str, strip text = strip key → strip key ≠ [] →
        strip key ≠ "webchat:default".toList → canonicalizeSessionKey lower text = strip key := by
      intro text htext hne halias
      rw [canonicalizeSessionKey, htext, if_neg hne, if_neg halias, hsub,
        if_neg Bool.false_ne_true, hnone, if_neg Bool.false_ne_true]
    by_cases hempty : strip key = []
    · have honce : canonicalizeSessionKey lower key = [] := by
        rw [canonicalizeSessionKey, hempty, if_pos rfl]
      rw [honce]
      rfl
    · by_cases halias : strip key = "webchat:default".toList
      · have honce : canonicalizeSessionKey lower key = "agent:main:webchat:default".toList := by
          rw [canonicalizeSessionKey, halias, if_neg (by decide), if_pos rfl]
        have hmain : normalizeAgentId lower "main".toList = "main".toList := by
          have hkeep := hlower "main".toList (by decide)
          have hstrip : strip "main".toList = "main".toList := by decide
          rw [normalizeAgentId, normalizeIdSegment, hstrip, hstrip, hkeep]
          decide
        have htwice : canonicalizeSessionKey lower "agent:main:webchat:default".toList =
            agentKey (normalizeAgentId lower "main".toList) ":webchat:default".toList :=
          canonicalizeSessionKey_agentKey (by decide) (Or.inr ⟨"webchat:default".toList, rfl⟩) false
            (by decide)
        rw [honce, htwice, hmain]
        rfl
      · rw [hplain key rfl hempty halias, hplain (strip key) (strip_strip key) hempty halias]

/-! ### Keys of the builders -/

theorem exists_last_part (call : KeyCall) (hcomponents : call.ComponentsStripped) :
    ∃ front last, Stripped last ∧
      Conversation.scopeParts (call.conversation lower).scope ++
        Conversation.threadParts (call.conversation lower).thread = front ++ [last] := by
  obtain ⟨hbase, hthread⟩ := hcomponents
  have hscope : (call.conversation lower).scope = call.base.scope lower := rfl
  have hmarker : (call.conversation lower).thread =
      call.thread.map fun thread => (threadMarker thread.2, thread.1) := rfl
  rw [hscope, hmarker]
  cases hcall : call.thread with
  | some thread => exact ⟨_, thread.1, hthread thread hcall, (List.append_assoc _ [_] [_]).symm⟩
  | none =>
      rw [Option.map_none, Conversation.threadParts, List.append_nil]
      cases hkind : call.base with
      | direct peerId channel accountId dmScope =>
          rw [hkind] at hbase
          cases dmScope with
          | main => exact ⟨[], Word.main.text, strip_eq_self_iff.mp (by decide), rfl⟩
          | perPeer => exact ⟨[_], peerId, hbase.1, rfl⟩
          | perChannelPeer => exact ⟨[_, _], peerId, hbase.1, rfl⟩
          | perAccountChannelPeer => exact ⟨[_, _, _], peerId, hbase.1, rfl⟩
      | group channel peerId =>
          rw [hkind] at hbase
          exact ⟨[_, _], peerId, hbase.2, rfl⟩
      | groupSender channel peerId senderId =>
          rw [hkind] at hbase
          exact ⟨[_, _, _, _], senderId, hbase.2.2, rfl⟩
      | channel channel peerId =>
          rw [hkind] at hbase
          exact ⟨[_, _], peerId, hbase.2, rfl⟩

theorem isSpace_last (front : Str) {last : Str} (h : Stripped last) :
    ∀ c ∈ (front ++ ':' :: last).getLast?, isSpace c = false := by
  intro c hc
  cases hlast : last with
  | nil =>
      rw [hlast, List.getLast?_concat] at hc
      rw [← Option.some.inj hc]
      decide
  | cons d rest =>
      apply h.2 c
      rw [hlast]
      rw [hlast, List.getLast?_append_of_ne_nil _ (List.cons_ne_nil _ _),
        List.getLast?_cons_cons] at hc
      exact hc

theorem exists_rest (call : AgentKeyCall) (hcomponents : call.ComponentsStripped) :
    ∃ rest, IsRest rest ∧ (∀ c ∈ rest.getLast?, isSpace c = false) ∧ rest ≠ [] ∧
      call.baseKey lower = agentKey (normalizeAgentId lower call.agentId) rest := by
  cases call with
  | conversation call =>
      obtain ⟨front, last, hstripped, hparts⟩ : ∃ front last, Stripped last ∧
          Conversation.scopeParts (call.conversation lower).scope ++
            Conversation.threadParts (call.conversation lower).thread = front ++ [last] :=
        exists_last_part call hcomponents.2
      have hne : front ++ [last] ≠ [] := by simp
      have hkey : call.key lower = agentKey (normalizeAgentId lower call.agentId)
          (':' :: [':'].intercalate (front ++ [last])) := by
        rw [call.key_eq, Conversation.parts, hparts, List.intercalate_cons_cons,
          List.intercalate_cons_of_ne_nil hne]
        simp only [List.append_assoc, List.singleton_append]
        rfl
      refine ⟨_, Or.inr ⟨_, rfl⟩, ?_, List.cons_ne_nil _ _, hkey⟩
      cases front with
      | nil =>
          rw [List.nil_append, List.intercalate_singleton]
          exact isSpace_last [] hstripped
      | cons part front =>
          rw [intercalate_append ':' (List.cons_ne_nil _ _) (List.cons_ne_nil _ _),
            List.intercalate_singleton]
          exact isSpace_last (':' :: _) hstripped
  | webchat agentId =>
      refine ⟨":webchat:default".toList, Or.inr ⟨_, rfl⟩, by decide, by decide, ?_⟩
      exact List.append_assoc _ _ _
  | subagentSession agentId runId =>
      refine ⟨":subagent:".toList ++ normalizeIdSegment lower runId, Or.inr ⟨_, rfl⟩, ?_, by simp, ?_⟩
      · exact isSpace_last ":subagent".toList (strip_eq_self_iff.mp (strip_eq_self fun c hc =>
          isSpace_of_isSegmentChar (mem_normalizeIdSegment hc)))
      · exact (List.append_assoc _ _ _).trans (by simp [agentKey, AgentKeyCall.agentId])

theorem key_canonical_iff (hlower : KeepsSegmentChars lower) (call : AgentKeyCall)
    (hcomponents : call.ComponentsStripped) (ofSubagent : Bool) :
    (canonicalizeSessionKey lower (call.key lower ofSubagent) = call.key lower ofSubagent ∧
      parseAgentId lower (call.key lower ofSubagent) = normalizeAgentId lower call.agentId) ↔
      ¬CutAtDash lower call.agentId := by
  obtain ⟨rest, hrest, hend, hne, hbase⟩ : ∃ rest, IsRest rest ∧
      (∀ c ∈ rest.getLast?, isSpace c = false) ∧ rest ≠ [] ∧
        call.baseKey lower = agentKey (normalizeAgentId lower call.agentId) rest :=
    exists_rest call hcomponents
  have hcolon := colon_notMem_normalizeAgentId lower call.agentId
  have hkey : call.key lower ofSubagent =
      subagentFront ofSubagent ++ agentKey (normalizeAgentId lower call.agentId) rest := by
    rw [AgentKeyCall.key, hbase]
    cases ofSubagent <;> rfl
  have hstrip : strip (call.key lower ofSubagent) =
      subagentFront ofSubagent ++ agentKey (normalizeAgentId lower call.agentId) rest := by
    rw [hkey, strip_eq_self_iff]
    constructor
    · cases ofSubagent <;> exact fun c hc => (Option.some.inj hc) ▸ by decide
    · rw [agentKey, List.getLast?_append_of_ne_nil _ (by simp), List.getLast?_append_of_ne_nil _
        (by simp [hne]), List.getLast?_append_of_ne_nil _ hne]
      exact hend
  rw [canonicalizeSessionKey_agentKey hcolon hrest ofSubagent hstrip,
    parseAgentId_agentKey hcolon (normalizeAgentId_ne_nil _) hrest ofSubagent hstrip, hkey,
    List.append_cancel_left_eq, agentKey, agentKey, List.append_cancel_left_eq,
    List.append_cancel_right_eq, and_self]
  exact normalizeAgentId_normalizeAgentId hlower _

/-- Agent ids and keys are final after one normalization just where no agent id is cut at a dash. -/
theorem normalization_is_final_iff (hlower : KeepsSegmentChars lower) :
    (∀ agentId, normalizeAgentId lower (normalizeAgentId lower agentId) =
        normalizeAgentId lower agentId ↔ ¬CutAtDash lower agentId) ∧
      (∀ key, canonicalizeSessionKey lower (canonicalizeSessionKey lower key) =
        canonicalizeSessionKey lower key ↔ ∀ agentId ∈ agentOf key, ¬CutAtDash lower agentId) ∧
      ∀ (call : AgentKeyCall) (ofSubagent : Bool), call.ComponentsStripped →
        ((canonicalizeSessionKey lower (call.key lower ofSubagent) = call.key lower ofSubagent ∧
          parseAgentId lower (call.key lower ofSubagent) = normalizeAgentId lower call.agentId) ↔
          ¬CutAtDash lower call.agentId) :=
  ⟨normalizeAgentId_normalizeAgentId hlower, canonicalizeSessionKey_idempotent_iff hlower,
    fun call ofSubagent hcomponents => key_canonical_iff hlower call hcomponents ofSubagent⟩

end

theorem keepsSegmentChars_toLower : KeepsSegmentChars (List.map Char.toLower) := by
  intro s hs
  conv_rhs => rw [← List.map_id s]
  apply List.map_congr_left
  intro c hc
  have hchar := hs c hc
  refine dif_neg fun hupper => ?_
  have hlow : 65 ≤ c.toNat := hupper.1
  have hhigh : c.toNat ≤ 90 := hupper.2
  have hrange := toNat_of_isSegmentChar hchar
  omega

def teamChannel : AgentKeyCall :=
  .conversation { agentId := "Ops Team".toList, base := .channel "slack".toList "C1".toList }

theorem normalization_is_final_iff_teamChannel :
    canonicalizeSessionKey (List.map Char.toLower) (teamChannel.key (List.map Char.toLower) false) =
        teamChannel.key (List.map Char.toLower) false ∧
      parseAgentId (List.map Char.toLower) (teamChannel.key (List.map Char.toLower) false) =
        normalizeAgentId (List.map Char.toLower) teamChannel.agentId := by
  have hstripped : ∀ s ∈ ["Ops Team".toList, "slack".toList, "C1".toList], Stripped s := by
    intro s hs
    apply strip_eq_self_iff.mp
    revert s
    decide
  have hcall : teamChannel.ComponentsStripped :=
    ⟨hstripped _ (by decide), ⟨hstripped _ (by decide), hstripped _ (by decide)⟩, nofun⟩
  have hcut : ¬CutAtDash (List.map Char.toLower) teamChannel.agentId := by
    rw [CutAtDash]
    decide
  exact ((normalization_is_final_iff keepsSegmentChars_toLower).2.2 teamChannel false hcall).mpr hcut

/-- An id of 63 letters, a dash and another letter loses the letter at first and the dash next. -/
theorem long_id_is_cut_twice :
    ¬∀ lower : Str → Str, KeepsSegmentChars lower → ∀ agentId,
      normalizeAgentId lower (normalizeAgentId lower agentId) = normalizeAgentId lower agentId := by
  intro h
  have hcut : CutAtDash (List.map Char.toLower) (List.replicate 63 'a' ++ "-b".toList) := by
    rw [CutAtDash]
    decide
  exact (normalizeAgentId_normalizeAgentId keepsSegmentChars_toLower _).mp
    (h _ keepsSegmentChars_toLower _) hcut

end OpenStarry.Session
