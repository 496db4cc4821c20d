import OpenStarry.Stream.Registry

/-!
# The compact view of a running turn

The live events are the events of the turn in groups: deltas of one stream merged into the first of
them, heartbeats of one activity with the newest in the place of the first, and every other event on
its own. Each streamed text reads the same off the live events as off the turn.
-/

namespace OpenStarry.Stream

open Lib

/-- The streams of a turn: its text, its thinking, and the arguments of each tool call. -/
inductive Content where
  | text
  | thinking
  | toolInput (id : Str)
  deriving DecidableEq, Repr

namespace BufferedSessionEvent

def content? (event : BufferedSessionEvent) : Option Content :=
  if event.eventName = textDelta then some .text
  else if event.eventName = Stream.thinking then some .thinking
  else if event.eventName = toolUseDelta then some (.toolInput (toolId event.payload))
  else none

def fragment (event : BufferedSessionEvent) : Str :=
  if event.eventName = toolUseDelta then fieldText event.payload (deltaField event.payload)
  else fieldText event.payload "text"

def beat? (event : BufferedSessionEvent) : Option (Option (Str × Str)) :=
  if event.eventName = runHeartbeat then some none
  else if event.eventName = providerActivity then
    some (some (fieldOrEmpty event.payload "activity_id", fieldOrEmpty event.payload "phase"))
  else none

def isHeartbeat (event : BufferedSessionEvent) : Bool :=
  event.eventName = runHeartbeat ||
    (event.eventName = providerActivity && event.payload "heartbeat" = some (.flag true))

end BufferedSessionEvent

open BufferedSessionEvent

def streamed (content : Content) (events : List BufferedSessionEvent) : Str :=
  (events.filter fun event => event.content? = some content).flatMap fragment

/-- The events since the last terminal event or change of the task. -/
structure Turn where
  task : Option Str
  log : List BufferedSessionEvent

def Turn.next (turn : Turn) (event : BufferedSessionEvent) : Turn :=
  if event.eventName ∈ terminalNames then { task := none, log := [] }
  else
    match taskId event.payload, turn.task with
    | none, task => { task, log := turn.log ++ [event] }
    | some id, none => { task := some id, log := turn.log ++ [event] }
    | some id, some current =>
        if id = current then { task := some id, log := turn.log ++ [event] }
        else { task := some id, log := [event] }

def currentTurn (events : List BufferedSessionEvent) : Turn :=
  events.foldl Turn.next { task := none, log := [] }

/-- What a live event stands for: itself, the deltas merged into the first of them, or the
heartbeats behind an event of their activity, of which it is the newest. -/
inductive Stands : List BufferedSessionEvent → BufferedSessionEvent → Prop
  | kept (event : BufferedSessionEvent) : Stands [event] event
  | merged {first : BufferedSessionEvent} {rest : List BufferedSessionEvent}
      {live : BufferedSessionEvent} {content : Content} (hmore : rest ≠ [])
      (hcontent : ∀ event ∈ first :: rest, event.content? = some content)
      (hlive : live.content? = some content) (hname : live.eventName = first.eventName)
      (hseq : live.streamSeq = first.streamSeq)
      (hfragment : live.fragment = (first :: rest).flatMap fragment) : Stands (first :: rest) live
  | replaced {first : BufferedSessionEvent} {rest : List BufferedSessionEvent}
      {live : BufferedSessionEvent} {beat : Option (Str × Str)}
      (hbeat : ∀ event ∈ first :: (rest ++ [live]), event.beat? = some beat)
      (hheartbeat : ∀ event ∈ rest ++ [live], event.isHeartbeat = true) :
      Stands (first :: (rest ++ [live])) live

def CompactView (log live : List BufferedSessionEvent) : Prop :=
  ∃ groups : List (List BufferedSessionEvent × BufferedSessionEvent),
    groups.map Prod.snd = live ∧ (∀ group ∈ groups, Stands group.1 group.2) ∧
      (groups.flatMap Prod.fst).Perm log ∧ (∀ group ∈ groups, group.1.Sublist log) ∧
      (groups.filterMap fun group => group.1.head?).Sublist log

/-- The snapshot shows the turn. -/
structure ShowsTurn (turn : Turn) (snapshot : Registry.LiveTurnSnapshot) : Prop where
  task : snapshot.taskId = turn.task
  streamed : ∀ content, streamed content snapshot.events = streamed content turn.log
  compact : CompactView turn.log snapshot.events

/-- What is too much to ask for: the recorded events that the snapshot shows as they are, the newest
heartbeats among them, stand in recording order. -/
structure ShowsInOrder (turn : Turn) (snapshot : Registry.LiveTurnSnapshot) : Prop where
  streamed : ∀ content, streamed content snapshot.events = streamed content turn.log
  inOrder : snapshot.events.Pairwise fun a b =>
    a ∈ turn.log → b ∈ turn.log → a.streamSeq < b.streamSeq

/-! ### Merging two deltas -/

theorem fieldText_update (payload : Payload) (field : String) (s : Str) :
    fieldText (Function.update payload field (some (.text s))) field = s := by
  rw [fieldText, Function.update_self]
  rfl

theorem deltaField_update (payload : Payload) (value : Value) :
    deltaField (Function.update payload (deltaField payload) (some value)) =
      deltaField payload := by
  unfold deltaField deltaFields
  cases h1 : payload "json_fragment" with
  | some v => simp [List.find?, h1]
  | none =>
      cases h2 : payload "jsonFragment" with
      | some v => simp [List.find?, h1, h2]
      | none =>
          cases h3 : payload "fragment" with
          | some v => simp [List.find?, h1, h2, h3]
          | none => simp [List.find?, h1, h2, h3]

theorem toolId_update {payload : Payload} {field : String} (value : Option Value)
    (hfield : field ∈ deltaFields) : toolId (Function.update payload field value) = toolId payload := by
  have hne : ∀ key ∈ ["tool_use_id", "toolUseId", "id"], key ≠ field := by
    rintro key hkey rfl
    revert hfield hkey
    simp only [deltaFields, List.mem_cons, List.not_mem_nil, or_false]
    rintro (rfl | rfl | rfl) <;> simp
  unfold toolId
  rw [Function.update_of_ne (hne "tool_use_id" (by simp)),
    Function.update_of_ne (hne "toolUseId" (by simp)), Function.update_of_ne (hne "id" (by simp))]

theorem deltaField_mem (payload : Payload) : deltaField payload ∈ deltaFields := by
  unfold deltaField
  cases hfind : deltaFields.find? fun field => (payload field).isSome with
  | none => simp [deltaFields]
  | some field => exact List.mem_of_find?_eq_some hfind

theorem fieldText_normalizeDelta (field : String) (event : BufferedSessionEvent) :
    fieldText (normalizeDelta field event).payload field =
      fieldText event.payload (deltaField event.payload) := by
  unfold normalizeDelta
  dsimp only
  split
  · rename_i hsame
    rw [hsame]
  · unfold fieldText
    simp only [Function.update_self]
    cases event.payload (deltaField event.payload) <;> rfl

/-- The later delta is merged into the earlier one. -/
structure MergedInto (event existing live : BufferedSessionEvent) : Prop where
  same : existing.content? = event.content?
  isSome : event.content?.isSome
  content : live.content? = existing.content?
  name : live.eventName = existing.eventName
  seq : live.streamSeq = existing.streamSeq
  fragment : live.fragment = existing.fragment ++ event.fragment

theorem fragment_of_ne {event : BufferedSessionEvent} (h : event.eventName ≠ toolUseDelta) :
    event.fragment = fieldText event.payload "text" := if_neg h

theorem content?_congr {event other : BufferedSessionEvent}
    (hname : other.eventName = event.eventName) (htool : event.eventName ≠ toolUseDelta) :
    other.content? = event.content? := by
  unfold content?
  rw [hname, if_neg htool, if_neg htool]

theorem mergedInto_text {event existing : BufferedSessionEvent}
    (hname : existing.eventName = event.eventName)
    (htext : event.eventName = textDelta ∨ event.eventName = thinking) :
    MergedInto event existing (mergeEvent "text" event existing) := by
  have htool : event.eventName ≠ toolUseDelta := by
    rcases htext with h | h <;> rw [h] <;> decide
  have hexisting : existing.eventName ≠ toolUseDelta := by rwa [hname]
  refine ⟨content?_congr hname htool, ?_, content?_congr rfl hexisting, rfl, rfl, ?_⟩
  · unfold content?
    rcases htext with h | h
    · rw [if_pos h]
      rfl
    · rw [if_neg (by rw [h]; decide), if_pos h]
      rfl
  · have hlive : (mergeEvent "text" event existing).eventName ≠ toolUseDelta := hexisting
    rw [fragment_of_ne hlive, fragment_of_ne hexisting, fragment_of_ne htool]
    exact fieldText_update _ _ _

theorem mergedInto_toolDelta {event existing : BufferedSessionEvent}
    (hevent : event.eventName = toolUseDelta) (hsame : sameToolDelta event existing = true) :
    MergedInto event existing (mergeToolDelta event existing) := by
  rw [sameToolDelta, Bool.and_eq_true, beq_iff_eq, beq_iff_eq] at hsame
  obtain ⟨hname, hid⟩ := hsame
  have hexisting : existing.eventName = toolUseDelta := hname.trans hevent
  have hcontent : ∀ other : BufferedSessionEvent, other.eventName = toolUseDelta →
      other.content? = some (.toolInput (toolId other.payload)) := by
    intro other hother
    unfold content?
    rw [if_neg (by rw [hother]; decide), if_neg (by rw [hother]; decide), if_pos hother]
  have hlive : (mergeToolDelta event existing).eventName = toolUseDelta := hexisting
  have hliveId : toolId (mergeToolDelta event existing).payload = toolId existing.payload :=
    toolId_update _ (deltaField_mem _)
  refine ⟨?_, ?_, ?_, rfl, rfl, ?_⟩
  · rw [hcontent existing hexisting, hcontent event hevent, hid]
  · rw [hcontent event hevent]
    rfl
  · rw [hcontent _ hlive, hcontent existing hexisting, hliveId]
  · have hfield : deltaField (mergeToolDelta event existing).payload =
        deltaField existing.payload := deltaField_update _ _
    unfold fragment
    rw [if_pos hlive, if_pos hexisting, if_pos hevent, hfield]
    refine (fieldText_update _ _ _).trans ?_
    rw [fieldText_normalizeDelta]

/-! ### What recording an event does to the live events -/

/-- The event is appended, merged into an earlier delta of its stream, or put in the place of an
earlier event of its activity. -/
inductive Compaction (live : List BufferedSessionEvent) (event : BufferedSessionEvent) :
    List BufferedSessionEvent → Prop
  | appended
      (hthinking : event.content? = some .thinking → ∀ x ∈ live, x.content? ≠ some .thinking) :
      Compaction live event (live ++ [event])
  | merged {before after : List BufferedSessionEvent} {x x' : BufferedSessionEvent}
      (hlive : live = before ++ x :: after) (hmerged : MergedInto event x x')
      (hlast : event.content? ≠ some .thinking → ∀ y ∈ after, y.content? ≠ event.content?) :
      Compaction live event (before ++ x' :: after)
  | replaced {before after : List BufferedSessionEvent} {x : BufferedSessionEvent}
      (hlive : live = before ++ x :: after) (hheartbeat : event.isHeartbeat = true)
      (hbeat : x.beat? = event.beat?) (hisSome : event.beat?.isSome) :
      Compaction live event (before ++ event :: after)

variable {live : List BufferedSessionEvent} {event : BufferedSessionEvent}

theorem content?_thinking {x : BufferedSessionEvent} (h : x.content? = some .thinking) :
    x.eventName = thinking := by
  unfold content? at h
  split at h
  · simp at h
  · split at h
    · assumption
    · split at h <;> simp at h

theorem content?_toolInput {x : BufferedSessionEvent} {id : Str}
    (h : x.content? = some (.toolInput id)) :
    x.eventName = toolUseDelta ∧ toolId x.payload = id := by
  unfold content? at h
  split at h
  · simp at h
  · split at h
    · simp at h
    · split at h
      · rename_i hname
        exact ⟨hname, Content.toolInput.inj (Option.some.inj h)⟩
      · simp at h

theorem compaction_thinking (hname : event.eventName = thinking) :
    Compaction live event (recordCompact live event) := by
  unfold recordCompact compactInto
  rw [if_pos hname]
  cases hupdate : updateFirst? (fun existing => existing.eventName == event.eventName)
      (mergeEvent "text" event) live with
  | none =>
      apply Compaction.appended
      intro _ x hx hcontent
      have hother := updateFirst?_eq_none.mp hupdate x hx
      rw [hname, content?_thinking hcontent] at hother
      simp at hother
  | some live' =>
      obtain ⟨before, x, after, hlive, rfl, hx, -⟩ := exists_of_updateFirst? hupdate
      apply Compaction.merged hlive (mergedInto_text (beq_iff_eq.mp hx) (.inr hname))
      intro hnot
      refine absurd ?_ hnot
      unfold content?
      rw [if_neg (by rw [hname]; decide), if_pos hname]

theorem compaction_toolUseDelta (hname : event.eventName = toolUseDelta) :
    Compaction live event (recordCompact live event) := by
  have hcontent : event.content? = some (.toolInput (toolId event.payload)) := by
    unfold content?
    rw [if_neg (by rw [hname]; decide), if_neg (by rw [hname]; decide), if_pos hname]
  unfold recordCompact compactInto
  rw [if_neg (by rw [hname]; decide), if_pos hname]
  cases hupdate : updateLast? (sameToolDelta event) (mergeToolDelta event) live with
  | none =>
      apply Compaction.appended
      intro hthinking
      rw [hcontent] at hthinking
      simp at hthinking
  | some live' =>
      obtain ⟨before, x, after, hlive, rfl, hx, hafter⟩ := exists_of_updateLast? hupdate
      apply Compaction.merged hlive (mergedInto_toolDelta hname hx)
      intro _ y hy hsame
      obtain ⟨hyname, hyid⟩ := content?_toolInput (hsame.trans hcontent)
      have hother := hafter y hy
      rw [sameToolDelta, hyname, hyid, hname] at hother
      simp at hother

theorem compaction_textDelta (hname : event.eventName = textDelta) :
    Compaction live event (recordCompact live event) := by
  have happend : Compaction live event (live ++ [event]) := by
    apply Compaction.appended
    intro hthinking
    rw [content?_thinking hthinking] at hname
    exact absurd hname (by decide)
  unfold recordCompact compactInto
  rw [if_neg (by rw [hname]; decide), if_neg (by rw [hname]; decide), if_pos hname]
  split
  · rename_i last hlast
    split
    · rename_i hsame
      have hlive : live = live.dropLast ++ last :: [] :=
        (List.dropLast_append_getLast? last hlast).symm
      exact Compaction.merged hlive (mergedInto_text hsame (.inl hname))
        fun _ y hy => absurd hy List.not_mem_nil
    · exact happend
  · exact happend

theorem compaction_heartbeat {p : BufferedSessionEvent → Bool}
    (hheartbeat : event.isHeartbeat = true) (hisSome : event.beat?.isSome)
    (hp : ∀ x, p x = true → x.beat? = event.beat?) :
    Compaction live event ((updateLast? p (fun _ => event) live).getD (live ++ [event])) := by
  cases hupdate : updateLast? p (fun _ => event) live with
  | none =>
      apply Compaction.appended
      intro hthinking
      have hname := content?_thinking hthinking
      unfold isHeartbeat at hheartbeat
      rw [hname] at hheartbeat
      revert hheartbeat
      simp [thinking, runHeartbeat, providerActivity]
  | some live' =>
      obtain ⟨before, x, after, hlive, rfl, hx, -⟩ := exists_of_updateLast? hupdate
      exact Compaction.replaced hlive hheartbeat (hp x hx) hisSome

theorem compaction_runHeartbeat (hname : event.eventName = runHeartbeat) :
    Compaction live event (recordCompact live event) := by
  unfold recordCompact compactInto
  rw [if_neg (by rw [hname]; decide), if_neg (by rw [hname]; decide),
    if_neg (by rw [hname]; decide), if_pos hname]
  have hbeat : ∀ x : BufferedSessionEvent, x.eventName = runHeartbeat → x.beat? = some none :=
    fun x hx => if_pos hx
  apply compaction_heartbeat
  · simp [isHeartbeat, hname]
  · rw [hbeat event hname]
    rfl
  · intro x hx
    rw [hbeat event hname, hbeat x ((beq_iff_eq.mp hx).trans hname)]

theorem compaction_providerActivity (hname : event.eventName = providerActivity)
    (hheartbeat : event.payload "heartbeat" = some (.flag true)) :
    Compaction live event (recordCompact live event) := by
  unfold recordCompact compactInto
  rw [if_neg (by rw [hname]; decide), if_neg (by rw [hname]; decide),
    if_neg (by rw [hname]; decide), if_neg (by rw [hname]; decide), if_pos ⟨hname, hheartbeat⟩]
  have hbeat : ∀ x : BufferedSessionEvent, x.eventName = providerActivity →
      x.beat? = some (some (fieldOrEmpty x.payload "activity_id",
        fieldOrEmpty x.payload "phase")) := by
    intro x hx
    unfold beat?
    rw [if_neg (by rw [hx]; decide), if_pos hx]
  apply compaction_heartbeat
  · simp [isHeartbeat, hname, hheartbeat]
  · rw [hbeat event hname]
    rfl
  · intro x hx
    simp only [sameActivity, Bool.and_eq_true, beq_iff_eq] at hx
    rw [hbeat event hname, hbeat x (hx.1.1.trans hname), hx.1.2, hx.2]

theorem recordCompact_compaction (live : List BufferedSessionEvent) (event : BufferedSessionEvent) :
    Compaction live event (recordCompact live event) := by
  by_cases hthinking : event.eventName = thinking
  · exact compaction_thinking hthinking
  by_cases htool : event.eventName = toolUseDelta
  · exact compaction_toolUseDelta htool
  by_cases htext : event.eventName = textDelta
  · exact compaction_textDelta htext
  by_cases hrun : event.eventName = runHeartbeat
  · exact compaction_runHeartbeat hrun
  by_cases hactivity : event.eventName = providerActivity ∧
      event.payload "heartbeat" = some (.flag true)
  · exact compaction_providerActivity hactivity.1 hactivity.2
  unfold recordCompact compactInto
  rw [if_neg hthinking, if_neg htool, if_neg htext, if_neg hrun, if_neg hactivity]
  apply Compaction.appended
  exact fun hcontent => absurd (content?_thinking hcontent) hthinking

/-! ### The streams -/

theorem streamed_append (content : Content) (l l' : List BufferedSessionEvent) :
    streamed content (l ++ l') = streamed content l ++ streamed content l' := by
  unfold streamed
  rw [List.filter_append, List.flatMap_append]

theorem streamed_cons (content : Content) (x : BufferedSessionEvent)
    (l : List BufferedSessionEvent) :
    streamed content (x :: l) =
      (if x.content? = some content then x.fragment else []) ++ streamed content l := by
  unfold streamed
  rw [List.filter_cons]
  by_cases hx : x.content? = some content
  · rw [if_pos (by simpa using hx), if_pos hx, List.flatMap_cons]
  · rw [if_neg (by simpa using hx), if_neg hx, List.nil_append]

theorem streamed_eq_nil {content : Content} {l : List BufferedSessionEvent}
    (h : ∀ x ∈ l, x.content? ≠ some content) : streamed content l = [] := by
  unfold streamed
  have hnone : l.filter (fun event => event.content? = some content) = [] := by
    apply List.filter_eq_nil_iff.mpr
    intro x hx
    simpa using h x hx
  rw [hnone, List.flatMap_nil]

theorem streamed_nil (content : Content) : streamed content [] = [] := rfl

def thinkingCount (live : List BufferedSessionEvent) : Nat :=
  live.countP fun event => event.content? = some .thinking

theorem not_thinking_after {before after : List BufferedSessionEvent} {x : BufferedSessionEvent}
    (hone : thinkingCount (before ++ x :: after) ≤ 1)
    (hx : x.content? = some .thinking) : ∀ y ∈ after, y.content? ≠ some .thinking := by
  intro y hy hthinking
  unfold thinkingCount at hone
  rw [List.countP_append, List.countP_cons_of_pos (by simpa using hx)] at hone
  have hpos : 0 < after.countP fun event => event.content? = some .thinking :=
    List.countP_pos_iff.mpr ⟨y, hy, by simpa using hthinking⟩
  omega

theorem beat_content {x : BufferedSessionEvent} (h : x.beat?.isSome) : x.content? = none := by
  unfold beat? at h
  unfold content?
  split at h
  · rename_i hname
    rw [hname]
    rfl
  · split at h
    · rename_i hname
      rw [hname]
      rfl
    · simp at h

variable {live' : List BufferedSessionEvent}

theorem Compaction.streamed (h : Compaction live event live') (hone : thinkingCount live ≤ 1)
    (content : Content) :
    streamed content live' = streamed content live ++ streamed content [event] := by
  cases h with
  | appended => exact streamed_append content live [event]
  | merged hlive hmerged hlast =>
      rename_i before after x x'
      subst hlive
      have hcontent : x'.content? = event.content? := hmerged.content.trans hmerged.same
      simp only [streamed_append, streamed_cons, streamed_nil, hcontent, hmerged.same]
      by_cases hevent : event.content? = some content
      · -- nothing of this stream stands behind the merged delta
        have hafter : Stream.streamed content after = [] := by
          apply streamed_eq_nil
          by_cases hthinking : event.content? = some .thinking
          · rw [← Option.some.inj (hthinking.symm.trans hevent)]
            exact not_thinking_after hone (hmerged.same.trans hthinking)
          · rw [← hevent]
            exact hlast hthinking
        simp only [if_pos hevent, hmerged.fragment, hafter, List.append_nil, List.append_assoc]
      · simp only [if_neg hevent, List.nil_append, List.append_nil]
  | replaced hlive hheartbeat hbeat hisSome =>
      rename_i before after x
      subst hlive
      have hevent : event.content? ≠ some content := by
        rw [beat_content hisSome]
        simp
      have hx : x.content? ≠ some content := by
        rw [beat_content (hbeat ▸ hisSome)]
        simp
      simp only [streamed_append, streamed_cons, streamed_nil, if_neg hevent, if_neg hx,
        List.append_nil]

theorem Compaction.thinkingCount_le (h : Compaction live event live')
    (hone : thinkingCount live ≤ 1) : thinkingCount live' ≤ 1 := by
  unfold thinkingCount at hone ⊢
  cases h with
  | appended hthinking =>
      rw [List.countP_append, List.countP_cons, List.countP_nil]
      by_cases hevent : event.content? = some .thinking
      · have hnone : live.countP (fun x => x.content? = some .thinking) = 0 := by
          apply List.countP_eq_zero.mpr
          intro x hx
          simpa using hthinking hevent x hx
        rw [hnone]
        split <;> omega
      · rw [if_neg (by simpa using hevent)]
        omega
  | merged hlive hmerged hlast =>
      subst hlive
      simp only [List.countP_append, List.countP_cons, hmerged.content] at hone ⊢
      exact hone
  | replaced hlive hheartbeat hbeat hisSome =>
      subst hlive
      have hevent : event.content? = none := beat_content hisSome
      simp only [List.countP_append, List.countP_cons, hevent] at hone ⊢
      simp only [reduceCtorEq, decide_false, Bool.false_eq_true, if_false]
      omega

/-! ### The groups -/

theorem Stands.head?_append {group : List BufferedSessionEvent} {x : BufferedSessionEvent}
    (h : Stands group x) (more : List BufferedSessionEvent) :
    (group ++ more).head? = group.head? := by
  cases h <;> rfl

theorem Stands.merge {group : List BufferedSessionEvent} {x x' : BufferedSessionEvent}
    (h : Stands group x) (hmerged : MergedInto event x x') : Stands (group ++ [event]) x' := by
  obtain ⟨content, hcontent⟩ := Option.isSome_iff_exists.mp hmerged.isSome
  have hx : x.content? = some content := hmerged.same.trans hcontent
  have hx' : x'.content? = some content := hmerged.content.trans hx
  cases h with
  | kept =>
      refine Stands.merged (by simp) ?_ hx' hmerged.name hmerged.seq ?_
      · simp [hx, hcontent]
      · rw [hmerged.fragment]
        simp
  | merged hmore hgroup hlive hname hseq hfragment =>
      rename_i first rest content'
      have hsame : content' = content := Option.some.inj (hlive.symm.trans hx)
      subst hsame
      have hgrown : ∀ y ∈ first :: rest ++ [event], y.content? = some content' := by
        intro y hy
        rcases List.mem_append.mp hy with hy | hy
        · exact hgroup y hy
        · rw [List.mem_singleton.mp hy, hcontent]
      have hfragment' : x'.fragment = (first :: rest ++ [event]).flatMap fragment := by
        rw [hmerged.fragment, hfragment, List.flatMap_append]
        simp
      exact @Stands.merged first (rest ++ [event]) x' content' (by simp) hgrown hx'
        (hmerged.name.trans hname) (hmerged.seq.trans hseq) hfragment'
  | replaced hbeat =>
      have hnone := beat_content (x := x) (by rw [hbeat x (by simp)]; rfl)
      rw [hnone] at hx
      simp at hx

theorem Stands.replace {group : List BufferedSessionEvent} {x : BufferedSessionEvent}
    (h : Stands group x) (hheartbeat : event.isHeartbeat = true) (hbeat : x.beat? = event.beat?)
    (hisSome : event.beat?.isSome) : Stands (group ++ [event]) event := by
  obtain ⟨beat, hevent⟩ := Option.isSome_iff_exists.mp hisSome
  have hx : x.beat? = some beat := hbeat.trans hevent
  cases h with
  | kept =>
      have hgroup : ∀ y ∈ [x] ++ [event], y.beat? = some beat := by
        intro y hy
        rcases List.mem_append.mp hy with hy | hy
        · rw [List.mem_singleton.mp hy, hx]
        · rw [List.mem_singleton.mp hy, hevent]
      exact @Stands.replaced x [] event beat hgroup (by simpa using hheartbeat)
  | merged hmore hgroup hlive =>
      rw [beat_content (x := x) (by rw [hx]; rfl)] at hlive
      simp at hlive
  | replaced hgroup hbeats =>
      rename_i first rest beat'
      have hsame : beat' = beat := Option.some.inj ((hgroup x (by simp)).symm.trans hx)
      subst hsame
      have hgrown : ∀ y ∈ first :: (rest ++ [x]) ++ [event], y.beat? = some beat' := by
        intro y hy
        rcases List.mem_append.mp hy with hy | hy
        · exact hgroup y hy
        · rw [List.mem_singleton.mp hy, hevent]
      have hgrown' : ∀ y ∈ rest ++ [x] ++ [event], y.isHeartbeat = true := by
        intro y hy
        rcases List.mem_append.mp hy with hy | hy
        · exact hbeats y hy
        · rw [List.mem_singleton.mp hy, hheartbeat]
      exact @Stands.replaced first (rest ++ [x]) event beat' hgrown hgrown'

theorem CompactView.nil : CompactView [] [] :=
  ⟨[], rfl, by simp, List.Perm.refl _, by simp, List.Sublist.refl _⟩

theorem CompactView.append {log : List BufferedSessionEvent} (h : CompactView log live)
    (event : BufferedSessionEvent) : CompactView (log ++ [event]) (live ++ [event]) := by
  obtain ⟨groups, hlive, hstands, hperm, hsublist, hheads⟩ := h
  refine ⟨groups ++ [([event], event)], ?_, ?_, ?_, ?_, ?_⟩
  · rw [List.map_append, hlive]
    rfl
  · intro group hgroup
    rcases List.mem_append.mp hgroup with hgroup | hgroup
    · exact hstands group hgroup
    · rw [List.mem_singleton.mp hgroup]
      exact Stands.kept event
  · rw [List.flatMap_append]
    exact hperm.append_right [event]
  · intro group hgroup
    rcases List.mem_append.mp hgroup with hgroup | hgroup
    · exact (hsublist group hgroup).trans (List.sublist_append_left log [event])
    · rw [List.mem_singleton.mp hgroup]
      exact List.sublist_append_right log [event]
  · rw [List.filterMap_append]
    exact hheads.append (List.Sublist.refl [event])

theorem CompactView.join {log before after : List BufferedSessionEvent}
    {x x' : BufferedSessionEvent} (h : CompactView log (before ++ x :: after))
    (hstands : ∀ group, Stands group x → Stands (group ++ [event]) x') :
    CompactView (log ++ [event]) (before ++ x' :: after) := by
  obtain ⟨groups, hlive, hall, hperm, hsublist, hheads⟩ := h
  obtain ⟨first, rest, rfl, hfirst, hrest⟩ := List.map_eq_append_iff.mp hlive
  obtain ⟨⟨group, y⟩, last, rfl, rfl, hlast⟩ := List.map_eq_cons_iff.mp hrest
  have hgroup : Stands group y := hall (group, y) (by simp)
  refine ⟨first ++ (group ++ [event], x') :: last, ?_, ?_, ?_, ?_, ?_⟩
  · rw [List.map_append, List.map_cons, hfirst, hlast]
  · intro other hother
    rcases List.mem_append.mp hother with hother | hother
    · exact hall other (List.mem_append_left _ hother)
    · rcases List.mem_cons.mp hother with rfl | hother
      · exact hstands group hgroup
      · exact hall other (List.mem_append_right _ (List.mem_cons_of_mem _ hother))
  · have hmove : ((first.flatMap Prod.fst) ++ ((group ++ [event]) ++ last.flatMap Prod.fst)).Perm
        ((first.flatMap Prod.fst ++ (group ++ last.flatMap Prod.fst)) ++ [event]) := by
      rw [List.append_assoc, List.append_assoc, List.append_assoc]
      apply List.Perm.append_left
      apply List.Perm.append_left
      exact List.perm_append_comm
    rw [List.flatMap_append, List.flatMap_cons] at hperm ⊢
    exact hmove.trans (hperm.append_right [event])
  · intro other hother
    have hgrow : ∀ other ∈ first ++ (group, y) :: last, other.1.Sublist (log ++ [event]) :=
      fun other hother => (hsublist other hother).trans (List.sublist_append_left log [event])
    rcases List.mem_append.mp hother with hother | hother
    · exact hgrow other (List.mem_append_left _ hother)
    · rcases List.mem_cons.mp hother with rfl | hother
      · exact (hsublist (group, y) (by simp)).append (List.Sublist.refl [event])
      · exact hgrow other (List.mem_append_right _ (List.mem_cons_of_mem _ hother))
  · have hsame : (first ++ (group ++ [event], x') :: last).filterMap (fun g => g.1.head?) =
        (first ++ (group, y) :: last).filterMap fun g => g.1.head? := by
      rw [List.filterMap_append, List.filterMap_append, List.filterMap_cons, List.filterMap_cons,
        hgroup.head?_append]
    rw [hsame]
    exact hheads.trans (List.sublist_append_left log [event])

theorem Compaction.compactView {log : List BufferedSessionEvent}
    (h : Compaction live event live') (hview : CompactView log live) :
    CompactView (log ++ [event]) live' := by
  cases h with
  | appended => exact hview.append event
  | merged hlive hmerged hlast =>
      subst hlive
      exact hview.join fun group hgroup => hgroup.merge hmerged
  | replaced hlive hheartbeat hbeat hisSome =>
      subst hlive
      exact hview.join fun group hgroup => hgroup.replace hheartbeat hbeat hisSome

/-! ### Runs -/

/-- The live turn of a session shows the turn of what was recorded. -/
structure LiveShows (turn : Turn) (live : LiveTurn) : Prop where
  task : live.task.join = turn.task
  thinking : thinkingCount live.events ≤ 1
  streamed : ∀ content, streamed content live.events = streamed content turn.log
  compact : CompactView turn.log live.events

theorem LiveShows.start : LiveShows { task := none, log := [] } { task := none, events := [] } :=
  ⟨rfl, by decide, fun _ => rfl, CompactView.nil⟩

variable {turn : Turn} {liveTurn : LiveTurn}

theorem LiveShows.continue {task : Option Str} {task' : Option (Option Str)}
    {log events : List BufferedSessionEvent} (htask : task'.join = task)
    (hthinking : thinkingCount events ≤ 1)
    (hstreamed : ∀ content, Stream.streamed content events = Stream.streamed content log)
    (hcompact : CompactView log events) (event : BufferedSessionEvent) :
    LiveShows { task, log := log ++ [event] }
      { task := task', events := recordCompact events event } := by
  have hstep := recordCompact_compaction events event
  refine ⟨htask, hstep.thinkingCount_le hthinking, fun content => ?_, hstep.compactView hcompact⟩
  rw [hstep.streamed hthinking, streamed_append, hstreamed]

theorem LiveShows.record (h : LiveShows turn liveTurn) (event : BufferedSessionEvent) :
    LiveShows (turn.next event) (liveTurn.record event) := by
  unfold Turn.next LiveTurn.record
  by_cases hterminal : event.eventName ∈ terminalNames
  · simp only [if_pos hterminal]
    exact LiveShows.start
  · simp only [if_neg hterminal, h.task]
    cases hid : taskId event.payload with
    | none =>
        have htask : (if liveTurn.task.isNone = true then some none else liveTurn.task).join =
            turn.task := by
          rw [← h.task]
          cases liveTurn.task <;> rfl
        simpa using LiveShows.continue htask h.thinking h.streamed h.compact event
    | some id =>
        have htask : (some (some id)).join = some id := rfl
        cases hcurrent : turn.task with
        | none => simpa using LiveShows.continue htask h.thinking h.streamed h.compact event
        | some current =>
            by_cases hsame : id = current
            · subst hsame
              simpa using LiveShows.continue htask h.thinking h.streamed h.compact event
            · have hfresh := LiveShows.start
              simpa [hsame] using
                LiveShows.continue htask hfresh.thinking hfresh.streamed hfresh.compact event

theorem live_shows_reached {t : Traced} (h : Reached t) (sessionKey : String) :
    LiveShows (currentTurn (t.recorded sessionKey)) (t.registry.liveBySession sessionKey) := by
  revert sessionKey
  apply Reach.invariant _ _ h
  · rintro t ⟨maxEvents, generation, -, rfl⟩ sessionKey
    exact LiveShows.start
  · intro t op t' hshows _ hstep sessionKey
    rw [← Option.some.inj hstep]
    cases op with
    | record key eventName payload now =>
        by_cases heq : sessionKey = key
        · subst heq
          simp only [Traced.step, Registry.record, Function.update_self, currentTurn,
            List.foldl_append]
          exact (hshows sessionKey).record _
        · simp only [Traced.step, Registry.record, Function.update_of_ne heq]
          exact hshows sessionKey
    | promote key since =>
        have hlive : (t.registry.promoteLegacyCursor key since).1.liveBySession =
            t.registry.liveBySession := by
          unfold Registry.promoteLegacyCursor
          split
          · rfl
          · split <;> rfl
        simp only [Traced.step, hlive]
        exact hshows sessionKey

theorem live_snapshot_shows_turn {t : Traced} (h : Reached t) (sessionKey : String) :
    ShowsTurn (currentTurn (t.recorded sessionKey)) (t.registry.liveSnapshot sessionKey) := by
  have hshows := live_shows_reached h sessionKey
  exact ⟨hshows.task, hshows.streamed, hshows.compact⟩

def heartbeatRun : Traced :=
  (((Traced.start 500 "g").step (.record "s" runHeartbeat none 0)).step
    (.record "s" textDelta (some fun field => if field = "text" then some (.text ['a']) else none)
      1)).step (.record "s" runHeartbeat none 2)

theorem reached_heartbeatRun : Reached heartbeatRun := by
  have hstart : Reached (Traced.start 500 "g") := .start ⟨500, "g", by decide, rfl⟩
  exact ((hstart.next trivial rfl).next trivial rfl).next trivial rfl

theorem live_snapshot_shows_heartbeatRun :
    ShowsTurn (currentTurn (heartbeatRun.recorded "s")) (heartbeatRun.registry.liveSnapshot "s") :=
  live_snapshot_shows_turn reached_heartbeatRun "s"

/-- The newer heartbeat stands before the word that was recorded before it. -/
theorem newer_heartbeat_stands_first :
    ¬ ∀ t, Reached t → ∀ sessionKey, ShowsInOrder (currentTurn (t.recorded sessionKey))
      (t.registry.liveSnapshot sessionKey) := by
  intro horder
  have hpairwise := (horder heartbeatRun reached_heartbeatRun "s").inOrder
  obtain ⟨older, word, newer, hlog, hevents, hword, hnewer⟩ :
      ∃ older word newer, (currentTurn (heartbeatRun.recorded "s")).log = [older, word, newer] ∧
        (heartbeatRun.registry.liveSnapshot "s").events = [newer, word] ∧
          word.streamSeq = 2 ∧ newer.streamSeq = 3 :=
    ⟨_, _, _, rfl, rfl, rfl, rfl⟩
  rw [hevents, hlog] at hpairwise
  have hlt := (List.pairwise_cons.mp hpairwise).1 word List.mem_cons_self (by simp) (by simp)
  omega

end OpenStarry.Stream
