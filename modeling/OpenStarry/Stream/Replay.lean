import OpenStarry.Stream.Registry

/-!
# Complete replays

What the buffer of a session has dropped is either lossy or older than everything it still holds.
A replay that reaches back to the first event of the buffer is therefore complete up to lossy
events.
-/

namespace OpenStarry.Stream

open Lib

abbrev Increasing (events : List BufferedSessionEvent) : Prop :=
  events.Pairwise fun a b => a.streamSeq < b.streamSeq

def owed (since : Int) (events : List BufferedSessionEvent) : List BufferedSessionEvent :=
  events.filter fun event => since < event.streamSeq && !event.lossy

/-- What a buffer keeps of the events recorded: bounded, in order, and all but lossy events and
events older than what it holds. -/
structure Buffers (maxEvents current : Nat) (recorded buffer : List BufferedSessionEvent) :
    Prop where
  increasing : Increasing recorded
  current : ∀ event ∈ recorded, event.streamSeq ≤ current
  sublist : buffer.Sublist recorded
  bounded : buffer.length ≤ maxEvents
  kept : ∀ event ∈ recorded, event.lossy = false →
    event ∈ buffer ∨ ∀ held ∈ buffer, event.streamSeq < held.streamSeq
  nonempty : recorded ≠ [] → buffer ≠ []

/-- A replay that is reported complete returns what is owed. -/
structure SoundReplay (registry : Registry) (sessionKey : String)
    (recorded : List BufferedSessionEvent) : Prop where
  increasing : Increasing (registry.eventsBySession sessionKey)
  bounded : (registry.eventsBySession sessionKey).length ≤ registry.maxEventsPerSession
  complete : ∀ (since : Int) (generation : Option String),
    (∀ given ∈ generation, given = registry.streamGeneration) →
    (registry.replay sessionKey (some since) generation).replayComplete = true →
      Increasing (registry.replay sessionKey (some since) generation).events ∧
      (registry.replay sessionKey (some since) generation).events.Sublist recorded ∧
      owed since (registry.replay sessionKey (some since) generation).events = owed since recorded

/-! ### Trimming -/

theorem dropOne_sublist (events : List BufferedSessionEvent) : (dropOne events).Sublist events := by
  unfold dropOne
  split
  · apply List.eraseP_sublist
  · apply List.tail_sublist

theorem length_dropOne (events : List BufferedSessionEvent) :
    (dropOne events).length = events.length - 1 := by
  unfold dropOne
  split
  · rename_i hlossy
    obtain ⟨event, hevent, hlossy⟩ := List.any_eq_true.mp hlossy
    apply List.length_eraseP_of_mem hevent hlossy
  · apply List.length_tail

theorem mem_dropOne {events : List BufferedSessionEvent} (hincreasing : Increasing events)
    {event : BufferedSessionEvent} (hevent : event ∈ events) (hlossy : event.lossy = false) :
    event ∈ dropOne events ∨ ∀ held ∈ dropOne events, event.streamSeq < held.streamSeq := by
  unfold dropOne
  split
  · left
    rw [List.mem_eraseP_of_neg (by simp [hlossy])]
    exact hevent
  · cases events with
    | nil => exact absurd hevent List.not_mem_nil
    | cons first rest =>
        rw [List.tail_cons]
        rcases List.mem_cons.mp hevent with rfl | hrest
        · right
          exact (List.pairwise_cons.mp hincreasing).1
        · left
          exact hrest

/-- The events of a list that increases, some of which were dropped. -/
structure Trimmed (events trimmed : List BufferedSessionEvent) : Prop where
  sublist : trimmed.Sublist events
  kept : ∀ event ∈ events, event.lossy = false →
    event ∈ trimmed ∨ ∀ held ∈ trimmed, event.streamSeq < held.streamSeq

theorem trimLoop_trimmed (maxEvents fuel : Nat) {events : List BufferedSessionEvent}
    (hincreasing : Increasing events) : Trimmed events (trimLoop maxEvents fuel events) := by
  induction fuel generalizing events with
  | zero => exact ⟨List.Sublist.refl _, fun event hevent _ => .inl hevent⟩
  | succ fuel ih =>
      unfold trimLoop
      split
      · have hdrop := dropOne_sublist events
        obtain ⟨hsublist, hkept⟩ := ih (hincreasing.sublist hdrop)
        refine ⟨hsublist.trans hdrop, fun event hevent hlossy => ?_⟩
        rcases mem_dropOne hincreasing hevent hlossy with hmem | hold
        · exact hkept event hmem hlossy
        · right
          intro held hheld
          exact hold held (hsublist.subset hheld)
      · exact ⟨List.Sublist.refl _, fun event hevent _ => .inl hevent⟩

theorem length_trimLoop {maxEvents fuel : Nat} {events : List BufferedSessionEvent}
    (hfuel : events.length ≤ maxEvents + fuel) :
    (trimLoop maxEvents fuel events).length = min events.length maxEvents := by
  induction fuel generalizing events with
  | zero =>
      show events.length = min events.length maxEvents
      omega
  | succ fuel ih =>
      unfold trimLoop
      have hlength := length_dropOne events
      split
      · rw [ih (by omega), hlength]
        omega
      · omega

theorem length_trimSessionEvents (maxEvents : Nat) (events : List BufferedSessionEvent) :
    (trimSessionEvents maxEvents events).length = min events.length maxEvents := by
  apply length_trimLoop
  omega

/-! ### Recording -/

namespace Buffers

variable {maxEvents current : Nat} {recorded buffer : List BufferedSessionEvent}

theorem nil (maxEvents current : Nat) : Buffers maxEvents current [] [] :=
  ⟨List.Pairwise.nil, by simp, List.Sublist.refl _, Nat.zero_le _, by simp, by simp⟩

theorem advance (h : Buffers maxEvents current recorded buffer) {current' : Nat}
    (hle : current ≤ current') : Buffers maxEvents current' recorded buffer := by
  refine ⟨h.increasing, fun event hevent => ?_, h.sublist, h.bounded, h.kept, h.nonempty⟩
  exact (h.current event hevent).trans hle

theorem increasing_concat (h : Buffers maxEvents current recorded buffer)
    {event : BufferedSessionEvent} (hseq : event.streamSeq = current + 1) :
    Increasing (recorded ++ [event]) := by
  refine List.pairwise_append.mpr ⟨h.increasing, List.pairwise_singleton _ _, ?_⟩
  intro earlier hearlier later hlater
  obtain rfl := List.mem_singleton.mp hlater
  have hcurrent := h.current earlier hearlier
  omega

theorem record (h : Buffers maxEvents current recorded buffer) (hmax : 1 ≤ maxEvents)
    {event : BufferedSessionEvent} (hseq : event.streamSeq = current + 1) :
    Buffers maxEvents (current + 1) (recorded ++ [event])
      (trimSessionEvents maxEvents (buffer ++ [event])) := by
  have hincreasing := h.increasing_concat hseq
  have happend : (buffer ++ [event]).Sublist (recorded ++ [event]) :=
    h.sublist.append (List.Sublist.refl _)
  have hlength := length_trimSessionEvents maxEvents (buffer ++ [event])
  rw [List.length_append, List.length_singleton] at hlength
  obtain ⟨hsublist, hkept⟩ :=
    trimLoop_trimmed maxEvents (buffer ++ [event]).length (hincreasing.sublist happend)
  refine ⟨hincreasing, fun earlier hearlier => ?_, hsublist.trans happend, by omega,
    fun earlier hearlier hlossy => ?_, fun _ hempty => ?_⟩
  · rcases List.mem_append.mp hearlier with hold | hnew
    · exact (h.current earlier hold).trans (Nat.le_succ _)
    · rw [List.mem_singleton.mp hnew, hseq]
  · rcases List.mem_append.mp hearlier with hold | hnew
    · rcases h.kept earlier hold hlossy with hmem | hbefore
      · exact hkept earlier (List.mem_append_left _ hmem) hlossy
      · -- already dropped: older than the buffer, and than the new event
        right
        intro held hheld
        rcases List.mem_append.mp (hsublist.subset hheld) with hheld | hheld
        · exact hbefore held hheld
        · rw [List.mem_singleton.mp hheld, hseq]
          have hcurrent := h.current earlier hold
          omega
    · exact hkept earlier (List.mem_append_right _ hnew) hlossy
  · rw [hempty, List.length_nil] at hlength
    omega

theorem owed_eq (h : Buffers maxEvents current recorded buffer) {since : Int}
    (hreach : ∀ first ∈ buffer.head?, (first.streamSeq : Int) - 1 ≤ since) :
    owed since buffer = owed since recorded := by
  have hsublist : (owed since buffer).Sublist (owed since recorded) := h.sublist.filter _
  have hnodup : recorded.Nodup := by
    apply h.increasing.imp
    intro a b hab heq
    rw [heq] at hab
    exact Nat.lt_irrefl _ hab
  have hsubset : owed since recorded ⊆ owed since buffer := by
    intro event hevent
    obtain ⟨hmem, howed⟩ := List.mem_filter.mp hevent
    rw [Bool.and_eq_true, decide_eq_true_eq, Bool.not_eq_true'] at howed
    apply List.mem_filter.mpr
    refine ⟨?_, by simpa using howed⟩
    rcases h.kept event hmem howed.2 with hheld | hbefore
    · exact hheld
    · cases hbuffer : buffer with
      | nil => exact absurd hbuffer (h.nonempty (List.ne_nil_of_mem hmem))
      | cons first rest =>
          have hfirst := hbefore first (by simp [hbuffer])
          have hcursor := hreach first (by simp [hbuffer])
          omega
  exact hsublist.eq_of_length_le (List.subperm_of_subset (hnodup.filter _) hsubset).length_le

theorem owed_past (h : Buffers maxEvents current recorded buffer) {since : Int}
    (hpast : current ≤ since) : owed since recorded = [] := by
  apply List.filter_eq_nil_iff.mpr
  intro event hevent
  have hcurrent := h.current event hevent
  simp only [Bool.and_eq_true, decide_eq_true_eq, not_and]
  omega

end Buffers

theorem owed_behind (since : Int) (events : List BufferedSessionEvent) :
    owed since (events.filter fun event => since < event.streamSeq) = owed since events := by
  unfold owed
  rw [List.filter_filter]
  apply List.filter_congr
  intro event _
  cases hseq : decide (since < (event.streamSeq : Int)) <;> simp_all

theorem Buffers.soundReplay {registry : Registry} {sessionKey : String}
    {recorded : List BufferedSessionEvent}
    (h : Buffers registry.maxEventsPerSession (registry.seqBySession sessionKey) recorded
      (registry.eventsBySession sessionKey)) : SoundReplay registry sessionKey recorded := by
  refine ⟨h.increasing.sublist h.sublist, h.bounded, fun since generation hgeneration => ?_⟩
  have hsame : (generation.any fun given => given ≠ registry.streamGeneration) = false := by
    cases generation with
    | none => rfl
    | some given => simp [hgeneration given rfl]
  have hnothing : owed since recorded = [] →
      Increasing [] ∧ ([] : List BufferedSessionEvent).Sublist recorded ∧
        owed since [] = owed since recorded :=
    fun howed => ⟨List.Pairwise.nil, List.nil_sublist _, howed.symm⟩
  unfold Registry.replay
  simp only [hsame, Bool.false_eq_true, if_false]
  split
  · rename_i hzero
    intro hcomplete
    apply hnothing
    apply h.owed_past
    have hsince : since = 0 := of_decide_eq_true hcomplete
    omega
  · split
    · exact fun hcomplete => absurd hcomplete (by simp)
    · split
      · rename_i hcurrent
        intro _
        apply hnothing
        apply h.owed_past
        omega
      · split
        · exact fun hcomplete => absurd hcomplete (by simp)
        · rename_i first rest hbuffer
          intro hcomplete
          have hreach : ∀ held ∈ (registry.eventsBySession sessionKey).head?,
              (held.streamSeq : Int) - 1 ≤ since := by
            intro held hheld
            rw [hbuffer, List.head?_cons, Option.mem_some_iff] at hheld
            rw [← hheld]
            exact of_decide_eq_true hcomplete
          have hfilter : ((first :: rest).filter fun event => since < event.streamSeq).Sublist
              recorded := by
            rw [← hbuffer]
            exact List.filter_sublist.trans h.sublist
          refine ⟨h.increasing.sublist hfilter, hfilter, ?_⟩
          rw [owed_behind, ← hbuffer]
          exact h.owed_eq hreach

/-! ### Runs -/

/-- Every session's buffer, in a registry that has room for an event. -/
structure Sound (t : Traced) : Prop where
  room : 1 ≤ t.registry.maxEventsPerSession
  buffers : ∀ sessionKey, Buffers t.registry.maxEventsPerSession
    (t.registry.seqBySession sessionKey) (t.recorded sessionKey)
    (t.registry.eventsBySession sessionKey)

theorem Sound.record {t : Traced} (h : Sound t) (sessionKey eventName : String)
    (payload : Option Payload) (now : Int) :
    Sound (t.step (.record sessionKey eventName payload now)) := by
  refine ⟨h.room, fun other => ?_⟩
  by_cases heq : other = sessionKey
  · subst heq
    simp only [Traced.step, Registry.record, Function.update_self]
    exact (h.buffers other).record h.room rfl
  · simp only [Traced.step, Registry.record, Function.update_of_ne heq]
    exact h.buffers other

theorem Sound.promote {t : Traced} (h : Sound t) (sessionKey : String) (since : Option Int) :
    Sound (t.step (.promote sessionKey since)) := by
  cases since with
  | none => exact h
  | some since =>
      simp only [Traced.step, Registry.promoteLegacyCursor]
      split
      · rename_i hahead
        refine ⟨h.room, fun other => ?_⟩
        by_cases heq : other = sessionKey
        · subst heq
          simp only [Function.update_self]
          apply (h.buffers other).advance
          omega
        · simp only [Function.update_of_ne heq]
          exact h.buffers other
      · exact h

theorem Sound.step {t : Traced} (h : Sound t) (op : StreamOp) : Sound (t.step op) := by
  cases op with
  | record sessionKey eventName payload now => exact h.record sessionKey eventName payload now
  | promote sessionKey since => exact h.promote sessionKey since

theorem sound_of_reached {t : Traced} (h : Reached t) : Sound t := by
  apply Reach.invariant _ _ h
  · rintro t ⟨maxEvents, generation, hmax, rfl⟩
    exact ⟨hmax, fun sessionKey => Buffers.nil _ _⟩
  · intro t op t' hsound _ hstep
    rw [← Option.some.inj hstep]
    exact hsound.step op

theorem replay_sound {t : Traced} (h : Reached t) (sessionKey : String) :
    SoundReplay t.registry sessionKey (t.recorded sessionKey) :=
  ((sound_of_reached h).buffers sessionKey).soundReplay

def promotedRun : Traced :=
  (((Traced.start 2 "g").step (.promote "s" (some 4200))).step (.record "s" textDelta none 0)).step
    (.record "s" compaction none 1)

theorem replay_sound_promoted :
    SoundReplay promotedRun.registry "s" (promotedRun.recorded "s") := by
  apply replay_sound
  have hstart : Reached (Traced.start 2 "g") := .start ⟨2, "g", by decide, rfl⟩
  exact ((hstart.next trivial rfl).next trivial rfl).next trivial rfl

end OpenStarry.Stream
