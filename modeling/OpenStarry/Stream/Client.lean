import OpenStarry.Stream.Replay

/-!
# A client that comes back with its cursor

A client asks for replays of one session, each time with the number its last complete answer ended
at. Between two requests anything may be recorded for any session, and other clients may lift the
counter. An incomplete answer is no use to the client, which keeps its cursor.
-/

namespace OpenStarry.Stream

open Lib

structure Client where
  traced : Traced
  cursor : Nat
  received : List BufferedSessionEvent

inductive ClientAction where
  | stream (op : StreamOp)
  | ask

namespace Client

variable (sessionKey : String) (c : Client)

def answer : Registry.ReplayResult :=
  c.traced.registry.replay sessionKey (some c.cursor) (some c.traced.registry.streamGeneration)

def step : ClientAction → Client
  | .stream op => { c with traced := c.traced.step op }
  | .ask =>
      if (c.answer sessionKey).replayComplete then
        { c with cursor := (c.answer sessionKey).currentStreamSeq
                 received := c.received ++ (c.answer sessionKey).events }
      else c

def Reached : Prop :=
  Reach (fun c => ∃ maxEvents generation, 1 ≤ maxEvents ∧ c = ⟨.start maxEvents generation, 0, []⟩)
    (fun c action => some (c.step sessionKey action)) anyStep c

theorem current_answer :
    (c.answer sessionKey).currentStreamSeq = c.traced.registry.seqBySession sessionKey := by
  unfold answer Registry.replay
  dsimp only
  split
  · rfl
  · split
    · rfl
    · split
      · rfl
      · split
        · rfl
        · split
          · rfl
          · rfl

/-- An answer holds nothing that the client has been given before. -/
theorem cursor_lt_of_mem_answer :
    ∀ event ∈ (c.answer sessionKey).events, c.cursor < event.streamSeq := by
  have hnone : ∀ event ∈ ([] : List BufferedSessionEvent), c.cursor < event.streamSeq :=
    fun event hevent => absurd hevent List.not_mem_nil
  unfold answer Registry.replay
  dsimp only
  split
  · exact hnone
  · split
    · exact hnone
    · split
      · exact hnone
      · split
        · exact hnone
        · split
          · exact hnone
          · intro event hevent
            have hbehind := (List.mem_filter.mp hevent).2
            rw [decide_eq_true_eq] at hbehind
            exact Int.ofNat_lt.mp hbehind

end Client

def lasting (events : List BufferedSessionEvent) : List BufferedSessionEvent :=
  events.filter fun event => !event.lossy

theorem owed_eq_lasting {cursor : Nat} {events : List BufferedSessionEvent}
    (h : ∀ event ∈ events, cursor < event.streamSeq) : owed cursor events = lasting events := by
  apply List.filter_congr
  intro event hevent
  rw [decide_eq_true (Int.ofNat_lt.mpr (h event hevent)), Bool.true_and]

/-- What was received, and what is still owed for the cursor, is all that lasts. -/
structure Follows (sessionKey : String) (c : Client) : Prop where
  sound : Sound c.traced
  cursor_le : c.cursor ≤ c.traced.registry.seqBySession sessionKey
  increasing : Increasing c.received
  recorded : ∀ event ∈ c.received, event ∈ c.traced.recorded sessionKey
  cursor : ∀ event ∈ c.received, event.streamSeq ≤ c.cursor
  all : lasting c.received ++ owed c.cursor (c.traced.recorded sessionKey) =
    lasting (c.traced.recorded sessionKey)

namespace Follows

variable {sessionKey : String} {c : Client}

theorem record (h : Follows sessionKey c) (key eventName : String) (payload : Option Payload)
    (now : Int) :
    Follows sessionKey (c.step sessionKey (.stream (.record key eventName payload now))) := by
  by_cases hkey : sessionKey = key
  · subst hkey
    have hle := h.cursor_le
    have howed : owed c.cursor [c.traced.registry.nextEvent sessionKey eventName payload now] =
        lasting [c.traced.registry.nextEvent sessionKey eventName payload now] := by
      apply owed_eq_lasting
      intro event hevent
      rw [List.mem_singleton.mp hevent]
      exact Nat.lt_succ_of_le hle
    refine ⟨h.sound.record _ _ _ _, ?_, h.increasing, fun event hevent => ?_, h.cursor, ?_⟩
    · simp only [Client.step, Traced.step, Registry.record, Function.update_self]
      exact Nat.le_succ_of_le hle
    · simp only [Client.step, Traced.step, Function.update_self]
      exact List.mem_append_left _ (h.recorded event hevent)
    · simp only [Client.step, Traced.step, Function.update_self]
      rw [owed, List.filter_append, ← owed, ← owed, howed, ← List.append_assoc, h.all]
      exact (List.filter_append _ _).symm
  · refine ⟨h.sound.record _ _ _ _, ?_, h.increasing, ?_, h.cursor, ?_⟩
    · simp only [Client.step, Traced.step, Registry.record, Function.update_of_ne hkey]
      exact h.cursor_le
    · simp only [Client.step, Traced.step, Function.update_of_ne hkey]
      exact h.recorded
    · simp only [Client.step, Traced.step, Function.update_of_ne hkey]
      exact h.all

theorem promote (h : Follows sessionKey c) (key : String) (since : Option Int) :
    Follows sessionKey (c.step sessionKey (.stream (.promote key since))) := by
  refine ⟨h.sound.promote key since, h.cursor_le.trans ?_, h.increasing, h.recorded, h.cursor,
    h.all⟩
  cases since with
  | none => exact Nat.le_refl _
  | some since =>
      simp only [Client.step, Traced.step, Registry.promoteLegacyCursor]
      split
      · by_cases hkey : sessionKey = key
        · subst hkey
          simp only [Function.update_self]
          omega
        · simp only [Function.update_of_ne hkey]
          exact Nat.le_refl _
      · exact Nat.le_refl _

/-- A complete answer is what is owed. -/
theorem ask (h : Follows sessionKey c)
    (hcomplete : (c.answer sessionKey).replayComplete = true) :
    Follows sessionKey (c.step sessionKey .ask) := by
  have hbuffers := h.sound.buffers sessionKey
  obtain ⟨hincreasing, hsublist, howed⟩ := hbuffers.soundReplay.complete c.cursor
    (some c.traced.registry.streamGeneration) (fun given hgiven => (Option.mem_some.mp hgiven).symm)
    hcomplete
  have hlater := c.cursor_lt_of_mem_answer sessionKey
  have hpast := hbuffers.owed_past (Int.le_refl (c.traced.registry.seqBySession sessionKey : Int))
  rw [Client.step, if_pos hcomplete, Client.current_answer]
  refine ⟨h.sound, Nat.le_refl _, ?_, fun event hevent => ?_, fun event hevent => ?_, ?_⟩
  · apply List.pairwise_append.mpr
    refine ⟨h.increasing, hincreasing, fun event hevent later hmem => ?_⟩
    exact (h.cursor event hevent).trans_lt (hlater later hmem)
  · obtain hevent | hevent := List.mem_append.mp hevent
    · exact h.recorded event hevent
    · exact hsublist.subset hevent
  · obtain hevent | hevent := List.mem_append.mp hevent
    · exact (h.cursor event hevent).trans h.cursor_le
    · exact hbuffers.current event (hsublist.subset hevent)
  · rw [hpast, List.append_nil, lasting, List.filter_append]
    refine Eq.trans ?_ h.all
    exact congrArg (lasting c.received ++ ·) ((owed_eq_lasting hlater).symm.trans howed)

end Follows

theorem follows_of_reached {sessionKey : String} {c : Client} (h : c.Reached sessionKey) :
    Follows sessionKey c := by
  apply Reach.invariant _ _ h
  · rintro c ⟨maxEvents, generation, hmax, rfl⟩
    exact ⟨⟨hmax, fun key => Buffers.nil _ _⟩, Nat.zero_le _, List.Pairwise.nil,
      fun _ hevent => absurd hevent List.not_mem_nil,
      fun _ hevent => absurd hevent List.not_mem_nil, rfl⟩
  · intro c action c' hfollows _ hstep
    rw [← Option.some.inj hstep]
    cases action with
    | stream op =>
        cases op with
        | record key eventName payload now => exact hfollows.record key eventName payload now
        | promote key since => exact hfollows.promote key since
    | ask =>
        by_cases hcomplete : (c.answer sessionKey).replayComplete = true
        · exact hfollows.ask hcomplete
        · rw [Client.step, if_neg hcomplete]
          exact hfollows

/-- A client is given recorded events in their order and none of them twice; the lasting ones it has
not been given are those behind its cursor, and after a complete answer there are none. -/
theorem client_misses_nothing {sessionKey : String} {c : Client} (h : c.Reached sessionKey) :
    Increasing c.received ∧ (∀ event ∈ c.received, event ∈ c.traced.recorded sessionKey) ∧
      lasting c.received ++ owed c.cursor (c.traced.recorded sessionKey) =
        lasting (c.traced.recorded sessionKey) ∧
      ((c.answer sessionKey).replayComplete = true →
        lasting (c.step sessionKey .ask).received = lasting (c.traced.recorded sessionKey)) := by
  have hfollows := follows_of_reached h
  refine ⟨hfollows.increasing, hfollows.recorded, hfollows.all, fun hcomplete => ?_⟩
  have hbuffers := hfollows.sound.buffers sessionKey
  have hall := (hfollows.ask hcomplete).all
  rw [Client.step, if_pos hcomplete, Client.current_answer] at hall ⊢
  rw [hbuffers.owed_past (Int.le_refl _), List.append_nil] at hall
  exact hall

/-- Room for two events; three are recorded, and two requests made. -/
def returningClient : Client :=
  (((((⟨.start 2 "g", 0, []⟩ : Client).step "s" (.stream (.record "s" compaction none 0))).step "s"
    .ask).step "s" (.stream (.record "s" textDelta none 1))).step "s"
    (.stream (.record "s" compaction none 2))).step "s" .ask

theorem returningClient_misses_nothing :
    Increasing returningClient.received ∧
      (∀ event ∈ returningClient.received, event ∈ returningClient.traced.recorded "s") ∧
      lasting returningClient.received ++
          owed returningClient.cursor (returningClient.traced.recorded "s") =
        lasting (returningClient.traced.recorded "s") ∧
      ((returningClient.answer "s").replayComplete = true →
        lasting (returningClient.step "s" .ask).received =
          lasting (returningClient.traced.recorded "s")) := by
  apply client_misses_nothing
  have hstart : Client.Reached "s" ⟨.start 2 "g", 0, []⟩ := .start ⟨2, "g", Nat.le_succ 1, rfl⟩
  exact ((((hstart.next trivial rfl).next trivial rfl).next trivial rfl).next trivial rfl).next
    trivial rfl

end OpenStarry.Stream
