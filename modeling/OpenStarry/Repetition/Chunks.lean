import OpenStarry.Repetition.Guard

/-!
# Deltas of any size

The guard reads one character after another: what it has kept at a check is the end of all normalized
characters, wherever the deltas were cut.
-/

namespace OpenStarry.Repetition

open Lib Lib.Text

variable {R : Type} (runtime : Runtime R) (policy : RepetitionGuardPolicy R)

/-! ### The guard without its buffer -/

/-- What has been read: all normalized characters, and the progress of the checks. -/
structure Reading where
  text : Str
  nextCheck : Nat
  lastWhitespace : Option Char
  streak : Nat

def Reading.initial : Reading := ⟨[], policy.checkStrideChars, none, 0⟩

/-- A check of the end of the text. -/
def Reading.check (reading : Reading) : Except GuardError (Reading × Option (RepetitionDetection R)) :=
  (detect runtime policy (lastChars policy.maxBufferChars reading.text)).map fun candidate =>
    let reading := { reading with nextCheck := reading.nextCheck + policy.checkStrideChars }
    match candidate with
    | none => ({ reading with streak := 0 }, none)
    | some candidate =>
        let reading := { reading with streak := reading.streak + 1 }
        (reading, if policy.requiredConsecutiveChecks ≤ reading.streak then some candidate else none)

/-- One character. -/
def Reading.read (reading : Reading) (char : Char) :
    Except GuardError (Reading × Option (RepetitionDetection R)) :=
  let (normalized, lastWhitespace) := normalize reading.lastWhitespace char
  match normalized with
  | none => .ok ({ reading with lastWhitespace := lastWhitespace }, none)
  | some normalized =>
      let reading :=
        { reading with text := reading.text ++ [normalized], lastWhitespace := lastWhitespace }
      if reading.text.length < reading.nextCheck then .ok (reading, none)
      else reading.check runtime policy

/-! ### The buffer -/

theorem length_lastChars (count : Nat) (text : Str) :
    (lastChars count text).length = min count text.length := by
  rw [lastChars, List.length_drop]
  omega

theorem lastChars_lastChars_append (count : Nat) (front text : Str) :
    lastChars count (lastChars count front ++ text) = lastChars count (front ++ text) := by
  rw [lastChars, lastChars, lastChars, List.length_append, List.length_drop, List.length_append,
    List.drop_append, List.drop_append, List.drop_drop, List.length_drop]
  congr 1
  · congr 1
    omega
  · congr 1
    omega

theorem dropOverflow_eq {chunks : List Str} {overflow : Nat} (chars : Nat)
    (hoverflow : overflow ≤ chunks.flatten.length) :
    (dropOverflow chunks overflow chars).1.flatten = chunks.flatten.drop overflow ∧
      (dropOverflow chunks overflow chars).2 = chars - overflow := by
  induction chunks generalizing overflow chars with
  | nil =>
      obtain rfl : overflow = 0 := by simpa using hoverflow
      exact ⟨rfl, rfl⟩
  | cons oldest rest ih =>
      rw [List.flatten_cons, List.length_append] at hoverflow
      rw [dropOverflow]
      split_ifs with hzero hshort
      · subst hzero
        exact ⟨rfl, rfl⟩
      · obtain ⟨hflatten, hchars⟩ := ih (chars - oldest.length)
          (show overflow - oldest.length ≤ rest.flatten.length by omega)
        rw [hflatten, hchars, List.flatten_cons, List.drop_append, List.drop_of_length_le hshort]
        exact ⟨rfl, by omega⟩
      · rw [List.flatten_cons, List.flatten_cons, List.drop_append_of_le_length (by omega)]
        exact ⟨rfl, rfl⟩

def Buffers (state : GuardState) (front : Str) : Prop :=
  state.bufferChunks.flatten = lastChars policy.maxBufferChars front ∧
    state.bufferChars = state.bufferChunks.flatten.length

variable {runtime policy}

theorem Buffers.le {state : GuardState} {front : Str} (h : Buffers policy state front) :
    state.bufferChars ≤ policy.maxBufferChars := by
  rw [h.2, h.1, length_lastChars]
  omega

theorem Buffers.append {state : GuardState} {front : Str} (h : Buffers policy state front) (text : Str) :
    Buffers policy (append policy text state) (front ++ text) := by
  rw [Repetition.append]
  split_ifs with hempty
  · rw [hempty, List.append_nil]
    exact h
  · obtain ⟨hflatten, hchars⟩ := h
    have hall : (state.bufferChunks ++ [text]).flatten = lastChars policy.maxBufferChars front ++ text := by
      rw [List.flatten_append, hflatten, List.flatten_singleton]
    have hlength : state.bufferChars + text.length = (state.bufferChunks ++ [text]).flatten.length := by
      rw [hchars, List.flatten_append, List.length_append, List.flatten_singleton]
    obtain ⟨hkept, hcount⟩ := dropOverflow_eq (state.bufferChars + text.length)
      (show state.bufferChars + text.length - policy.maxBufferChars ≤
        (state.bufferChunks ++ [text]).flatten.length by omega)
    refine ⟨?_, ?_⟩
    · dsimp only
      rw [hkept, hlength, hall, ← lastChars_lastChars_append]
      rfl
    · dsimp only
      rw [hcount, hkept, List.length_drop, ← hlength]

/-! ### The guard reads -/

/-- The guard has read what the reading has, up to what is still pending. -/
structure Follows (policy : RepetitionGuardPolicy R) (state : GuardState) (pending : Str)
    (reading : Reading) : Prop where
  buffers : ∃ front, reading.text = front ++ pending ∧ Buffers policy state front
  normalizedChars : state.normalizedChars = reading.text.length
  nextCheck : state.nextCheck = reading.nextCheck
  lastWhitespace : state.lastWhitespace = reading.lastWhitespace
  streak : state.repeatEvidenceStreak = reading.streak

theorem Follows.append {state : GuardState} {pending : Str} {reading : Reading}
    (h : Follows policy state pending reading) :
    Follows policy (append policy pending state) [] reading := by
  obtain ⟨⟨front, htext, hbuffers⟩, hnormalized, hcheck, hspace, hstreak⟩ := h
  have hbuffers := hbuffers.append pending
  rw [← htext] at hbuffers
  refine ⟨⟨reading.text, (List.append_nil _).symm, hbuffers⟩, ?_, ?_, ?_, ?_⟩ <;>
    rw [Repetition.append] <;> split_ifs <;> assumption

theorem exists_detectIn_eq {state : GuardState} {front : Str} (h : Buffers policy state front) :
    ∃ chunks, chunks.flatten = state.bufferChunks.flatten ∧
      detectIn runtime policy state =
        (detect runtime policy (lastChars policy.maxBufferChars front)).map fun candidate =>
          ({ state with bufferChunks := chunks }, candidate) := by
  rw [detectIn, detect, ← h.1, ← h.2]
  split_ifs with hshort hjoined
  · exact ⟨state.bufferChunks, rfl, rfl⟩
  · exact ⟨state.bufferChunks, rfl, rfl⟩
  · exact ⟨[state.bufferChunks.flatten], List.flatten_singleton, rfl⟩

theorem checkpoint_follows (runtime : Runtime R) {state : GuardState} {reading : Reading}
    (h : Follows policy state [] reading) :
    match checkpoint runtime policy state, reading.check runtime policy with
    | .ok (state', found), .ok (reading', found') => found = found' ∧ Follows policy state' [] reading'
    | .error e, .error e' => e = e'
    | _, _ => False := by
  obtain ⟨⟨front, htext, hbuffers⟩, hnormalized, hcheck, hspace, hstreak⟩ := h
  rw [List.append_nil] at htext
  subst htext
  obtain ⟨chunks, hchunks, hdetect⟩ := exists_detectIn_eq hbuffers
  have hbuffersAfter (nextCheck streak : Nat) : ∃ front, reading.text = front ++ [] ∧
      Buffers policy { state with
        bufferChunks := chunks, nextCheck := nextCheck, repeatEvidenceStreak := streak } front :=
    ⟨reading.text, (List.append_nil _).symm, by rw [Buffers, hchunks]; exact hbuffers⟩
  rw [checkpoint, hdetect, Reading.check]
  cases detect runtime policy (lastChars policy.maxBufferChars reading.text) with
  | error e => rfl
  | ok candidate =>
      cases candidate with
      | none => exact ⟨rfl, hbuffersAfter _ _, hnormalized, congrArg (· + _) hcheck, hspace, rfl⟩
      | some candidate =>
          have hstreak' : state.repeatEvidenceStreak + 1 = reading.streak + 1 := congrArg (· + 1) hstreak
          simp only [Except.map, bind, Except.bind, pure, Except.pure]
          rw [hstreak']
          split_ifs
          · exact ⟨rfl, hbuffersAfter _ _, hnormalized, congrArg (· + _) hcheck, hspace, rfl⟩
          · exact ⟨rfl, hbuffersAfter _ _, hnormalized, congrArg (· + _) hcheck, hspace, rfl⟩

theorem feedFrom_agrees {state : GuardState} {pending : Str} {reading : Reading}
    (h : Follows policy state pending reading) (text : Str) :
    Agrees (fun state reading => Follows policy state [] reading)
      (feedFrom runtime policy state pending text) (scan (Reading.read runtime policy) reading text) := by
  induction text generalizing state pending reading with
  | nil => exact ⟨rfl, rfl, h.append⟩
  | cons char rest ih =>
      have hcons {state : GuardState} {pending : Str} {reading : Reading}
          (h : Follows policy state pending reading) :
          Agrees (fun state reading => Follows policy state [] reading)
            ((feedFrom runtime policy state pending rest).map fun after =>
              { after with taken := char :: after.taken })
            ((scan (Reading.read runtime policy) reading rest).map fun after =>
              ⟨after.state, char :: after.taken, after.found⟩) := by
        have hrest := ih h
        revert hrest
        cases feedFrom runtime policy state pending rest with
        | error e =>
            cases scan (Reading.read runtime policy) reading rest with
            | error e' => exact id
            | ok b => exact id
        | ok a =>
            cases scan (Reading.read runtime policy) reading rest with
            | error e' => exact id
            | ok b => exact fun hrest => ⟨congrArg (char :: ·) hrest.1, hrest.2⟩
      rw [feedFrom, scan, Reading.read, h.lastWhitespace]
      obtain ⟨⟨front, htext, hbuffers⟩, hnormalized, hcheck, hspace, hstreak⟩ := h
      obtain ⟨normalized, lastWhitespace⟩ := normalize reading.lastWhitespace char
      cases normalized with
      | none => exact hcons ⟨⟨front, htext, hbuffers⟩, hnormalized, hcheck, rfl, hstreak⟩
      | some normalized =>
          have hnext : Follows policy
              { state with
                lastWhitespace := lastWhitespace, normalizedChars := state.normalizedChars + 1 }
              (pending ++ [normalized])
              { reading with text := reading.text ++ [normalized], lastWhitespace := lastWhitespace } := by
            refine ⟨⟨front, ?_, hbuffers⟩, ?_, hcheck, rfl, hstreak⟩
            · dsimp only
              rw [htext, List.append_assoc]
            · dsimp only
              rw [hnormalized, List.length_append, List.length_singleton]
          have hearly : state.normalizedChars + 1 < state.nextCheck ↔
              (reading.text ++ [normalized]).length < reading.nextCheck := by
            rw [← hcheck]
            exact iff_of_eq (congrArg (· < state.nextCheck) hnext.normalizedChars)
          dsimp only
          by_cases hlt : (reading.text ++ [normalized]).length < reading.nextCheck
          · rw [if_pos hlt, if_pos (hearly.mpr hlt)]
            exact hcons hnext
          · rw [if_neg hlt, if_neg fun h => hlt (hearly.mp h)]
            have hchecked := checkpoint_follows runtime hnext.append
            revert hchecked
            cases checkpoint runtime policy (append policy (pending ++ [normalized])
              { state with
                lastWhitespace := lastWhitespace, normalizedChars := state.normalizedChars + 1 }) with
            | error e =>
                cases Reading.check runtime policy
                  { reading with text := reading.text ++ [normalized], lastWhitespace := lastWhitespace } with
                | error e' => exact id
                | ok checked => exact False.elim
            | ok after =>
                cases Reading.check runtime policy
                  { reading with text := reading.text ++ [normalized], lastWhitespace := lastWhitespace } with
                | error e' => exact False.elim
                | ok checked =>
                    rintro ⟨hfound, hafter⟩
                    obtain ⟨state', found⟩ := after
                    obtain ⟨reading', _⟩ := checked
                    cases hfound
                    cases found with
                    | none => exact hcons hafter
                    | some found => exact ⟨rfl, rfl, hafter⟩

theorem feed_agrees (state : GuardState) (reading : Reading) (text : Str)
    (h : Follows policy state [] reading) :
    Agrees (fun state reading => Follows policy state [] reading) (feed runtime policy state text)
      (scan (Reading.read runtime policy) reading text) := by
  rw [feed]
  split_ifs with hempty
  · subst hempty
    exact ⟨rfl, rfl, h⟩
  · exact feedFrom_agrees h text

theorem follows_initial : Follows policy (.initial policy) [] (.initial policy) := by
  refine ⟨⟨[], rfl, ?_, rfl⟩, rfl, rfl, rfl, rfl⟩
  rw [lastChars, List.drop_nil]
  rfl

/-! ### Deltas of any size -/

variable (runtime policy)

def accepted (outcome : Except GuardError (Scanned GuardState Char (RepetitionDetection R))) :
    Except GuardError (Str × Option (RepetitionDetection R)) :=
  outcome.map fun after => (after.taken, after.found)

/-- However a text is split, the guard accepts the same prefix and detects the same, and never keeps
more than its limit. -/
theorem feedDeltas_chunk_invariant (deltas : List Str) :
    accepted (feedDeltas runtime policy deltas) =
        accepted (feed runtime policy (.initial policy) deltas.flatten) ∧
      ∀ after, feedDeltas runtime policy deltas = .ok after →
        after.state.bufferChars ≤ policy.maxBufferChars := by
  have hwhole : Agrees (fun state reading => Follows policy state [] reading)
      (feed runtime policy (.initial policy) deltas.flatten)
      (scan (Reading.read runtime policy) (.initial policy) deltas.flatten) :=
    feed_agrees _ _ _ follows_initial
  have hdeltas : Agrees (fun state reading => Follows policy state [] reading)
      (feedDeltas runtime policy deltas)
      (scan (Reading.read runtime policy) (.initial policy) deltas.flatten) :=
    agrees_feedAll feed_agrees follows_initial deltas
  constructor
  · rw [accepted, accepted]
    match feedDeltas runtime policy deltas, feed runtime policy (.initial policy) deltas.flatten,
      scan (Reading.read runtime policy) (.initial policy) deltas.flatten, hdeltas, hwhole with
    | .error e, .error _, .error _, rfl, rfl => rfl
    | .ok a, .ok b, .ok c, ⟨htaken, hfound, _⟩, ⟨htaken', hfound', _⟩ =>
        exact congrArg Except.ok (Prod.ext (htaken.trans htaken'.symm) (hfound.trans hfound'.symm))
  · intro after hafter
    rw [hafter] at hdeltas
    match scan (Reading.read runtime policy) (.initial policy) deltas.flatten, hdeltas with
    | .ok _, ⟨_, _, ⟨_, _, hbuffers⟩, _, _, _, _⟩ => exact hbuffers.le

end OpenStarry.Repetition
