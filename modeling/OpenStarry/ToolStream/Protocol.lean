import OpenStarry.ToolStream.Calls

/-!
# The tool-call stream protocol

A run performs operations until the first protocol error. What it has emitted for a key is nothing or
one start, a delta for each accepted fragment in order, and at most one end behind them, all with one
id that no other key has.
-/

namespace OpenStarry.ToolStream

open Lib Text

/-! ### Runs -/

/-- The operations on an accumulator. `hex` is that of the identifier drawn for a call without an
id. -/
inductive Operation (κ ν : Type) where
  | start (key : κ) (toolUseId toolName : Arg)
  | appendOrStart (hex : Str) (key : κ) (toolCallId toolName fragment : Arg)
  | append (key : κ) (fragment : Arg)
  | setMetadata (key : κ) (name : Str) (value : ν)
  | finishWithArguments (key : κ) (arguments : Option Json)

def Arg.texts : Arg → List Str
  | text value => [value]
  | _ => []

namespace Operation

variable {κ ν : Type}

def key : Operation κ ν → κ
  | start key _ _ => key
  | appendOrStart _ key _ _ _ => key
  | append key _ => key
  | setMetadata key _ _ => key
  | finishWithArguments key _ => key

def fragments : Operation κ ν → List Str
  | start _ _ _ => []
  | appendOrStart _ _ _ _ fragment => if fragment.truthy then fragment.texts else []
  | append _ fragment => fragment.texts
  | setMetadata _ _ _ => []
  | finishWithArguments _ _ => []

end Operation

variable {κ ν : Type} [DecidableEq κ]

namespace ToolStreamAccumulator

def perform (acc : ToolStreamAccumulator κ ν) : Operation κ ν →
    Except (ToolStreamProtocolError κ) (ToolStreamAccumulator κ ν × List StreamEvent)
  | .start key toolUseId toolName => acc.start key toolUseId toolName
  | .appendOrStart hex key toolCallId toolName fragment =>
      acc.appendOrStart hex key toolCallId toolName fragment
  | .append key fragment => acc.append key fragment
  | .setMetadata key name value => (acc.setMetadata key name value).map fun acc => (acc, [])
  | .finishWithArguments key arguments => acc.finishWithArguments key arguments

def run (acc : ToolStreamAccumulator κ ν) :
    List (Operation κ ν) → List (Operation κ ν × List StreamEvent)
  | [] => []
  | operation :: rest =>
      match acc.perform operation with
      | .error _ => []
      | .ok (acc, events) => (operation, events) :: acc.run rest

end ToolStreamAccumulator

def eventsOf (key : κ) (log : List (Operation κ ν × List StreamEvent)) : List StreamEvent :=
  (log.filter fun entry => entry.1.key = key).flatMap Prod.snd

def fragmentsOf (key : κ) (log : List (Operation κ ν × List StreamEvent)) : List Str :=
  (log.filter fun entry => entry.1.key = key).flatMap fun entry => entry.1.fragments

/-! ### One operation -/

/-- From `acc` to `acc'` nothing has changed for the other keys, and no id was given up. -/
structure Elsewhere (key : κ) (acc acc' : ToolStreamAccumulator κ ν) : Prop where
  calls : ∀ other, other ≠ key → acc'.calls.lookup other = acc.calls.lookup other
  closed : ∀ other, other ≠ key → (other ∈ acc'.closed ↔ other ∈ acc.closed)
  identity : ∀ toolUseId owner, acc.identityKeys.lookup toolUseId = some owner →
    acc'.identityKeys.lookup toolUseId = some owner

theorem Extends.elsewhere {key : κ} {acc acc' : ToolStreamAccumulator κ ν}
    (h : Extends key acc acc') : Elsewhere key acc acc' :=
  ⟨h.calls, fun _ _ => by rw [h.closed], h.identity⟩

/-- The accumulator agrees with what was accepted and emitted for the key. -/
structure Tracks (acc : ToolStreamAccumulator κ ν) (key : κ) (accepted : List Str)
    (emitted : List StreamEvent) : Prop where
  call : ∀ call, acc.calls.lookup key = some call → CallInv acc key call accepted emitted
  unseen : acc.calls.lookup key = none → accepted = [] ∧ emitted = [] ∧ key ∉ acc.closed

section

variable {acc acc' : ToolStreamAccumulator κ ν} {key other : κ} {call : PendingToolCall ν}
  {accepted : List Str} {emitted events : List StreamEvent}

theorem Tracks.elsewhere (h : Tracks acc other accepted emitted) (hother : other ≠ key)
    (helse : Elsewhere key acc acc') : Tracks acc' other accepted emitted where
  call := by
    intro call hlookup
    rw [helse.calls other hother] at hlookup
    have hcall := h.call call hlookup
    exact
      { parts := hcall.parts
        reserved := fun hid => helse.identity _ _ (hcall.reserved hid)
        held := fun hstart => by
          rw [helse.closed other hother]
          exact hcall.held hstart
        complete := hcall.complete
        started := fun hstart hopen => hcall.started hstart
          (by rwa [← helse.closed other hother])
        ended := fun hstart hclosed => hcall.ended hstart
          (by rwa [← helse.closed other hother]) }
  unseen := by
    intro hlookup
    rw [helse.calls other hother] at hlookup
    rw [helse.closed other hother]
    exact h.unseen hlookup

theorem Tracks.store (h : CallInv acc key call accepted emitted) :
    Tracks (acc.store key call) key accepted emitted where
  call := by
    intro found hlookup
    rw [lookup_store, Option.some.injEq] at hlookup
    rw [← hlookup]
    exact h.extend (.store call)
  unseen := by
    intro hlookup
    rw [lookup_store] at hlookup
    cases hlookup

theorem rejectClosedMutation_spec {operation : Verb}
    (h : acc.rejectClosedMutation key operation = .ok ()) : key ∉ acc.closed := by
  rw [ToolStreamAccumulator.rejectClosedMutation] at h
  split_ifs at h with hclosed
  exact hclosed

theorem openCall_tracks {operation : Verb} {reported publicId toolName : Str} {wireId : Option Str}
    (htracks : Tracks acc key accepted emitted) (hlookup : acc.calls.lookup key = none)
    (h : acc.openCall operation key reported publicId toolName wireId = .ok (acc', call)) :
    Extends key acc acc' ∧ CallInv acc' key call accepted emitted := by
  obtain ⟨rfl, rfl, hopen⟩ := htracks.unseen hlookup
  exact openCall_spec hopen h

theorem identifyStart_spec {toolUseId toolName : Str} (htracks : Tracks acc key accepted emitted)
    (h : acc.identifyStart key toolUseId toolName = .ok (acc', call)) :
    Extends key acc acc' ∧ CallInv acc' key call accepted emitted := by
  rw [ToolStreamAccumulator.identifyStart] at h
  split at h
  · rename_i hlookup
    exact openCall_tracks htracks hlookup h
  · rename_i held hlookup
    obtain ⟨⟨merged, middle⟩, hmerge, hname⟩ := bind_eq_ok.mp h
    obtain ⟨hext, hcall⟩ := mergeToolUseId_spec (htracks.call held hlookup) hmerge
    obtain ⟨hext', hcall⟩ := mergeToolName_spec hcall hname
    exact ⟨hext.trans hext', hcall⟩

theorem identifyChunk_spec {hex toolName : Str} {toolCallId : Option Str}
    (htracks : Tracks acc key accepted emitted)
    (h : acc.identifyChunk hex key toolCallId toolName = .ok (acc', call)) :
    Extends key acc acc' ∧ CallInv acc' key call accepted emitted := by
  rw [ToolStreamAccumulator.identifyChunk] at h
  split at h
  · rename_i hlookup
    exact openCall_tracks htracks hlookup h
  · rename_i held hlookup
    obtain ⟨⟨merged, middle⟩, hmerge, hname⟩ := bind_eq_ok.mp h
    obtain ⟨hext, hcall⟩ := mergeWireId_spec (htracks.call held hlookup) hmerge
    obtain ⟨hext', hcall⟩ := mergeToolName_spec hcall hname
    exact ⟨hext.trans hext', hcall⟩

theorem start_spec {toolUseId toolName : Arg} (htracks : Tracks acc key accepted emitted)
    (h : acc.start key toolUseId toolName = .ok (acc', events)) :
    Elsewhere key acc acc' ∧ Tracks acc' key accepted (emitted ++ events) := by
  rw [ToolStreamAccumulator.start] at h
  obtain ⟨⟨⟩, hreject, h⟩ := bind_eq_ok.mp h
  obtain ⟨idText, -, h⟩ := bind_eq_ok.mp h
  obtain ⟨nameText, -, h⟩ := bind_eq_ok.mp h
  obtain ⟨⟨⟩, -, h⟩ := bind_eq_ok.mp h
  obtain ⟨⟨named, call⟩, hidentified, h⟩ := bind_eq_ok.mp h
  obtain ⟨hext, hcall⟩ := identifyStart_spec htracks hidentified
  have hopen : key ∉ named.closed := by
    rw [hext.closed]
    exact rejectClosedMutation_spec hreject
  obtain ⟨hext', hcall⟩ := emitStartIfReady_spec hopen hcall
  rw [pure_eq_ok, Prod.mk.injEq] at h
  obtain ⟨rfl, rfl⟩ := h
  exact ⟨((hext.trans hext').trans (.store _)).elsewhere, Tracks.store hcall⟩

theorem appendOrStart_spec {hex : Str} {toolCallId toolName fragment : Arg}
    (htracks : Tracks acc key accepted emitted)
    (h : acc.appendOrStart hex key toolCallId toolName fragment = .ok (acc', events)) :
    Elsewhere key acc acc' ∧
      Tracks acc' key
        (accepted ++ (Operation.appendOrStart hex key toolCallId toolName fragment :
          Operation κ ν).fragments) (emitted ++ events) := by
  rw [ToolStreamAccumulator.appendOrStart] at h
  obtain ⟨⟨⟩, hreject, h⟩ := bind_eq_ok.mp h
  obtain ⟨idText, -, h⟩ := bind_eq_ok.mp h
  obtain ⟨nameText, -, h⟩ := bind_eq_ok.mp h
  obtain ⟨⟨⟩, -, h⟩ := bind_eq_ok.mp h
  obtain ⟨⟨named, call⟩, hidentified, h⟩ := bind_eq_ok.mp h
  obtain ⟨hext, hcall⟩ := identifyChunk_spec htracks hidentified
  have hopen : key ∉ named.closed := by
    rw [hext.closed]
    exact rejectClosedMutation_spec hreject
  obtain ⟨hext', hcall⟩ := emitStartIfReady_spec hopen hcall
  have hopenReady : key ∉ (named.emitStartIfReady call).1.closed := by rwa [hext'.closed]
  dsimp only at h
  split_ifs at h with htruthy
  · obtain ⟨⟨fed, last, delta⟩, hfeed, hreturn⟩ := bind_eq_ok.mp h
    obtain ⟨text, rfl, hext'', hcall⟩ := feedFragment_spec hopenReady hcall hfeed
    rw [pure_eq_ok, Prod.mk.injEq] at hreturn
    obtain ⟨rfl, rfl⟩ := hreturn
    rw [Operation.fragments, if_pos htruthy, Arg.texts, ← List.append_assoc]
    exact ⟨(((hext.trans hext').trans hext'').trans (.store _)).elsewhere, Tracks.store hcall⟩
  · rw [pure_eq_ok, Prod.mk.injEq] at h
    obtain ⟨rfl, rfl⟩ := h
    rw [Operation.fragments, if_neg htruthy, List.append_nil]
    exact ⟨((hext.trans hext').trans (.store _)).elsewhere, Tracks.store hcall⟩

theorem append_spec {fragment : Arg} (htracks : Tracks acc key accepted emitted)
    (h : acc.append key fragment = .ok (acc', events)) :
    Elsewhere key acc acc' ∧
      Tracks acc' key (accepted ++ (Operation.append key fragment : Operation κ ν).fragments)
        (emitted ++ events) := by
  rw [ToolStreamAccumulator.append] at h
  obtain ⟨⟨⟩, hreject, h⟩ := bind_eq_ok.mp h
  have hopen := rejectClosedMutation_spec hreject
  split at h
  · cases h
  · rename_i call hlookup
    obtain ⟨⟨fed, last, delta⟩, hfeed, hreturn⟩ := bind_eq_ok.mp h
    obtain ⟨text, rfl, hext, hcall⟩ := feedFragment_spec hopen (htracks.call call hlookup) hfeed
    rw [pure_eq_ok, Prod.mk.injEq] at hreturn
    obtain ⟨rfl, rfl⟩ := hreturn
    exact ⟨(hext.trans (.store _)).elsewhere, Tracks.store hcall⟩

theorem setMetadata_spec {name : Str} {value : ν} (htracks : Tracks acc key accepted emitted)
    (h : acc.setMetadata key name value = .ok acc') :
    Elsewhere key acc acc' ∧ Tracks acc' key accepted emitted := by
  rw [ToolStreamAccumulator.setMetadata] at h
  obtain ⟨⟨⟩, -, h⟩ := bind_eq_ok.mp h
  split at h
  · cases h
  · rename_i call hlookup
    rw [pure_eq_ok] at h
    rw [← h]
    have hcall := htracks.call call hlookup
    refine ⟨(Extends.store _).elsewhere, Tracks.store ?_⟩
    exact ⟨hcall.parts, hcall.reserved, hcall.held, hcall.complete, hcall.started, hcall.ended⟩

theorem finishWithArguments_spec {arguments : Option Json}
    (htracks : Tracks acc key accepted emitted)
    (h : acc.finishWithArguments key arguments = .ok (acc', events)) :
    Elsewhere key acc acc' ∧ Tracks acc' key accepted (emitted ++ events) := by
  rw [ToolStreamAccumulator.finishWithArguments] at h
  split at h
  · cases h
  · rename_i call hlookup
    have hcall := htracks.call call hlookup
    split_ifs at h with hclosed hstart
    · rw [Except.ok.injEq, Prod.mk.injEq] at h
      obtain ⟨rfl, rfl⟩ := h
      rw [List.append_nil]
      exact ⟨Extends.refl.elsewhere, htracks⟩
    · split at h
      · cases h
      · rename_i value text hvalue
        dsimp only at h
        split_ifs at h
        obtain ⟨reserved, hreserved, h⟩ := bind_eq_ok.mp h
        obtain ⟨hext, hcalls, -⟩ := reserveEvent_spec hreserved
        rw [pure_eq_ok, Prod.mk.injEq] at h
        obtain ⟨rfl, rfl⟩ := h
        have hstarted : call.startEmitted = true := by
          rwa [Bool.not_eq_false] at hstart
        have hemitted := hcall.started hstarted hclosed
        have hfinished : key ∈ acc.closed ++ [key] :=
          List.mem_append_right _ (List.mem_singleton_self key)
        have hstore := hext.trans (Extends.store
          { call with argumentChars := max call.argumentChars text.length })
        constructor
        · refine ⟨hstore.calls, fun other hother => ?_, hstore.identity⟩
          rw [hext.closed, List.mem_append, List.mem_singleton, or_iff_left hother]
        · constructor
          · intro found hfound
            have heq := (lookup_store reserved key
              { call with argumentChars := max call.argumentChars text.length }).symm.trans hfound
            rw [Option.some.injEq] at heq
            rw [← heq]
            exact
              { parts := hcall.parts
                reserved := fun hid => hext.identity _ _ (hcall.reserved hid)
                held := fun hfalse => absurd hfalse hstart
                complete := hcall.complete
                started := fun _ hnotin => absurd (by rw [hext.closed]; exact hfinished) hnotin
                ended := fun _ _ => ⟨value, by rw [hemitted]; rfl⟩ }
          · intro hnone
            have heq := (lookup_store reserved key
              { call with argumentChars := max call.argumentChars text.length }).symm.trans hnone
            cases heq

theorem perform_spec {operation : Operation κ ν}
    (htracks : Tracks acc operation.key accepted emitted)
    (h : acc.perform operation = .ok (acc', events)) :
    Elsewhere operation.key acc acc' ∧
      Tracks acc' operation.key (accepted ++ operation.fragments) (emitted ++ events) := by
  cases operation with
  | start key toolUseId toolName =>
      have hspec := start_spec htracks h
      rwa [Operation.fragments, List.append_nil]
  | appendOrStart hex key toolCallId toolName fragment => exact appendOrStart_spec htracks h
  | append key fragment => exact append_spec htracks h
  | setMetadata key name value =>
      obtain ⟨after, hset, heq⟩ := map_eq_ok.mp h
      rw [Prod.mk.injEq] at heq
      obtain ⟨rfl, rfl⟩ := heq
      have hspec := setMetadata_spec htracks hset
      rwa [Operation.fragments, List.append_nil, List.append_nil]
  | finishWithArguments key arguments =>
      have hspec := finishWithArguments_spec htracks h
      rwa [Operation.fragments, List.append_nil]

end

/-! ### Runs of operations -/

section

variable {acc acc' : ToolStreamAccumulator κ ν} {key other : κ} {operation : Operation κ ν}
  {events : List StreamEvent} {log : List (Operation κ ν × List StreamEvent)}

theorem eventsOf_append (first second : List (Operation κ ν × List StreamEvent)) :
    eventsOf key (first ++ second) = eventsOf key first ++ eventsOf key second := by
  rw [eventsOf, eventsOf, eventsOf, List.filter_append, List.flatMap_append]

theorem fragmentsOf_append (first second : List (Operation κ ν × List StreamEvent)) :
    fragmentsOf key (first ++ second) = fragmentsOf key first ++ fragmentsOf key second := by
  rw [fragmentsOf, fragmentsOf, fragmentsOf, List.filter_append, List.flatMap_append]

theorem eventsOf_single : eventsOf key [(operation, events)] =
    if operation.key = key then events else [] := by
  rw [eventsOf, List.filter_singleton]
  by_cases hkey : operation.key = key <;> simp [hkey]

theorem fragmentsOf_single : fragmentsOf key [(operation, events)] =
    if operation.key = key then operation.fragments else [] := by
  rw [fragmentsOf, List.filter_singleton]
  by_cases hkey : operation.key = key <;> simp [hkey]

def Agrees (acc : ToolStreamAccumulator κ ν) (log : List (Operation κ ν × List StreamEvent)) : Prop :=
  ∀ key, Tracks acc key (fragmentsOf key log) (eventsOf key log)

theorem Agrees.initial (limits : Limits) :
    Agrees ({ limits : ToolStreamAccumulator κ ν }) [] := by
  intro key
  constructor
  · intro call hlookup
    cases hlookup
  · intro hlookup
    exact ⟨rfl, rfl, List.not_mem_nil⟩

theorem Agrees.perform (h : Agrees acc log)
    (hperform : acc.perform operation = .ok (acc', events)) :
    Agrees acc' (log ++ [(operation, events)]) := by
  intro key
  obtain ⟨helse, htracks⟩ := perform_spec (h operation.key) hperform
  rw [fragmentsOf_append, eventsOf_append, fragmentsOf_single, eventsOf_single]
  by_cases hkey : operation.key = key
  · rw [if_pos hkey, if_pos hkey]
    rwa [hkey] at htracks
  · rw [if_neg hkey, if_neg hkey, List.append_nil, List.append_nil]
    exact (h key).elsewhere (Ne.symm hkey) helse

theorem Agrees.run (h : Agrees acc log) (operations : List (Operation κ ν)) :
    ∃ last : ToolStreamAccumulator κ ν, Agrees last (log ++ acc.run operations) := by
  induction operations generalizing acc log with
  | nil => exact ⟨acc, by rwa [ToolStreamAccumulator.run, List.append_nil]⟩
  | cons operation rest ih =>
      rw [ToolStreamAccumulator.run]
      split
      · exact ⟨acc, by rwa [List.append_nil]⟩
      · rename_i after events hperform
        obtain ⟨last, hlast⟩ := ih (h.perform hperform)
        refine ⟨last, ?_⟩
        rwa [List.append_assoc, List.singleton_append] at hlast

/-- How the events of one call stand to its fragments: held back, open or ended. -/
inductive Lifecycle (fragments : List Str) : List StreamEvent → Prop where
  | held : Lifecycle fragments []
  | opened (toolUseId toolName : Str) :
      Lifecycle fragments (.toolUseStart toolUseId toolName ::
        fragments.map (StreamEvent.toolUseDelta toolUseId))
  | ended (toolUseId toolName : Str) (arguments : Json) :
      Lifecycle fragments (.toolUseStart toolUseId toolName ::
        (fragments.map (StreamEvent.toolUseDelta toolUseId) ++
          [.toolUseEnd toolUseId toolName arguments]))

theorem Tracks.lifecycle {accepted : List Str} (h : Tracks acc key accepted events) :
    Lifecycle accepted events := by
  cases hlookup : acc.calls.lookup key with
  | none =>
      rw [(h.unseen hlookup).2.1]
      exact .held
  | some call =>
      have hcall := h.call call hlookup
      by_cases hstart : call.startEmitted = true
      · by_cases hclosed : key ∈ acc.closed
        · obtain ⟨arguments, hended⟩ := hcall.ended hstart hclosed
          rw [hended]
          exact .ended _ _ arguments
        · rw [hcall.started hstart hclosed]
          exact .opened _ _
      · rw [Bool.not_eq_true] at hstart
        rw [(hcall.held hstart).1]
        exact .held

theorem Tracks.owner {accepted : List Str} (h : Tracks acc key accepted events) {event : StreamEvent}
    (hevent : event ∈ events) : acc.identityKeys.lookup event.toolUseId = some key := by
  cases hlookup : acc.calls.lookup key with
  | none =>
      rw [(h.unseen hlookup).2.1] at hevent
      simp at hevent
  | some call =>
      have hcall := h.call call hlookup
      by_cases hstart : call.startEmitted = true
      · have hid : event.toolUseId = call.toolUseId := by
          by_cases hclosed : key ∈ acc.closed
          · obtain ⟨arguments, hended⟩ := hcall.ended hstart hclosed
            rw [hended, List.mem_cons, List.mem_append, List.mem_map, List.mem_singleton] at hevent
            obtain rfl | ⟨fragment, -, rfl⟩ | rfl := hevent <;> rfl
          · rw [hcall.started hstart hclosed, List.mem_cons, List.mem_map] at hevent
            obtain rfl | ⟨fragment, -, rfl⟩ := hevent <;> rfl
        rw [hid]
        exact hcall.reserved (hcall.complete hstart).1
      · rw [Bool.not_eq_true] at hstart
        rw [(hcall.held hstart).1] at hevent
        simp at hevent

/-- Up to the first protocol error, the events of every key are those of one lifecycle over the
fragments accepted for it, and no two keys share an id. -/
theorem tool_stream_protocol (limits : Limits) (operations : List (Operation κ ν)) (key : κ) :
    let log := ({ limits : ToolStreamAccumulator κ ν }).run operations
    Lifecycle (fragmentsOf key log) (eventsOf key log) ∧
      ∀ other, other ≠ key → ∀ event ∈ eventsOf key log, ∀ foreign ∈ eventsOf other log,
        event.toolUseId ≠ foreign.toolUseId := by
  obtain ⟨last, hlast⟩ := (Agrees.initial limits).run operations
  rw [List.nil_append] at hlast
  refine ⟨(hlast key).lifecycle, fun other hother event hevent foreign hforeign heq => ?_⟩
  have howner := (hlast key).owner hevent
  rw [heq, (hlast other).owner hforeign, Option.some.injEq] at howner
  exact hother howner

end

end OpenStarry.ToolStream
