import OpenStarry.Lib.Outcome
import OpenStarry.ToolStream.Accumulator

/-!
# What an operation does to a call

A call with a complete identity has emitted its start and each of its fragments; any other has emitted
nothing. Whatever an operation does on the way, it keeps the other calls and the reserved ids.
-/

namespace OpenStarry.ToolStream

open Lib Text

variable {κ ν : Type} [DecidableEq κ]

/-- From `acc` to `acc'` only the call of the key has changed, and no id was given up. -/
structure Extends (key : κ) (acc acc' : ToolStreamAccumulator κ ν) : Prop where
  calls : ∀ other, other ≠ key → acc'.calls.lookup other = acc.calls.lookup other
  closed : acc'.closed = acc.closed
  identity : ∀ toolUseId owner, acc.identityKeys.lookup toolUseId = some owner →
    acc'.identityKeys.lookup toolUseId = some owner

namespace Extends

variable {key : κ} {acc acc' acc'' : ToolStreamAccumulator κ ν}

theorem refl : Extends key acc acc := ⟨fun _ _ => rfl, rfl, fun _ _ h => h⟩

theorem trans (h : Extends key acc acc') (h' : Extends key acc' acc'') : Extends key acc acc'' where
  calls := fun other hother => (h'.calls other hother).trans (h.calls other hother)
  closed := h'.closed.trans h.closed
  identity := fun toolUseId owner howner => h'.identity _ _ (h.identity toolUseId owner howner)

theorem of_eq (hcalls : acc'.calls = acc.calls) (hclosed : acc'.closed = acc.closed)
    (hidentity : acc'.identityKeys = acc.identityKeys) : Extends key acc acc' where
  calls := fun _ _ => by rw [hcalls]
  closed := hclosed
  identity := fun _ _ h => by rw [hidentity, h]

theorem store (call : PendingToolCall ν) : Extends key acc (acc.store key call) where
  calls := by
    intro other hother
    rw [ToolStreamAccumulator.store, Keyed.lookup_assign, if_neg hother]
  closed := rfl
  identity := fun _ _ h => h

end Extends

theorem lookup_store (acc : ToolStreamAccumulator κ ν) (key : κ) (call : PendingToolCall ν) :
    (acc.store key call).calls.lookup key = some call := by
  rw [ToolStreamAccumulator.store, Keyed.lookup_assign, if_pos rfl]

/-- The call of a key, the fragments accepted for it and the events it has emitted. -/
structure CallInv (acc : ToolStreamAccumulator κ ν) (key : κ) (call : PendingToolCall ν)
    (accepted : List Str) (emitted : List StreamEvent) : Prop where
  parts : call.jsonParts = accepted
  reserved : hasIdentityValue call.toolUseId = true →
    acc.identityKeys.lookup call.toolUseId = some key
  held : call.startEmitted = false → emitted = [] ∧ key ∉ acc.closed
  complete : call.startEmitted = true →
    hasIdentityValue call.toolUseId = true ∧ hasIdentityValue call.toolName = true
  started : call.startEmitted = true → key ∉ acc.closed →
    emitted = .toolUseStart call.toolUseId call.toolName ::
      accepted.map (StreamEvent.toolUseDelta call.toolUseId)
  ended : call.startEmitted = true → key ∈ acc.closed → ∃ arguments,
    emitted = .toolUseStart call.toolUseId call.toolName ::
      (accepted.map (StreamEvent.toolUseDelta call.toolUseId) ++
        [.toolUseEnd call.toolUseId call.toolName arguments])

section

variable {acc acc' : ToolStreamAccumulator κ ν} {key owner : κ} {call call' : PendingToolCall ν}
  {accepted : List Str} {emitted : List StreamEvent} {operation : Verb}

theorem CallInv.extend (h : CallInv acc key call accepted emitted) (hext : Extends owner acc acc') :
    CallInv acc' key call accepted emitted where
  parts := h.parts
  reserved := fun hid => hext.identity _ _ (h.reserved hid)
  held := fun hstart => by
    rw [hext.closed]
    exact h.held hstart
  complete := h.complete
  started := fun hstart hopen => h.started hstart (by rwa [← hext.closed])
  ended := fun hstart hclosed => h.ended hstart (by rwa [← hext.closed])

theorem CallInv.rename (h : CallInv acc key call accepted emitted)
    (hincomplete : ¬ (hasIdentityValue call.toolUseId = true ∧ hasIdentityValue call.toolName = true))
    (hparts : call'.jsonParts = call.jsonParts) (hstart : call'.startEmitted = call.startEmitted)
    (hid : hasIdentityValue call'.toolUseId = true →
      acc.identityKeys.lookup call'.toolUseId = some key) :
    CallInv acc key call' accepted emitted := by
  have hheld : call.startEmitted = false := by
    rw [← Bool.not_eq_true]
    exact fun htrue => hincomplete (h.complete htrue)
  have hfalse : call'.startEmitted ≠ true := by
    rw [hstart, hheld]
    exact Bool.false_ne_true
  exact
    { parts := hparts.trans h.parts
      reserved := hid
      held := fun _ => h.held hheld
      complete := fun htrue => absurd htrue hfalse
      started := fun htrue => absurd htrue hfalse
      ended := fun htrue => absurd htrue hfalse }

/-! ### The parts of an operation -/

theorem reserveEvent_spec {toolUseId : Str}
    (h : acc.reserveEvent operation key toolUseId = .ok acc') :
    Extends key acc acc' ∧ acc'.calls = acc.calls ∧ acc'.identityKeys = acc.identityKeys := by
  rw [ToolStreamAccumulator.reserveEvent] at h
  split_ifs at h
  rw [Except.ok.injEq] at h
  rw [← h]
  exact ⟨.of_eq rfl rfl rfl, rfl, rfl⟩

theorem reserveIdentity_spec {toolUseId : Str}
    (h : acc.reserveIdentity operation key toolUseId = .ok acc') :
    Extends key acc acc' ∧
      (hasIdentityValue toolUseId = true → acc'.identityKeys.lookup toolUseId = some key) := by
  rw [ToolStreamAccumulator.reserveIdentity] at h
  split_ifs at h with hlarge hnone htaken
  · rw [Except.ok.injEq] at h
    rw [← h]
    exact ⟨.refl, fun hid => absurd hid (by rw [hnone]; exact Bool.false_ne_true)⟩
  · rw [Except.ok.injEq] at h
    rw [← h]
    refine ⟨⟨fun _ _ => rfl, rfl, fun other keeper hkeeper => ?_⟩, fun _ => ?_⟩
    · rw [Keyed.lookup_assign]
      split_ifs with hother
      · -- the id was free or already that of the key
        rw [hother] at hkeeper
        rw [hkeeper] at htaken
        have heq : keeper = key := by simpa using htaken
        rw [heq]
      · exact hkeeper
    · rw [Keyed.lookup_assign, if_pos rfl]

theorem openCall_spec {reported publicId toolName : Str} {wireId : Option Str}
    (hopen : key ∉ acc.closed)
    (h : acc.openCall operation key reported publicId toolName wireId = .ok (acc', call)) :
    Extends key acc acc' ∧ CallInv acc' key call [] [] := by
  rw [ToolStreamAccumulator.openCall] at h
  split_ifs at h
  obtain ⟨reserved, hreserved, h⟩ := bind_eq_ok.mp h
  obtain ⟨counted, hcounted, h⟩ := bind_eq_ok.mp h
  rw [pure_eq_ok, Prod.mk.injEq] at h
  obtain ⟨hid, hkey⟩ := reserveIdentity_spec hreserved
  obtain ⟨hevent, -, hkeys⟩ := reserveEvent_spec hcounted
  obtain ⟨rfl, rfl⟩ := h
  have hext := (hid.trans hevent).trans (Extends.store
    { toolUseId := publicId, toolName, wireId : PendingToolCall ν })
  refine ⟨hext.trans (.of_eq rfl rfl rfl), ?_⟩
  have hclosed : key ∉ counted.closed := by rwa [(hid.trans hevent).closed]
  exact
    { parts := rfl
      reserved := fun htrue => (congrArg (List.lookup publicId) hkeys).trans (hkey htrue)
      held := fun _ => ⟨rfl, hclosed⟩
      complete := fun hstart => absurd hstart Bool.false_ne_true
      started := fun hstart => absurd hstart Bool.false_ne_true
      ended := fun hstart => absurd hstart Bool.false_ne_true }

theorem growPending_extends (new old : Str) : Extends key acc (acc.growPending call new old) := by
  rw [ToolStreamAccumulator.growPending]
  split
  · exact .refl
  · exact .of_eq rfl rfl rfl

theorem mergeToolName_spec {toolName : Str} (hcall : CallInv acc key call accepted emitted)
    (h : acc.mergeToolName operation key call toolName = .ok (acc', call')) :
    Extends key acc acc' ∧ CallInv acc' key call' accepted emitted := by
  rw [ToolStreamAccumulator.mergeToolName] at h
  split_ifs at h with hnone hconflict hname
  · rw [Except.ok.injEq, Prod.mk.injEq] at h
    obtain ⟨rfl, rfl⟩ := h
    exact ⟨.refl, hcall⟩
  · rw [Except.ok.injEq, Prod.mk.injEq] at h
    obtain ⟨rfl, rfl⟩ := h
    exact ⟨.refl, hcall⟩
  · rw [Except.ok.injEq, Prod.mk.injEq] at h
    obtain ⟨rfl, rfl⟩ := h
    have hrenamed : CallInv acc key { call with toolName } accepted emitted :=
      hcall.rename (fun hboth => hname hboth.2) rfl rfl hcall.reserved
    have hgrow : Extends key acc (acc.growPending call toolName call.toolName) :=
      growPending_extends _ _
    exact ⟨hgrow, hrenamed.extend hgrow⟩

theorem mergeToolUseId_spec {toolUseId : Str} (hcall : CallInv acc key call accepted emitted)
    (h : acc.mergeToolUseId key call toolUseId = .ok (acc', call')) :
    Extends key acc acc' ∧ CallInv acc' key call' accepted emitted := by
  rw [ToolStreamAccumulator.mergeToolUseId] at h
  split_ifs at h with hnone hconflict hid
  · rw [Except.ok.injEq, Prod.mk.injEq] at h
    obtain ⟨rfl, rfl⟩ := h
    exact ⟨.refl, hcall⟩
  · rw [Except.ok.injEq, Prod.mk.injEq] at h
    obtain ⟨rfl, rfl⟩ := h
    exact ⟨.refl, hcall⟩
  · obtain ⟨reserved, hreserved, h⟩ := bind_eq_ok.mp h
    rw [pure_eq_ok, Prod.mk.injEq] at h
    obtain ⟨rfl, rfl⟩ := h
    obtain ⟨hext, hkey⟩ := reserveIdentity_spec hreserved
    have hrenamed : CallInv reserved key { call with toolUseId, wireId := some toolUseId } accepted
        emitted :=
      (hcall.extend hext).rename (fun hboth => hid hboth.1) rfl rfl hkey
    have hgrow : Extends key reserved (reserved.growPending call toolUseId call.toolUseId) :=
      growPending_extends _ _
    exact ⟨hext.trans hgrow, hrenamed.extend hgrow⟩

theorem mergeWireId_spec {toolCallId : Str} (hcall : CallInv acc key call accepted emitted)
    (h : acc.mergeWireId key call toolCallId = .ok (acc', call')) :
    Extends key acc acc' ∧ CallInv acc' key call' accepted emitted := by
  rw [ToolStreamAccumulator.mergeWireId] at h
  split_ifs at h with hnone hconflict
  · rw [Except.ok.injEq, Prod.mk.injEq] at h
    obtain ⟨rfl, rfl⟩ := h
    exact ⟨.refl, hcall⟩
  · obtain ⟨reserved, hreserved, h⟩ := bind_eq_ok.mp h
    rw [pure_eq_ok, Prod.mk.injEq] at h
    obtain ⟨rfl, rfl⟩ := h
    obtain ⟨hext, -⟩ := reserveIdentity_spec hreserved
    have hsame := hcall.extend hext
    -- the wire id is no part of the public identity
    exact ⟨hext, hsame.parts, hsame.reserved, hsame.held, hsame.complete, hsame.started,
      hsame.ended⟩

theorem emitStartIfReady_spec (hopen : key ∉ acc.closed)
    (hcall : CallInv acc key call accepted emitted) :
    Extends key acc (acc.emitStartIfReady call).1 ∧
      CallInv (acc.emitStartIfReady call).1 key (acc.emitStartIfReady call).2.1 accepted
        (emitted ++ (acc.emitStartIfReady call).2.2) := by
  rw [ToolStreamAccumulator.emitStartIfReady]
  split_ifs with hready
  · rw [List.append_nil]
    exact ⟨.refl, hcall⟩
  · obtain ⟨hstart, hready⟩ := not_or.mp hready
    obtain ⟨hid, hname⟩ := not_or.mp hready
    rw [Bool.not_eq_true] at hstart
    rw [Bool.not_eq_false] at hid hname
    refine ⟨.of_eq rfl rfl rfl, ?_⟩
    exact
      { parts := hcall.parts
        reserved := hcall.reserved
        held := fun hfalse => absurd hfalse Bool.noConfusion
        complete := fun _ => ⟨hid, hname⟩
        started := fun _ _ => by
          rw [(hcall.held hstart).1, ← hcall.parts]
          rfl
        ended := fun _ hclosed => absurd hclosed hopen }

theorem feedFragment_spec {fragment : Arg} {events : List StreamEvent} (hopen : key ∉ acc.closed)
    (hcall : CallInv acc key call accepted emitted)
    (h : acc.feedFragment operation key call fragment = .ok (acc', call', events)) :
    ∃ text, fragment = .text text ∧ Extends key acc acc' ∧
      CallInv acc' key call' (accepted ++ [text]) (emitted ++ events) := by
  rw [ToolStreamAccumulator.feedFragment] at h
  obtain ⟨⟨counted, grown⟩, hfragment, h⟩ := bind_eq_ok.mp h
  cases fragment with
  | none => simp [ToolStreamAccumulator.appendFragment] at hfragment
  | foreign truthy => simp [ToolStreamAccumulator.appendFragment] at hfragment
  | text text =>
      refine ⟨text, rfl, ?_⟩
      rw [ToolStreamAccumulator.appendFragment] at hfragment
      split_ifs at hfragment
      obtain ⟨reserved, hreserved, hfragment⟩ := bind_eq_ok.mp hfragment
      rw [pure_eq_ok, Prod.mk.injEq] at hfragment
      obtain ⟨rfl, rfl⟩ := hfragment
      obtain ⟨hext, -, -⟩ := reserveEvent_spec hreserved
      have hcall := hcall.extend hext
      have hopen : key ∉ reserved.closed := by rwa [hext.closed]
      dsimp only at h
      split_ifs at h with hstart
      · rw [pure_eq_ok, Prod.mk.injEq, Prod.mk.injEq] at h
        obtain ⟨rfl, rfl, rfl⟩ := h
        refine ⟨hext.trans (.of_eq rfl rfl rfl), ?_⟩
        exact
          { parts := congrArg (· ++ [text]) hcall.parts
            reserved := hcall.reserved
            held := fun hfalse => absurd hstart (by rw [hfalse]; exact Bool.false_ne_true)
            complete := hcall.complete
            started := fun _ _ => by
              rw [hcall.started hstart hopen, List.map_append]
              rfl
            ended := fun _ hclosed => absurd hclosed hopen }
      · rw [pure_eq_ok, Prod.mk.injEq, Prod.mk.injEq] at h
        obtain ⟨rfl, rfl, rfl⟩ := h
        refine ⟨hext.trans (.of_eq rfl rfl rfl), ?_⟩
        rw [List.append_nil]
        exact
          { parts := congrArg (· ++ [text]) hcall.parts
            reserved := hcall.reserved
            held := hcall.held
            complete := fun htrue => absurd htrue hstart
            started := fun htrue => absurd htrue hstart
            ended := fun htrue => absurd htrue hstart }

end

end OpenStarry.ToolStream
