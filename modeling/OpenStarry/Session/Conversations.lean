import OpenStarry.Lib.Cut
import OpenStarry.Session.Keys

/-!
# Conversations and their keys

What a call of the key builders describes, as far as its scope tells conversations apart, and when two
conversations share a key: exactly when their ids and the fixed words between them, cut at the colons,
are one sequence of words.
-/

namespace OpenStarry.Session

open Lib Text

/-- What a base key tells apart. -/
inductive Scope where
  | main
  | perPeer (peer : Str)
  | perChannelPeer (channel peer : Str)
  | perAccountChannelPeer (channel account peer : Str)
  | group (channel room : Str)
  | groupSender (channel room sender : Str)
  | channel (channel room : Str)
  deriving DecidableEq

structure Conversation where
  agent : Str
  scope : Scope
  /-- The marker and the id of the thread. -/
  thread : Option (ThreadMarker × Str) := none
  deriving DecidableEq

namespace Conversation

def scopeParts : Scope → List Str
  | .main => [Word.main.text]
  | .perPeer peer => [Word.direct.text, peer]
  | .perChannelPeer channel peer => [channel, Word.direct.text, peer]
  | .perAccountChannelPeer channel account peer => [channel, account, Word.direct.text, peer]
  | .group channel room => [channel, Word.group.text, room]
  | .groupSender channel room sender => [channel, Word.group.text, room, Word.sender.text, sender]
  | .channel channel room => [channel, Word.channel.text, room]

def threadParts : Option (ThreadMarker × Str) → List Str
  | none => []
  | some (marker, threadId) => [marker.text, threadId]

def parts (c : Conversation) : List Str :=
  Word.agent.text :: c.agent :: (scopeParts c.scope ++ threadParts c.thread)

def words (c : Conversation) : List Str := c.parts.flatMap fun part => part.splitOn ':'

end Conversation

/-! ### The conversation of a call -/

section

variable (lower : Str → Str)

def BaseCall.scope : BaseCall → Scope
  | direct peerId name accountId dmScope =>
      match dmScope with
      | .main => .main
      | .perPeer => .perPeer peerId
      | .perChannelPeer => .perChannelPeer (orDefault name "unknown".toList) peerId
      | .perAccountChannelPeer =>
          .perAccountChannelPeer (orDefault name "unknown".toList)
            (normalizeAccountId lower (orDefault accountId "default".toList)) peerId
  | group name peerId => .group name peerId
  | groupSender name peerId senderId => .groupSender name peerId senderId
  | channel name peerId => .channel name peerId

def KeyCall.conversation (call : KeyCall) : Conversation where
  agent := normalizeAgentId lower call.agentId
  scope := call.base.scope lower
  thread := call.thread.map fun thread => (threadMarker thread.2, thread.1)

theorem KeyCall.baseKey_eq (call : KeyCall) : call.baseKey lower = [':'].intercalate
    (Word.agent.text :: normalizeAgentId lower call.agentId ::
      Conversation.scopeParts (call.base.scope lower)) := by
  rw [KeyCall.baseKey]
  cases call.base with
  | direct peerId channel accountId dmScope =>
      cases dmScope <;>
        simp only [buildDirectKey, BaseCall.scope, Conversation.scopeParts,
          List.intercalate_cons_cons, List.intercalate_singleton, List.append_assoc]
  | group channel peerId =>
      simp only [buildGroupKey, BaseCall.scope, Conversation.scopeParts, List.intercalate_cons_cons,
        List.intercalate_singleton, List.append_assoc]
  | groupSender channel peerId senderId =>
      simp only [buildGroupSenderKey, buildGroupKey, BaseCall.scope, Conversation.scopeParts,
        List.intercalate_cons_cons, List.intercalate_singleton, List.append_assoc]
  | channel channel peerId =>
      simp only [buildChannelKey, BaseCall.scope, Conversation.scopeParts,
        List.intercalate_cons_cons, List.intercalate_singleton, List.append_assoc]

theorem KeyCall.key_eq (call : KeyCall) :
    call.key lower = [':'].intercalate (call.conversation lower).parts := by
  rw [KeyCall.key, Conversation.parts, KeyCall.conversation]
  cases call.thread with
  | none =>
      rw [Option.map_none, Conversation.threadParts, List.append_nil]
      exact call.baseKey_eq lower
  | some thread =>
      rw [Option.map_some, Conversation.threadParts, ← List.cons_append, ← List.cons_append,
        intercalate_append ':' (List.cons_ne_nil _ _) (List.cons_ne_nil _ _), ← call.baseKey_eq lower,
        List.intercalate_cons_cons, List.intercalate_singleton]
      show buildThreadKey (call.baseKey lower) thread.1 thread.2 = _
      simp only [buildThreadKey, List.append_assoc, List.cons_append, List.nil_append]

/-! ### Shared keys -/

theorem Conversation.parts_ne_nil (c : Conversation) : c.parts ≠ [] := List.cons_ne_nil _ _

theorem KeyCall.key_eq_iff (call other : KeyCall) : call.key lower = other.key lower ↔
    (call.conversation lower).words = (other.conversation lower).words := by
  rw [call.key_eq, other.key_eq]
  exact intercalate_eq_iff ':' (Conversation.parts_ne_nil _) (Conversation.parts_ne_nil _)

end

namespace Conversation

def markerOf (word : Str) : ThreadMarker := if word = Word.topic.text then .topic else .thread

/-- The scope and the thread with the given parts. The words on fixed places tell the scopes of one
number of parts apart. -/
def readParts : List Str → Option (Scope × Option (ThreadMarker × Str))
  | [_] => some (.main, none)
  | [_, peer] => some (.perPeer peer, none)
  | [a, b, c] =>
      if b = Word.direct.text then some (.perChannelPeer a c, none)
      else if b = Word.group.text then some (.group a c, none)
      else if b = Word.channel.text then some (.channel a c, none)
      else some (.main, some (markerOf b, c))
  | [a, b, c, d] =>
      if c = Word.direct.text then some (.perAccountChannelPeer a b d, none)
      else some (.perPeer b, some (markerOf c, d))
  | [a, b, c, d, e] =>
      if d = Word.sender.text then some (.groupSender a c e, none)
      else if b = Word.direct.text then some (.perChannelPeer a c, some (markerOf d, e))
      else if b = Word.group.text then some (.group a c, some (markerOf d, e))
      else some (.channel a c, some (markerOf d, e))
  | [a, b, _, d, e, f] => some (.perAccountChannelPeer a b d, some (markerOf e, f))
  | [a, _, c, _, e, f, g] => some (.groupSender a c e, some (markerOf f, g))
  | _ => none

theorem readParts_parts (scope : Scope) (thread : Option (ThreadMarker × Str)) :
    readParts (scopeParts scope ++ threadParts thread) = some (scope, thread) := by
  rcases thread with - | ⟨marker, threadId⟩
  · cases scope <;> rfl
  · cases marker <;> cases scope <;> rfl

theorem parts_injective : Function.Injective parts := by
  intro c d h
  obtain ⟨agent, scope, thread⟩ := c
  obtain ⟨agent', scope', thread'⟩ := d
  rw [parts, parts, List.cons.injEq, List.cons.injEq] at h
  obtain ⟨-, hagent, hrest⟩ := h
  have hread := congrArg readParts hrest
  rw [readParts_parts, readParts_parts, Option.some.injEq, Prod.mk.injEq] at hread
  obtain ⟨hscope, hthread⟩ := hread
  cases hagent
  cases hscope
  cases hthread
  rfl

def scopeIds : Scope → List Str
  | .main => []
  | .perPeer peer => [peer]
  | .perChannelPeer channel peer => [channel, peer]
  | .perAccountChannelPeer channel _ peer => [channel, peer]
  | .group channel room => [channel, room]
  | .groupSender channel room sender => [channel, room, sender]
  | .channel channel room => [channel, room]

def ids (c : Conversation) : List Str :=
  scopeIds c.scope ++ (c.thread.map Prod.snd).toList

end Conversation

/-! ### Calls without colons -/

section

variable (lower : Str → Str)

theorem colon_notMem_text (word : Word) : ':' ∉ word.text := by
  cases word <;> decide

theorem colon_notMem_marker (marker : ThreadMarker) : ':' ∉ marker.text := by
  cases marker with
  | thread => exact colon_notMem_text .thread
  | topic => exact colon_notMem_text .topic

theorem colon_notMem_scopeParts (base : BaseCall)
    (hids : ∀ id ∈ Conversation.scopeIds (base.scope lower), ':' ∉ id) :
    ∀ part ∈ Conversation.scopeParts (base.scope lower), ':' ∉ part := by
  have haccount := colon_notMem_normalizeAccountId lower
  cases base with
  | direct peerId name accountId dmScope =>
      cases dmScope <;>
        simp_all [BaseCall.scope, Conversation.scopeIds, Conversation.scopeParts, colon_notMem_text]
  | group name peerId =>
      simp_all [BaseCall.scope, Conversation.scopeIds, Conversation.scopeParts, colon_notMem_text]
  | groupSender name peerId senderId =>
      simp_all [BaseCall.scope, Conversation.scopeIds, Conversation.scopeParts, colon_notMem_text]
  | channel name peerId =>
      simp_all [BaseCall.scope, Conversation.scopeIds, Conversation.scopeParts, colon_notMem_text]

theorem KeyCall.words_eq_parts (call : KeyCall)
    (hids : ∀ id ∈ (call.conversation lower).ids, ':' ∉ id) :
    (call.conversation lower).words = (call.conversation lower).parts := by
  rw [Conversation.ids] at hids
  have hscope := colon_notMem_scopeParts lower call.base fun id hid =>
    hids id (List.mem_append_left _ hid)
  apply flatMap_splitOn_eq_self
  intro part hpart
  rw [Conversation.parts, List.mem_cons, List.mem_cons, List.mem_append] at hpart
  rcases hpart with rfl | rfl | hpart | hpart
  · exact colon_notMem_text .agent
  · exact colon_notMem_normalizeAgentId lower call.agentId
  · exact hscope part hpart
  · cases hthread : (call.conversation lower).thread with
    | none =>
        rw [hthread] at hpart
        simp [Conversation.threadParts] at hpart
    | some thread =>
        rw [hthread, Conversation.threadParts, List.mem_cons, List.mem_singleton] at hpart
        rcases hpart with rfl | rfl
        · exact colon_notMem_marker thread.1
        · apply hids thread.2
          rw [hthread]
          exact List.mem_append_right _ (by simp)

end

/-! ### A room named as a sender -/

def roomSender : KeyCall where
  agentId := "main".toList
  base := .groupSender "matrix".toList "!room".toList "bob".toList

def wholeRoom : KeyCall where
  agentId := "main".toList
  base := .group "matrix".toList "!room".toList

def roomNamedAsSender : KeyCall where
  agentId := "main".toList
  base := .group "matrix".toList "!room:sender:bob".toList

end OpenStarry.Session
