import OpenStarry.Lib.Text

/-!
# The status of an agent task
-/

namespace OpenStarry.Session

open Lib

inductive AgentTaskStatus where
  | queued | running | succeeded | failed | cancelled | timeout | abandoned
  deriving DecidableEq, Repr

namespace AgentTaskStatus

def value : AgentTaskStatus → Str
  | queued => "queued".toList
  | running => "running".toList
  | succeeded => "succeeded".toList
  | failed => "failed".toList
  | cancelled => "cancelled".toList
  | timeout => "timeout".toList
  | abandoned => "abandoned".toList

def isLive : AgentTaskStatus → Bool
  | queued | running => true
  | succeeded | failed | cancelled | timeout | abandoned => false

end AgentTaskStatus

end OpenStarry.Session

/-!
# Session keys

A session key is built from the agent, the channel, the account and the peers of a conversation, with
colons and fixed words between them. Agents and accounts are normalized; the other ids stand in the
key as they are.
-/

namespace OpenStarry.Session

open Lib Text

section

variable (lower : Str → Str)

/-! ### Identifiers -/

def isSegmentChar (c : Char) : Bool :=
  ('a' ≤ c && c ≤ 'z') || ('0' ≤ c && c ≤ '9') || c = '_' || c = '-'

def normalizeIdSegment (value : Str) : Str :=
  let lowered := lower (strip value)
  let valid := lowered.map fun c => if isSegmentChar c then c else '-'
  let normalized := (valid.dropWhile (· = '-')).rdropWhile (· = '-')
  if normalized = [] then "default".toList else normalized.take 64

def normalizeAgentId (agentId : Str) : Str :=
  let raw := strip agentId
  if raw = [] ∨ lower raw = "default".toList then "main".toList
  else
    let normalized := normalizeIdSegment lower raw
    if normalized = "default".toList then "main".toList else normalized

def poisoningKeys : List Str :=
  ["__proto__".toList, "constructor".toList, "prototype".toList, "hasownproperty".toList]

def normalizeAccountId (accountId : Str) : Str :=
  if lower (strip accountId) ∈ poisoningKeys then "default".toList
  else
    let normalized := normalizeIdSegment lower accountId
    if normalized = [] then "default".toList else normalized

/-! ### Keys -/

/-- The fixed words of the keys. -/
inductive Word where
  | agent
  | main
  | direct
  | group
  | sender
  | channel
  | thread
  | topic
  deriving DecidableEq

def Word.text : Word → Str
  | agent => "agent".toList
  | main => "main".toList
  | direct => "direct".toList
  | group => "group".toList
  | sender => "sender".toList
  | channel => "channel".toList
  | thread => "thread".toList
  | topic => "topic".toList

inductive DmScope where
  | main
  | perPeer
  | perChannelPeer
  | perAccountChannelPeer
  deriving DecidableEq

/-- `value or default`. -/
def orDefault (value : Option Str) (default : Str) : Str :=
  if value.getD [] = [] then default else value.getD []

def buildDirectKey (agentId peerId : Str) (channel accountId : Option Str) (dmScope : DmScope) : Str :=
  let aid := normalizeAgentId lower agentId
  match dmScope with
  | .main => Word.agent.text ++ [':'] ++ aid ++ [':'] ++ Word.main.text
  | .perPeer =>
      Word.agent.text ++ [':'] ++ aid ++ [':'] ++ Word.direct.text ++ [':'] ++ peerId
  | .perChannelPeer =>
      let ch := orDefault channel "unknown".toList
      Word.agent.text ++ [':'] ++ aid ++ [':'] ++ ch ++ [':'] ++ Word.direct.text ++ [':'] ++ peerId
  | .perAccountChannelPeer =>
      let ch := orDefault channel "unknown".toList
      let acc := normalizeAccountId lower (orDefault accountId "default".toList)
      Word.agent.text ++ [':'] ++ aid ++ [':'] ++ ch ++ [':'] ++ acc ++ [':'] ++ Word.direct.text ++
        [':'] ++ peerId

def buildGroupKey (agentId channel peerId : Str) : Str :=
  let aid := normalizeAgentId lower agentId
  Word.agent.text ++ [':'] ++ aid ++ [':'] ++ channel ++ [':'] ++ Word.group.text ++ [':'] ++ peerId

def buildGroupSenderKey (agentId channel peerId senderId : Str) : Str :=
  buildGroupKey lower agentId channel peerId ++ [':'] ++ Word.sender.text ++ [':'] ++ senderId

def buildChannelKey (agentId channel peerId : Str) : Str :=
  let aid := normalizeAgentId lower agentId
  Word.agent.text ++ [':'] ++ aid ++ [':'] ++ channel ++ [':'] ++ Word.channel.text ++ [':'] ++
    peerId

inductive ThreadMarker where
  | thread
  | topic
  deriving DecidableEq

def ThreadMarker.text : ThreadMarker → Str
  | thread => Word.thread.text
  | topic => Word.topic.text

def threadMarker (channelHint : Option Str) : ThreadMarker :=
  if channelHint = some "telegram".toList then .topic else .thread

def buildThreadKey (baseKey threadId : Str) (channelHint : Option Str) : Str :=
  baseKey ++ [':'] ++ (threadMarker channelHint).text ++ [':'] ++ threadId

/-! ### Aliases -/

/-- `canonicalize_session_key` of a stripped key with an agent: the agent id is normalized. -/
def canonicalizeAgentKey (key : Str) : Str :=
  let parts := key.splitOn ':'
  match parts with
  | head :: agentId :: rest => [':'].intercalate (head :: normalizeAgentId lower agentId :: rest)
  | _ => key

def canonicalizeSessionKey (sessionKey : Str) : Str :=
  let key := strip sessionKey
  if key = [] then []
  else if key = "webchat:default".toList then "agent:main:webchat:default".toList
  else if "subagent:agent:".toList.isPrefixOf key then
    -- what stands behind the prefix is stripped already and names an agent
    "subagent:".toList ++ canonicalizeAgentKey lower (key.drop "subagent:".length)
  else if "agent:".toList.isPrefixOf key then canonicalizeAgentKey lower key
  else key

/-! ### Calls of the builders -/

/-- A call of one of the builders of a base key. -/
inductive BaseCall where
  | direct (peerId : Str) (channel accountId : Option Str) (dmScope : DmScope)
  | group (channel peerId : Str)
  | groupSender (channel peerId senderId : Str)
  | channel (channel peerId : Str)

/-- A call for an agent, with the thread and the channel hint where there is one. -/
structure KeyCall where
  agentId : Str
  base : BaseCall
  thread : Option (Str × Option Str) := none

def KeyCall.baseKey (call : KeyCall) : Str :=
  match call.base with
  | .direct peerId channel accountId dmScope =>
      buildDirectKey lower call.agentId peerId channel accountId dmScope
  | .group channel peerId => buildGroupKey lower call.agentId channel peerId
  | .groupSender channel peerId senderId =>
      buildGroupSenderKey lower call.agentId channel peerId senderId
  | .channel channel peerId => buildChannelKey lower call.agentId channel peerId

def KeyCall.key (call : KeyCall) : Str :=
  match call.thread with
  | none => call.baseKey lower
  | some (threadId, channelHint) => buildThreadKey (call.baseKey lower) threadId channelHint

/-! ### Normalized identifiers hold no colon -/

theorem colon_notMem_normalizeIdSegment (value : Str) : ':' ∉ normalizeIdSegment lower value := by
  rw [normalizeIdSegment]
  split
  · decide
  · intro hmem
    have hvalid := (List.dropWhile_sublist _).subset
      ((List.rdropWhile_prefix _ _).subset (List.mem_of_mem_take hmem))
    obtain ⟨c, -, hc⟩ := List.mem_map.mp hvalid
    split at hc
    · rename_i hsegment
      rw [hc] at hsegment
      exact absurd hsegment (by decide)
    · exact absurd hc (by decide)

theorem colon_notMem_normalizeAgentId (agentId : Str) : ':' ∉ normalizeAgentId lower agentId := by
  rw [normalizeAgentId]
  dsimp only
  split
  · decide
  · split
    · decide
    · exact colon_notMem_normalizeIdSegment lower _

theorem colon_notMem_normalizeAccountId (accountId : Str) :
    ':' ∉ normalizeAccountId lower accountId := by
  rw [normalizeAccountId]
  split
  · decide
  · dsimp only
    split
    · decide
    · exact colon_notMem_normalizeIdSegment lower accountId

end

end OpenStarry.Session
