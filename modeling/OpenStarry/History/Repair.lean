import Mathlib.Order.Interval.Finset.Nat

/-!
# The repair of tool calls and their results

Providers refuse a request in which a tool call is not followed at once by the results it asked for.
Before a history is sent, the calls and results that do not stand like this are taken out, and of
several results for one id in a message the last is kept.
-/

namespace OpenStarry.History

inductive Role where
  | user
  | assistant
  deriving DecidableEq, Repr

/-- The content blocks. What the repair never looks at is of a type of its own. -/
inductive Block (α : Type) where
  | text (text : String)
  | toolUse (id name : String) (input : α)
  | toolResult (toolUseId : String) (content : α) (isError : Bool)
  | other (data : α)
  deriving DecidableEq, Repr

inductive Content (α : Type) where
  | text (text : String)
  | blocks (blocks : List (Block α))
  deriving DecidableEq, Repr

structure Message (α : Type) where
  role : Role
  content : Content α
  reasoningContent : Option String
  deriving DecidableEq, Repr

variable {α : Type}

namespace Block

def useId : Block α → Option String
  | toolUse id _ _ => some id
  | _ => none

def resultId : Block α → Option String
  | toolResult id _ _ => some id
  | _ => none

end Block

namespace Content

def list : Content α → List (Block α)
  | .text _ => []
  | .blocks bs => bs

def useIds (content : Content α) : List String := content.list.filterMap Block.useId

def resultIds (content : Content α) : List String := content.list.filterMap Block.resultId

end Content

/-- `_extract_tool_use_ids`. -/
def extractToolUseIds (content : Content α) : Finset String := content.useIds.toFinset

/-- `_extract_tool_result_ids`. -/
def extractToolResultIds (content : Content α) : Finset String := content.resultIds.toFinset

namespace Message

def uses (m : Message α) : Finset String := extractToolUseIds m.content

def results (m : Message α) : Finset String := extractToolResultIds m.content

end Message

/-! ### Several results for one id in a message -/

/-- `last_index_by_id`. -/
def lastIndex (blocks : List (Block α)) (id : String) : Option Nat :=
  ((blocks.zipIdx.filter fun p => p.1.resultId = some id).getLast?).map Prod.snd

def isLast (blocks : List (Block α)) (p : Block α × Nat) : Bool :=
  match p.1.resultId with
  | none => true
  | some id => lastIndex blocks id = some p.2

/-- `_dedupe_tool_result_blocks`: the new content, and whether a block was left out. -/
def dedupeToolResultBlocks (content : Content α) : Content α × Bool :=
  match content with
  | .text s => (.text s, false)
  | .blocks blocks =>
      let ids := blocks.filterMap Block.resultId
      if ids.length = ids.toFinset.card then (.blocks blocks, false)
      else
        (.blocks ((blocks.zipIdx.filter (isLast blocks)).map Prod.fst),
          blocks.zipIdx.any fun p => !isLast blocks p)

/-! ### Calls and the results that follow them -/

def scanResults (uses : Finset String) (seen : Finset String) :
    List (Message α) → Finset String × Nat
  | [] => (seen, 0)
  | m :: rest =>
      if m.results = ∅ then (seen, 0)
      else if ¬ seen ∪ m.results ⊆ uses then (seen ∪ m.results, 0)
      else if seen ∪ m.results = uses then (seen ∪ m.results, 1)
      else
        let scanned := scanResults uses (seen ∪ m.results) rest
        (scanned.1, scanned.2 + 1)

def answeredBy (m : Message α) (rest : List (Message α)) : Option Nat :=
  if m.uses = ∅ then none
  else if m.role ≠ .assistant then none
  else
    let scanned := scanResults m.uses ∅ rest
    if scanned.1 = m.uses then some scanned.2 else none

def answeredAt (messages : List (Message α)) (i : Nat) : Option Nat :=
  (messages[i]?).bind fun m => answeredBy m (messages.drop (i + 1))

def validToolCallIndices (messages : List (Message α)) : Finset Nat :=
  (Finset.range (messages.length - 1)).filter fun i => (answeredAt messages i).isSome

def validToolResultIndices (messages : List (Message α)) : Finset Nat :=
  (Finset.range (messages.length - 1)).biUnion fun i =>
    Finset.Ioc i (i + (answeredAt messages i).getD 0)

def keeps (messages : List (Message α)) (p : Message α × Nat) : Bool :=
  (p.1.uses = ∅ ∨ p.2 ∈ validToolCallIndices messages) ∧
    (p.1.results = ∅ ∨ p.2 ∈ validToolResultIndices messages)

def tidy (m : Message α) : Message α × Bool :=
  if m.results = ∅ then (m, false)
  else
    let deduped := dedupeToolResultBlocks m.content
    if deduped.2 then
      (⟨m.role, deduped.1, m.reasoningContent⟩, true)
    else (m, false)

/-- A list given back: its messages, and whether it is the very list that was given. -/
structure Returned (α : Type) where
  messages : List (Message α)
  isGiven : Bool
  deriving DecidableEq, Repr

/-- `repair_tool_pairing`. -/
def repairToolPairing (messages : List (Message α)) : Returned α :=
  let kept := messages.zipIdx.filter (keeps messages)
  let repaired := kept.map fun p => (tidy p.1).1
  let changed := messages.zipIdx.any (fun p => !keeps messages p) || kept.any fun p => (tidy p.1).2
  if changed then ⟨repaired, false⟩ else ⟨messages, true⟩

end OpenStarry.History
