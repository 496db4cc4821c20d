import OpenStarry.Lib.Dict
import OpenStarry.Lib.Table

/-!
# The approval queue

The rows of the approval table and the operations on them. An operation first lets go of the claims
that are too old, reads its row, and changes it under a condition of its own. It reads the clock
several times; `clock n` is its reading number `n`, and nothing here relies on their order.
-/

namespace OpenStarry.Approval

open Lib Text

abbrev Time := Int

/-- `RESOLUTION_APPROVED`, `RESOLUTION_DENIED` and `RESOLUTION_EXPIRED`. -/
def resolutionApproved : String := "approved"
def resolutionDenied : String := "denied"
def resolutionExpired : String := "expired"

def resolutionOf (approved : Bool) : String :=
  if approved then resolutionApproved else resolutionDenied

/-- A row of the table without its key. -/
structure PendingApproval where
  space : String
  params : Dict
  createdAt : Time
  resolved : Bool
  approved : Bool
  consumed : Bool
  deadline : Time
  resolution : String
  claimToken : Option String
  claimStartedAt : Option Time

namespace PendingApproval

/-- The token as `_row_to_entry` reads it: an empty one is none. -/
def claim (row : PendingApproval) : Option String := row.claimToken.filter fun token => token ≠ ""

def dropClaim (row : PendingApproval) : PendingApproval :=
  { row with claimToken := none, claimStartedAt := none }

/-- `resolved = 0 AND claim_token IS NULL`. -/
def isOpen (row : PendingApproval) : Bool := !row.resolved && row.claimToken.isNone

end PendingApproval

abbrev Queue := Table String PendingApproval

structure Settings where
  timeout : Option Time
  claimTtl : Time

def Settings.create (defaultTimeout : Option Time) (claimTtlSeconds : Time) : Settings :=
  ⟨defaultTimeout.map (max 0), max 0 claimTtlSeconds⟩

inductive QueueError where
  | keyError (message : String)
  | valueError (message : String)
  deriving DecidableEq, Repr

namespace QueueError

def notFound (id : String) : QueueError := .keyError ("Approval not found: " ++ id)
def notPending (id : String) : QueueError := .valueError ("Approval is not pending: " ++ id)
def notUpdated (id : String) : QueueError :=
  .valueError ("Approval params could not be updated: " ++ id)
def notPositive : QueueError := .valueError "seconds must be positive"
def inProgress (id : String) : QueueError := .valueError ("Approval resolution in progress: " ++ id)
def alreadyResolved (id : String) : QueueError := .valueError ("Approval already resolved: " ++ id)
def notResolved (id : String) : QueueError :=
  .valueError ("Approval could not be resolved: " ++ id)
def notClaimed (id : String) : QueueError := .valueError ("Approval could not be claimed: " ++ id)
def claimMismatch (id : String) : QueueError :=
  .valueError ("Approval resolution claim mismatch: " ++ id)
def notFinalized (id : String) : QueueError :=
  .valueError ("Approval could not be finalized: " ++ id)
def notExpired (id : String) : QueueError := .valueError ("Approval could not be expired: " ++ id)
def notApproved (id : String) : QueueError := .valueError ("Approval is not approved: " ++ id)
def notCompleted (id : String) : QueueError :=
  .valueError ("Approval could not be completed: " ++ id)
def stateMismatch (id : String) : QueueError :=
  .valueError ("Approval resolved state mismatch: " ++ id)
def alreadyConsumed (id : String) : QueueError := .valueError ("Approval already consumed: " ++ id)

end QueueError

abbrev Reply (α : Type) := Queue × Except QueueError α

def withRow {α : Type} (id : String) (q : Queue) (body : PendingApproval → Reply α) : Reply α :=
  match q.get? id with
  | none => (q, .error (.notFound id))
  | some entry => body entry

/-- Change the row under a condition; `missed` follows when that changed no row. -/
def commitOne {α : Type} (q : Queue) (id : String) (condition : PendingApproval → Bool)
    (f : PendingApproval → PendingApproval) (missed : Reply α) (done : Queue → Reply α) : Reply α :=
  if q.rowcount (Table.atKey id condition) ≠ 1 then missed
  else done (q.update (Table.atKey id condition) f)

variable (s : Settings) (clock : Nat → Time) (id : String)

/-- `_release_stale_claims`. -/
def releaseStaleClaims (now : Time) (q : Queue) : Queue :=
  q.update (fun _ row => !row.resolved && row.claimToken.isSome &&
    row.claimStartedAt.all fun started => started ≤ now - s.claimTtl) PendingApproval.dropClaim

def get (now : Time) (q : Queue) : Reply PendingApproval :=
  let q := releaseStaleClaims s now q
  withRow id q fun entry => (q, .ok entry)

/-- An identifier is drawn until one is free; `drawn` are the identifiers with the time of each. -/
def request (space : String) (params : Dict) : List (String × Time) → Queue → Queue × Option String
  | [], q => (q, none)
  | (approvalId, now) :: rest, q =>
      let deadline := match s.timeout with
        | some timeout => if timeout = 0 then 0 else now + timeout
        | none => 0
      match q.insert? approvalId ⟨space, params, now, false, false, false, deadline, "", none, none⟩ with
      | some q' => (q', some approvalId)
      | none => request space params rest q

def updateParams (params : Dict) (q : Queue) : Reply Unit :=
  let q := releaseStaleClaims s (clock 0) q
  withRow id q fun entry =>
    if entry.resolved || entry.claim.isSome then (q, .error (.notPending id))
    else commitOne q id PendingApproval.isOpen (fun row => { row with params := params })
      (q, .error (.notUpdated id))
      fun q => let after := get s id (clock 1) q; (after.1, after.2.map fun _ => ())

/-- `_rearm_deadline`. -/
def rearmDeadline (deadline : Time) (q : Queue) : Reply Unit :=
  let q := releaseStaleClaims s (clock 0) q
  commitOne q id PendingApproval.isOpen (fun row => { row with deadline := deadline }) (q, .ok ())
    fun q => let after := get s id (clock 1) q; (after.1, after.2.map fun _ => ())

def extend (seconds : Time) (q : Queue) : Reply Time :=
  if seconds ≤ 0 then (q, .error .notPositive)
  else
    let q := releaseStaleClaims s (clock 0) q
    withRow id q fun entry =>
      if entry.claim.isSome then (q, .error (.inProgress id))
      else if entry.resolved then (q, .ok entry.deadline)
      else
        let deadline := (if entry.deadline = 0 then clock 1 else entry.deadline) + seconds
        let after := get s id (clock 2) (q.update (Table.atKey id PendingApproval.isOpen)
          fun row => { row with deadline := deadline })
        (after.1, after.2.map PendingApproval.deadline)

/-- `_expire_if_unresolved`. -/
def expireIfUnresolved (force : Bool) (q : Queue) : Reply (Option Bool) :=
  let q := releaseStaleClaims s (clock 0) q
  withRow id q fun entry =>
    if entry.claim.isSome && !force then (q, .error (.inProgress id))
    else if entry.resolved then (q, .ok (some entry.approved))
    else if !force && clock 1 < entry.deadline then (q, .ok none)
    else
      let condition (row : PendingApproval) := !row.resolved && (force || row.claimToken.isNone)
      let after := get s id (clock 2) (q.update (Table.atKey id condition) fun row =>
        { row with
          resolved := true, approved := false, resolution := resolutionExpired
          claimToken := none, claimStartedAt := none })
      (after.1, after.2.map fun entry => some entry.approved)

/-- One round of `wait`: the outcome, a lapsed deadline, or another round. -/
def waitRound (q : Queue) : Reply (Option Bool) :=
  let read := get s id (clock 0) q
  match read.2 with
  | .error e => (read.1, .error e)
  | .ok entry =>
      if entry.resolved && entry.claim.isNone then (read.1, .ok (some entry.approved))
      else if 0 < entry.deadline ∧ entry.deadline - clock 1 ≤ 0 then
        expireIfUnresolved s (fun n => clock (n + 2)) id false read.1
      else (read.1, .ok none)

/-- `expire_pending`. -/
def expirePending (q : Queue) : Reply Bool :=
  let after := expireIfUnresolved s clock id true q
  (after.1, after.2.map Option.isSome)

def expireClaimedResolution (claimToken : String) (q : Queue) : Reply Unit :=
  withRow id q fun entry =>
    if entry.claim ≠ some claimToken then (q, .error (.claimMismatch id))
    else commitOne q id (fun row => row.claimToken = some claimToken)
      (fun row =>
        { row with
          resolved := true, approved := false, consumed := false, resolution := resolutionExpired
          claimToken := none, claimStartedAt := none })
      (q, .error (.notExpired id))
      fun q => let after := get s id (clock 0) q; (after.1, after.2.map fun _ => ())

def resolve (approved allowIdempotent : Bool) (metadata : Dict) (q : Queue) : Reply Unit :=
  let q := releaseStaleClaims s (clock 0) q
  withRow id q fun entry =>
    if entry.claim.isSome then (q, .error (.inProgress id))
    else if entry.resolved then
      if allowIdempotent && entry.approved == approved then (q, .ok ())
      else (q, .error (.alreadyResolved id))
    else commitOne q id PendingApproval.isOpen
      (fun row =>
        { row with
          resolved := true, approved := approved
          resolution := resolutionOf approved
          params := entry.params.merge metadata })
      (let read := get s id (clock 1) q
       (read.1, read.2.bind fun entry =>
        if entry.resolved then
          if allowIdempotent && entry.approved == approved then .ok ()
          else .error (.alreadyResolved id)
        else if entry.claim.isSome then .error (.inProgress id)
        else .error (.notResolved id)))
      fun q => let after := get s id (clock 1) q; (after.1, after.2.map fun _ => ())

/-- The claim is known by the token drawn for it. -/
def claimResolution (token : String) (metadata : Dict) (q : Queue) : Reply String :=
  let q := releaseStaleClaims s (clock 0) q
  withRow id q fun entry =>
    if entry.claim.isSome then (q, .error (.inProgress id))
    else if entry.resolved then (q, .error (.alreadyResolved id))
    else commitOne q id PendingApproval.isOpen
      (fun row =>
        { row with
          claimToken := some token, claimStartedAt := some (clock 1)
          params := entry.params.merge metadata })
      (let read := get s id (clock 2) q
       (read.1, read.2.bind fun entry =>
        if entry.resolved then .error (.alreadyResolved id)
        else if entry.claim.isSome then .error (.inProgress id)
        else .error (.notClaimed id)))
      fun q => let after := get s id (clock 2) q; (after.1, after.2.map fun _ => token)

def finalizeClaimedResolution (claimToken : String) (approved : Bool) (q : Queue) : Reply Unit :=
  withRow id q fun entry =>
    if entry.resolved then (q, .error (.alreadyResolved id))
    else if entry.claim ≠ some claimToken then (q, .error (.claimMismatch id))
    else commitOne q id (fun row => !row.resolved && row.claimToken = some claimToken)
      (fun row =>
        { row with
          resolved := true, approved := approved
          resolution := resolutionOf approved })
      (q, .error (.notFinalized id))
      fun q => withRow id q fun _ => (q, .ok ())

def completeClaimedResolution (claimToken : String) (q : Queue) : Reply Unit :=
  withRow id q fun entry =>
    if entry.resolved && entry.approved && entry.claim.isNone then (q, .ok ())
    else if !entry.resolved || !entry.approved then (q, .error (.notApproved id))
    else if entry.claim ≠ some claimToken then (q, .error (.claimMismatch id))
    else commitOne q id
      (fun row => row.resolved && row.approved && row.claimToken = some claimToken)
      PendingApproval.dropClaim (q, .error (.notCompleted id))
      fun q => let after := get s id (clock 0) q; (after.1, after.2.map fun _ => ())

def releaseResolutionClaim (claimToken : String) (q : Queue) : Reply Unit :=
  withRow id q fun entry =>
    if entry.resolved then (q, .ok ())
    else if entry.claim ≠ some claimToken then (q, .ok ())
    else
      let after := get s id (clock 0) (q.update (Table.atKey id fun row =>
        !row.resolved && row.claimToken = some claimToken) PendingApproval.dropClaim)
      (after.1, after.2.map fun _ => ())

def reopenResolvedApproval (expectedApproved : Bool) (q : Queue) : Reply Unit :=
  withRow id q fun entry =>
    if !entry.resolved then (q, .ok ())
    else if entry.approved ≠ expectedApproved then (q, .error (.stateMismatch id))
    else
      let after := get s id (clock 0) (q.update
        (Table.atKey id fun row => row.resolved && row.approved == expectedApproved) fun row =>
          { row with
            resolved := false, approved := false, consumed := false, resolution := ""
            claimToken := none, claimStartedAt := none })
      (after.1, after.2.map fun _ => ())

def consume (q : Queue) : Reply Unit :=
  let q := releaseStaleClaims s (clock 0) q
  withRow id q fun entry =>
    if entry.claim.isSome then (q, .error (.inProgress id))
    else if !entry.resolved || !entry.approved then (q, .error (.notApproved id))
    else if entry.consumed then (q, .error (.alreadyConsumed id))
    else commitOne q id
      (fun row => row.resolved && row.approved && !row.consumed && row.claimToken.isNone)
      (fun row => { row with consumed := true })
      (let read := get s id (clock 1) q
       (read.1, read.2.bind fun entry =>
        .error (if entry.consumed then .alreadyConsumed id else .notApproved id)))
      fun q => let after := get s id (clock 1) q; (after.1, after.2.map fun _ => ())

def listPending (space : String) (now : Time) (q : Queue) : Queue × List (String × PendingApproval) :=
  let q := releaseStaleClaims s now q
  (q, q.entries.filter fun row => row.2.isOpen && (space = "" || row.2.space = space))

end OpenStarry.Approval

/-!
# Runs of queue operations

An operation is a call with its arguments and the clock readings it makes, and a run is a list of
them. A sweep over many rows is a run: the rows it selects first, then one call on each.
-/

namespace OpenStarry.Approval

open Lib Text

inductive Operation where
  | restart (now : Time)
  | request (space : String) (params : Dict) (drawn : List (String × Time))
  | get (now : Time) (id : String)
  | listPending (space : String) (now : Time)
  | updateParams (clock : Nat → Time) (id : String) (params : Dict)
  | rearmDeadline (clock : Nat → Time) (id : String) (deadline : Time)
  | extend (clock : Nat → Time) (id : String) (seconds : Time)
  | waitRound (clock : Nat → Time) (id : String)
  | expirePending (clock : Nat → Time) (id : String)
  | expireClaimedResolution (clock : Nat → Time) (id claimToken : String)
  | resolve (clock : Nat → Time) (id : String) (approved allowIdempotent : Bool) (metadata : Dict)
  | claimResolution (clock : Nat → Time) (id token : String) (metadata : Dict)
  | finalizeClaimedResolution (id claimToken : String) (approved : Bool)
  | completeClaimedResolution (clock : Nat → Time) (id claimToken : String)
  | releaseResolutionClaim (clock : Nat → Time) (id claimToken : String)
  | reopenResolvedApproval (clock : Nat → Time) (id : String) (expectedApproved : Bool)
  | consume (clock : Nat → Time) (id : String)

namespace Operation

def isRequest : Operation → Bool
  | request _ _ _ => true
  | _ => false

def isReopenOf (id : String) : Operation → Bool
  | reopenResolvedApproval _ i _ => i = id
  | _ => false

def isConsumeOf (id : String) : Operation → Bool
  | consume _ i => i = id
  | _ => false

end Operation

def Reply.forget {α : Type} (reply : Reply α) : Reply Unit := (reply.1, reply.2.map fun _ => ())

/-- The table an operation leaves, and whether it raised. -/
def perform (s : Settings) (op : Operation) (q : Queue) : Reply Unit :=
  match op with
  | .restart now => (releaseStaleClaims s now q, .ok ())
  | .request space params drawn => ((request s space params drawn q).1, .ok ())
  | .get now id => (get s id now q).forget
  | .listPending space now => ((listPending s space now q).1, .ok ())
  | .updateParams clock id params => updateParams s clock id params q
  | .rearmDeadline clock id deadline => rearmDeadline s clock id deadline q
  | .extend clock id seconds => (extend s clock id seconds q).forget
  | .waitRound clock id => (waitRound s clock id q).forget
  | .expirePending clock id => (expirePending s clock id q).forget
  | .expireClaimedResolution clock id token => expireClaimedResolution s clock id token q
  | .resolve clock id approved idempotent metadata =>
      resolve s clock id approved idempotent metadata q
  | .claimResolution clock id token metadata => (claimResolution s clock id token metadata q).forget
  | .finalizeClaimedResolution id token approved => finalizeClaimedResolution id token approved q
  | .completeClaimedResolution clock id token => completeClaimedResolution s clock id token q
  | .releaseResolutionClaim clock id token => releaseResolutionClaim s clock id token q
  | .reopenResolvedApproval clock id expected => reopenResolvedApproval s clock id expected q
  | .consume clock id => consume s clock id q

def run (s : Settings) : List Operation → Queue → Queue
  | [], q => q
  | op :: rest, q => run s rest (perform s op q).1

theorem run_append (s : Settings) (first second : List Operation) (q : Queue) :
    run s (first ++ second) q = run s second (run s first q) := by
  induction first generalizing q with
  | nil => rfl
  | cons op rest ih => exact ih _

/-! ### Sweeps -/

/-- The session a row belongs to: `str(params.get("sessionKey") or …).strip()`. -/
def ownerKey (text : Json → Str) (keys : List String) (params : Dict) : Str :=
  match (keys.map params.get).find? Json.truthy with
  | some value => strip (text value)
  | none => []

/-- The calls `expire_all_pending` makes on the rows it finds unresolved. -/
def expireAllPending (clock : String → Nat → Time) (q : Queue) : List Operation :=
  (q.entries.filter fun row => !row.2.resolved).map fun row => .expirePending (clock row.1) row.1

/-- The calls `expire_pending_for_session` makes. -/
def expirePendingForSession (text : Json → Str) (clock : String → Nat → Time) (sessionKey : Str)
    (q : Queue) : List Operation :=
  if strip sessionKey = [] then []
  else (q.entries.filter fun row => !row.2.resolved &&
    ownerKey text ["sessionKey", "session_key"] row.2.params = strip sessionKey).map fun row =>
      .expirePending (clock row.1) row.1

/-- The calls `resolve_pending_for_session` makes, behind its look for claims that are too old. -/
def resolvePendingForSession (text : Json → Str) (s : Settings) (now : Time)
    (clock : String → Nat → Time) (sessionKey : Str) (approved : Bool) (q : Queue) :
    List Operation :=
  if strip sessionKey = [] then []
  else .restart now :: (((releaseStaleClaims s now q).entries.filter fun row =>
    row.2.isOpen && row.2.space = "exec" &&
      ownerKey text ["sessionKey"] row.2.params = strip sessionKey).map fun row =>
        .resolve (clock row.1) row.1 approved true [])

end OpenStarry.Approval
