import OpenStarry.Approval.Settled
import OpenStarry.Elevation.Action

/-!
# The elevation gate

An elevated action is requested, reviewed in the approval queue, and allowed by consuming the
approval. A call of the gate runs to its end before anything else touches the queue; each of its
accesses to the queue reads the clock on its own.
-/

namespace OpenStarry.Elevation

open Lib Text Approval

/-- What is not part of the repository: the digest, `str.lower`, and `str` of a value that is no
text. -/
structure Runtime where
  sha256 : Str → Str
  lower : Str → Str
  str : Json → Str

inductive Reviewer where
  | user
  | autoReview
  deriving DecidableEq, Repr

def Reviewer.text : Reviewer → String
  | user => "user"
  | autoReview => "auto_review"

def Reviewer.ofText (text : Str) : Option Reviewer :=
  if text = "user".toList then some user
  else if text = "auto_review".toList then some autoReview
  else none

/-- What the active channel context says about the sender. -/
structure ChannelContext where
  isOwner : Bool
  channelAdminVerified : Bool
  senderId : Str
  sessionKey : Str

structure ElevationGateResult where
  requested : Bool
  allowed : Bool
  status : String
  approvalId : Option String := none
  reason : Option Str := none

/-- A call of the gate, with what it reads from its surroundings: the run mode, the active profile
(whether it allows execution outside the sandbox), the configured reviewer, the channel, the
identifiers drawn for a new request and the clock. -/
structure GateCall where
  action : ElevationAction
  approvalId : Option String
  sessionKey : Option Str
  reviewer : Option Reviewer := none
  profile : Option Bool := none
  metadata : Dict := []
  fullHostAccess : Bool := false
  runMode : Option Str := none
  activeProfile : Option Bool := none
  configuredReviewer : Str := []
  channel : Option ChannelContext := none
  drawn : List (String × Time) := []
  clock : Nat → Nat → Time := fun _ _ => 0

variable (env : Runtime) (s : Settings)

/-- `str(value)`. -/
def Runtime.text : Json → Str
  | .str s => s
  | value => env.str value

/-- `str(value or "")`. -/
def Runtime.textOr (value : Json) : Str := if value.truthy then env.text value else []

def effectiveApprovalReviewer (configured : Str) (runMode : Option Str) : Reviewer :=
  let normalized := env.lower (strip (runMode.getD []))
  if normalized ∈ ["safe".toList, "standard".toList, "trusted".toList, "managed".toList] then .user
  else (Reviewer.ofText configured).getD .user

def GateCall.effectiveReviewer (call : GateCall) : Reviewer :=
  let reviewer := match call.reviewer with
    | some reviewer => reviewer
    | none => effectiveApprovalReviewer env
        (if (Reviewer.ofText call.configuredReviewer).isSome then call.configuredReviewer
          else "auto_review".toList) none
  effectiveApprovalReviewer env reviewer.text.toList call.runMode

def channelRoutingUnavailable : Str :=
  ("This elevated action cannot request channel approval because the authenticated " ++
    "administrator sender or session route is unavailable.").toList

/-- `channel_admin_approval_identity`. -/
def channelAdminApprovalIdentity (ctx : ChannelContext) : Option (Str × Str) :=
  if !ctx.isOwner || !ctx.channelAdminVerified then none
  else if strip ctx.senderId = [] ∨ strip ctx.sessionKey = [] then none
  else some (strip ctx.senderId, strip ctx.sessionKey)

/-- `_channel_elevation_metadata`: the metadata with the authenticated sender, or a denial. -/
def channelElevationMetadata (channel : Option ChannelContext) (sessionKey : Option Str)
    (metadata : Dict) : Except ElevationGateResult Dict :=
  match channel with
  | none => .ok metadata
  | some ctx =>
      match channelAdminApprovalIdentity ctx with
      | some identity =>
          if strip (sessionKey.getD []) = [] ∨ strip (sessionKey.getD []) ≠ identity.2 then
            .error ⟨false, false, "approval_denied", none, some channelRoutingUnavailable⟩
          else .ok (metadata.set "senderId" (.str identity.1))
      | none => .error ⟨false, false, "approval_denied", none, some channelRoutingUnavailable⟩

def elevationKind : Json := .str "sandbox_elevation".toList

/-- `_pending_elevation_id`. -/
def pendingElevationId (now : Time) (fingerprint : Str) (sessionKey : Option Str) (senderId : Str)
    (q : Queue) : Queue × Option String :=
  let listed := listPending s "exec" now q
  (listed.1, (listed.2.find? fun row =>
    row.2.params.get "approvalKind" = elevationKind &&
      env.textOr (row.2.params.get "fingerprint") = fingerprint &&
      env.textOr (row.2.params.get "sessionKey") = sessionKey.getD [] &&
      strip (env.textOr (row.2.params.get "senderId")) = strip senderId && row.1 ≠ "").map
    Prod.fst)

def humanConfirmation : Dict :=
  [("reviewer".toList, .str "user".toList), ("humanActionable".toList, .bool true),
    ("reviewStatus".toList, .str "human_confirmation_required".toList),
    ("reviewSource".toList, .str "standard_mode_policy".toList)]

/-- The parameters of a new request: what binds it, and the metadata that does not get in its way. -/
def requestParams (action : ElevationAction) (sessionKey : Option Str) (reviewer : Reviewer)
    (metadata : Dict) : Dict :=
  metadata.foldl (fun params field =>
      if (params.lookup field.1).isSome then params else params ++ [field])
    [("approvalKind".toList, elevationKind),
      ("reviewer".toList, .str reviewer.text.toList),
      ("humanActionable".toList, .bool (reviewer = .user)),
      ("fingerprint".toList, .str (action.fingerprint env.sha256)),
      ("action".toList, .obj action.canonicalPayload),
      ("sessionKey".toList, .str (sessionKey.getD []))]

def andThen {α β : Type} (reply : Reply α) (next : α → Queue → Reply β) : Reply β :=
  match reply.2 with
  | .error e => (reply.1, .error e)
  | .ok a => next a reply.1

/-- A pending request is reused; when the user reviews, it is marked for the user. -/
def reusePending (clock : Nat → Nat → Time) (id : String) (reviewer : Reviewer) (q : Queue) :
    Reply ElevationGateResult :=
  let answer : ElevationGateResult := ⟨true, false, "approval_pending", some id, none⟩
  if reviewer = .user then
    andThen (get s id (clock 1 0) q) fun entry q =>
      if entry.params.get "reviewer" ≠ .str "user".toList ∨
          entry.params.get "humanActionable" ≠ .bool true then
        andThen (updateParams s (clock 2) id (entry.params.merge humanConfirmation) q)
          fun _ q => (q, .ok answer)
      else (q, .ok answer)
  else (q, .ok answer)

def requestNew (drawn : List (String × Time)) (action : ElevationAction) (sessionKey : Option Str)
    (reviewer : Reviewer) (metadata : Dict) (q : Queue) : Reply ElevationGateResult :=
  let requested := request s "exec" (requestParams env action sessionKey reviewer metadata) drawn q
  (requested.1, .ok ⟨true, false, "approval_required", requested.2, none⟩)

def requestElevation (clock : Nat → Nat → Time) (drawn : List (String × Time))
    (action : ElevationAction) (sessionKey : Option Str) (reviewer : Reviewer) (metadata : Dict)
    (channel : Option ChannelContext) (q : Queue) : Reply ElevationGateResult :=
  if action.sandboxPermissions ≠ .requireEscalated then
    (q, .error (.valueError "require_escalated_required"))
  else if strip action.justification = [] then (q, .error (.valueError "justification_required"))
  else
    match channelElevationMetadata channel sessionKey metadata with
    | .error denial => (q, .ok denial)
    | .ok routed =>
        let pending := pendingElevationId env s (clock 0 0) (action.fingerprint env.sha256)
          sessionKey (env.textOr (routed.get "senderId")) q
        match pending.2 with
        | some id => reusePending s clock id reviewer pending.1
        | none => requestNew env s drawn action sessionKey reviewer routed pending.1

def refuse (id status : String) (reason : Option Str) : ElevationGateResult :=
  ⟨true, false, status, some id, reason⟩

/-- Why an approval does not fit the call, if so. -/
def bindingMismatch (entry : PendingApproval) (action : ElevationAction)
    (expectedSessionKey : Option Str) (expectedReviewer : Option Reviewer)
    (expectedSenderId : Option Str) : Option String :=
  if entry.space ≠ "exec" ∨ entry.params.get "approvalKind" ≠ elevationKind then
    some "approval_action_mismatch"
  else if env.textOr (entry.params.get "fingerprint") ≠ action.fingerprint env.sha256 then
    some "approval_action_mismatch"
  else if expectedSessionKey.any fun key => env.textOr (entry.params.get "sessionKey") ≠ key then
    some "approval_session_mismatch"
  else if expectedReviewer.any fun reviewer =>
      entry.params.get "reviewer" ≠ .str reviewer.text.toList ||
        (reviewer = .user && entry.params.get "humanActionable" ≠ .bool true) then
    some "approval_reviewer_mismatch"
  else if expectedSenderId.any fun sender =>
      strip (env.textOr (entry.params.get "senderId")) ≠ strip sender then
    some "approval_sender_mismatch"
  else none

def consumeApprovedElevation (clock : Nat → Nat → Time) (id : String) (action : ElevationAction)
    (expectedSessionKey : Option Str) (expectedReviewer : Option Reviewer)
    (expectedSenderId : Option Str) (q : Queue) : Reply ElevationGateResult :=
  andThen (get s id (clock 0 0) q) fun entry q =>
    match bindingMismatch env entry action expectedSessionKey expectedReviewer expectedSenderId with
    | some mismatch => (q, .ok (refuse id mismatch (some mismatch.toList)))
    | none =>
        if !entry.resolved then (q, .ok (refuse id "approval_pending" none))
        else if !entry.approved then
          let rationale := strip (env.textOr (entry.params.get "reviewRationale"))
          (q, .ok (refuse id "approval_denied" (some (if rationale = [] then
            "The elevated action was not approved.".toList else rationale))))
        else andThen (consume s (clock 1) id q) fun _ q =>
          (q, .ok ⟨true, true, "approved", some id, none⟩)

def exceptionReason : QueueError → Str
  | .keyError _ => "approval not found".toList
  | .valueError message => env.lower (strip (message.toList.takeWhile (· ≠ ':')))

def forbiddenReason : Str :=
  ("Unsandboxed execution cannot be granted while the active " ++
    "filesystem profile contains denied reads.").toList

/-- The call names an approval: consume it, or ask again when another reviewer has to decide. -/
def consumeOrAsk (call : GateCall) (id : String) (sender : Str)
    (again : Queue → Reply ElevationGateResult) (q : Queue) : Reply ElevationGateResult :=
  let tried := andThen (consumeApprovedElevation env s call.clock id call.action call.sessionKey
      (some (call.effectiveReviewer env)) (if sender = [] then none else some sender) q)
    fun consumed q =>
      if consumed.status = "approval_reviewer_mismatch" then again q else (q, .ok consumed)
  match tried.2 with
  | .ok result => (tried.1, .ok result)
  | .error e => (tried.1, .ok (refuse id "approval_invalid" (some (exceptionReason env e))))

def gateElevatedAction (call : GateCall) (q : Queue) : Reply ElevationGateResult :=
  if call.fullHostAccess then (q, .ok ⟨false, true, "full_host_access", none, none⟩)
  else if call.action.sandboxPermissions ≠ .requireEscalated then
    (q, .ok ⟨false, false, "use_default", none, none⟩)
  else if call.profile.or call.activeProfile = some false then
    (q, .ok ⟨false, false, "elevation_forbidden_denied_reads", none, some forbiddenReason⟩)
  else
    match channelElevationMetadata call.channel call.sessionKey call.metadata with
    | .error denial => (q, .ok denial)
    | .ok routed =>
        let again := requestElevation env s (fun n => call.clock (n + 2)) call.drawn call.action
          call.sessionKey (call.effectiveReviewer env) routed call.channel
        match call.approvalId.filter (· ≠ "") with
        | none => again q
        | some id =>
            consumeOrAsk env s call id (strip (env.textOr (routed.get "senderId"))) again q

end OpenStarry.Elevation

/-!
# What binds an approval

The parameters that tie a request to its action and session stay as they are requested: reviews add
other parameters, and the gate changes the reviewer only. Every access to the queue, of the gate or
of a review, keeps them, and once a row is resolved all its parameters stay.
-/

namespace OpenStarry.Elevation

open Lib Text Approval Relation

def bindingKeys : List String := ["approvalKind", "fingerprint", "action", "sessionKey"]

def decisionKeys : List String := "humanActionable" :: "reviewer" :: bindingKeys

def SameAt (keys : List String) (params params' : Dict) : Prop :=
  ∀ key ∈ keys, params'.get key = params.get key

/-- The parameters name the action and the session of a request. -/
structure BoundTo (env : Runtime) (params : Dict) (action : ElevationAction) (sessionKey : Str) :
    Prop where
  payload : params.get "action" = .obj action.canonicalPayload
  fingerprint : params.get "fingerprint" = .str (action.fingerprint env.sha256)
  sessionKey : params.get "sessionKey" = .str sessionKey

def WellBound (env : Runtime) (space : String) (params : Dict) : Prop :=
  space = "exec" → params.get "approvalKind" = elevationKind →
    ∃ action sessionKey, BoundTo env params action sessionKey

/-- The accesses to the queue that take part in a run: requests are well bound, an update keeps what
binds the row, a decision only adds review metadata, and nothing is reopened. -/
def Admissible (env : Runtime) (op : Operation) (q : Queue) : Prop :=
  match op with
  | .request space params _ => WellBound env space params
  | .updateParams _ id params =>
      ∀ row, q.get? id = some row → SameAt bindingKeys row.params params
  | .resolve _ _ _ _ metadata => ∀ key ∈ decisionKeys, key.toList ∉ metadata.map Prod.fst
  | .claimResolution _ _ _ metadata => ∀ key ∈ decisionKeys, key.toList ∉ metadata.map Prod.fst
  | .reopenResolvedApproval _ _ _ => False
  | _ => True

def isAccess : Operation → Bool
  | .get _ _ | .listPending _ _ | .updateParams _ _ _ | .request _ _ _ | .consume _ _ => true
  | _ => false

def Access (env : Runtime) (s : Settings) (q q' : Queue) : Prop :=
  ∃ op, Admissible env op q ∧ q' = (perform s op q).1

def GateAccess (env : Runtime) (s : Settings) (q q' : Queue) : Prop :=
  ∃ op, isAccess op = true ∧ Admissible env op q ∧ q' = (perform s op q).1

section Rows

variable {env : Runtime} {s : Settings} {op : Operation} {q q' : Queue} {id : String}
  {row row' : PendingApproval}

theorem SameAt.refl (keys : List String) (params : Dict) : SameAt keys params params :=
  fun _ _ => rfl

theorem SameAt.mono {keys keys' : List String} {a b : Dict} (h : SameAt keys a b)
    (hkeys : ∀ key ∈ keys', key ∈ keys) : SameAt keys' a b :=
  fun key hkey => h key (hkeys key hkey)

theorem sameAt_merge {keys : List String} {params metadata : Dict}
    (h : ∀ key ∈ keys, key.toList ∉ metadata.map Prod.fst) :
    SameAt keys params (params.merge metadata) :=
  fun key hkey => Dict.get_merge (h key hkey)

theorem bindingKeys_subset : ∀ key ∈ bindingKeys, key ∈ decisionKeys := by decide

theorem not_reopen_of_admissible (h : Admissible env op q) (id : String) :
    op.isReopenOf id = false := by
  cases op with
  | reopenResolvedApproval => exact absurd h not_false
  | _ => rfl

theorem rowStep_sameAt (h : RowStep op id row row') (hadmissible : Admissible env op q)
    (hrow : q.get? id = some row) :
    SameAt decisionKeys row.params row'.params ∨
      (∃ clock params, op = .updateParams clock id params) ∧
        SameAt bindingKeys row.params row'.params := by
  obtain ⟨lapsed, hlapse, moved, hmoved, hlapse'⟩ := h
  rw [hlapse'.params, ← hlapse.params]
  cases hmoved with
  | params =>
      right
      refine ⟨⟨_, _, rfl⟩, ?_⟩
      rw [hlapse.params]
      exact hadmissible row hrow
  | resolve => exact .inl (sameAt_merge hadmissible)
  | claim => exact .inl (sameAt_merge hadmissible)
  | _ => exact .inl (.refl _ _)

theorem rowStep_sameBinding (h : RowStep op id row row') (hadmissible : Admissible env op q)
    (hrow : q.get? id = some row) : SameAt bindingKeys row.params row'.params := by
  obtain hsame | ⟨_, hsame⟩ := rowStep_sameAt h hadmissible hrow
  · exact hsame.mono bindingKeys_subset
  · exact hsame

/-! ### What every access keeps -/

theorem accesses_later (h : ReflTransGen (Access env s) q q') (hrow : q.get? id = some row) :
    ∃ row', q'.get? id = some row' ∧ Later row row' := by
  induction h with
  | refl => exact ⟨row, hrow, .refl row⟩
  | tail _ haccess ih =>
      obtain ⟨row', hrow', hlater⟩ := ih
      obtain ⟨op, hadmissible, rfl⟩ := haccess
      obtain ⟨row'', hrow'', hstep⟩ := perform_row s op hrow'
      exact ⟨row'', hrow'', hlater.trans (hstep.later (not_reopen_of_admissible hadmissible id))⟩

def Sound (env : Runtime) (q : Queue) : Prop :=
  ∀ id row, q.get? id = some row → row.WellFormed ∧ WellBound env row.space row.params

theorem WellBound.of_sameAt {space : String} {params params' : Dict}
    (h : WellBound env space params) (hsame : SameAt bindingKeys params params') :
    WellBound env space params' := by
  intro hspace hkind
  rw [hsame "approvalKind" (by decide)] at hkind
  obtain ⟨action, sessionKey, hbound⟩ := h hspace hkind
  refine ⟨action, sessionKey, ?_, ?_, ?_⟩
  · rw [hsame "action" (by decide)]
    exact hbound.payload
  · rw [hsame "fingerprint" (by decide)]
    exact hbound.fingerprint
  · rw [hsame "sessionKey" (by decide)]
    exact hbound.sessionKey

theorem Sound.access (h : Sound env q) (haccess : Access env s q q') : Sound env q' := by
  obtain ⟨op, hadmissible, rfl⟩ := haccess
  intro id row' hrow'
  cases hrow : q.get? id with
  | none =>
      obtain ⟨hfresh, space, params, drawn, rfl, hparams, hspace⟩ := perform_new hrow hrow'
      rw [hparams, hspace]
      exact ⟨hfresh.wellFormed, hadmissible⟩
  | some row =>
      obtain ⟨row'', hrow'', hstep⟩ := perform_row s op hrow
      have hsame : row' = row'' := Option.some.inj (hrow'.symm.trans hrow'')
      rw [hsame, hstep.space]
      obtain ⟨hwell, hbound⟩ := h id row hrow
      exact ⟨hstep.wellFormed hwell, hbound.of_sameAt (rowStep_sameBinding hstep hadmissible hrow)⟩

theorem Sound.accesses (h : Sound env q) (haccesses : ReflTransGen (Access env s) q q') :
    Sound env q' := by
  induction haccesses with
  | refl => exact h
  | tail _ haccess ih => exact ih.access haccess

theorem sound_empty : Sound env Table.empty := fun _ _ h => absurd h (by simp)

/-! ### What the gate's accesses keep -/

theorem GateAccess.access (h : GateAccess env s q q') : Access env s q q' := by
  obtain ⟨op, _, hadmissible, hq'⟩ := h
  exact ⟨op, hadmissible, hq'⟩

theorem accesses_of_gate (h : ReflTransGen (GateAccess env s) q q') :
    ReflTransGen (Access env s) q q' :=
  ReflTransGen.mono (fun _ _ haccess => GateAccess.access haccess) _ _ h

theorem approved_before_gate (h : ReflTransGen (GateAccess env s) q q')
    (hrow' : q'.get? id = some row') (happroved : row'.approved = true) :
    ∃ row, q.get? id = some row ∧ row.approved = true := by
  induction h generalizing row' with
  | refl => exact ⟨row', hrow', happroved⟩
  | @tail middle _ _ haccess ih =>
      obtain ⟨op, hop, _, rfl⟩ := haccess
      cases hrow : middle.get? id with
      | none =>
          have hunapproved := (perform_new hrow hrow').1.unapproved
          exact absurd (hunapproved.symm.trans happroved) (by simp)
      | some row =>
          obtain ⟨row'', hrow'', hstep⟩ := perform_row s op hrow
          have hsame : row' = row'' := Option.some.inj (hrow'.symm.trans hrow'')
          rw [hsame] at happroved
          apply ih hrow
          by_contra hunapproved
          rw [Bool.not_eq_true] at hunapproved
          obtain ⟨_, _, _, rfl⟩ | ⟨_, rfl, _⟩ := hstep.approves hunapproved happroved
          · exact absurd hop (by simp [isAccess])
          · exact absurd hop (by simp [isAccess])

end Rows

end OpenStarry.Elevation
