import OpenStarry.Elevation.Gate
import OpenStarry.Lib.Outcome

/-!
# Every grant is one approval

A call of the gate that is allowed consumes an approval: one that was approved before, for this very
action, from this session when the call has one, and by a person when a person has to. No approval
is consumed twice.
-/

namespace OpenStarry.Elevation

open Lib Text Approval Relation

variable {env : Runtime} {s : Settings} {q : Queue} {call : GateCall}

/-! ### The gate as accesses to the queue -/

/-- The reply leaves what the gate's accesses lead to from `q`. -/
def Reached (env : Runtime) (s : Settings) (q : Queue) {α : Type} (reply : Reply α) : Prop :=
  ReflTransGen (GateAccess env s) q reply.1

theorem reached_self {α : Type} {result : Except QueueError α} : Reached env s q (q, result) :=
  ReflTransGen.refl

theorem Reached.andThen {α β : Type} {reply : Reply α} {next : α → Queue → Reply β}
    (h : Reached env s q reply)
    (hnext : ∀ a, reply.2 = .ok a → Reached env s reply.1 (next a reply.1)) :
    Reached env s q (andThen reply next) := by
  unfold Elevation.andThen
  cases hreply : reply.2 with
  | error e => exact h
  | ok a => exact ReflTransGen.trans h (hnext a hreply)

theorem reached_get {id : String} {now : Time} : Reached env s q (get s id now q) :=
  ReflTransGen.single ⟨.get now id, rfl, trivial, rfl⟩

theorem reached_consume {id : String} {clock : Nat → Time} :
    Reached env s q (consume s clock id q) :=
  ReflTransGen.single ⟨.consume clock id, rfl, trivial, rfl⟩

theorem get_foldl_new {metadata params : Dict} {key : String} (hkey : params.has key = true) :
    Dict.get (metadata.foldl (fun params field =>
      if (params.lookup field.1).isSome then params else params ++ [field]) params) key =
        params.get key := by
  induction metadata generalizing params with
  | nil => rfl
  | cons field rest ih =>
      rw [List.foldl_cons]
      split_ifs with hfield
      · exact ih hkey
      · rw [Dict.has, Option.isSome_iff_exists] at hkey
        obtain ⟨value, hvalue⟩ := hkey
        have hstay : (params ++ [field]).lookup key.toList = some value := by
          rw [List.lookup_append, hvalue, Option.some_or]
        rw [ih (by rw [Dict.has, hstay]; rfl), Dict.get, Dict.get, hstay, hvalue]

theorem wellBound_requestParams {action : ElevationAction} {sessionKey : Option Str}
    {reviewer : Reviewer} {metadata : Dict} :
    WellBound env "exec" (requestParams env action sessionKey reviewer metadata) := by
  intro _ _
  refine ⟨action, sessionKey.getD [], ?_, ?_, ?_⟩
  all_goals exact get_foldl_new rfl

theorem sameAt_humanConfirmation (params : Dict) :
    SameAt bindingKeys params (params.merge humanConfirmation) :=
  sameAt_merge (by decide)

theorem reusePending_reached {clock : Nat → Nat → Time} {id : String} {reviewer : Reviewer} :
    Reached env s q (reusePending s clock id reviewer q) := by
  unfold reusePending
  split
  · apply reached_get.andThen
    intro entry hentry
    split
    · apply Reached.andThen
      · refine ReflTransGen.single ⟨.updateParams (clock 2) id _, rfl, ?_, rfl⟩
        intro row hrow
        rw [get_snd hentry, Option.some.injEq] at hrow
        rw [← hrow]
        exact sameAt_humanConfirmation entry.params
      · intro _ _
        exact reached_self
    · exact reached_self
  · exact reached_self

theorem requestElevation_reached {clock : Nat → Nat → Time} {drawn : List (String × Time)}
    {action : ElevationAction} {sessionKey : Option Str} {reviewer : Reviewer} {metadata : Dict}
    {channel : Option ChannelContext} :
    Reached env s q
      (requestElevation env s clock drawn action sessionKey reviewer metadata channel q) := by
  unfold requestElevation
  split
  · exact reached_self
  split
  · exact reached_self
  cases channelElevationMetadata channel sessionKey metadata with
  | error denial => exact reached_self
  | ok routed =>
      have hlisted : GateAccess env s q (releaseStaleClaims s (clock 0 0) q) :=
        ⟨.listPending "exec" (clock 0 0), rfl, trivial, rfl⟩
      simp only
      split
      · exact ReflTransGen.head hlisted reusePending_reached
      · refine ReflTransGen.head hlisted (ReflTransGen.single ?_)
        exact ⟨.request "exec" _ drawn, rfl, wellBound_requestParams, rfl⟩

theorem consumeApprovedElevation_reached {clock : Nat → Nat → Time} {id : String}
    {action : ElevationAction} {sessionKey : Option Str} {reviewer : Option Reviewer}
    {senderId : Option Str} :
    Reached env s q
      (consumeApprovedElevation env s clock id action sessionKey reviewer senderId q) := by
  apply reached_get.andThen
  intro entry _
  cases bindingMismatch env entry action sessionKey reviewer senderId with
  | some mismatch => exact reached_self
  | none =>
      simp only
      split
      · exact reached_self
      split
      · exact reached_self
      apply reached_consume.andThen
      intro _ _
      exact reached_self

theorem consumeOrAsk_reached {id : String} {sender : Str}
    {again : Queue → Reply ElevationGateResult} (hagain : ∀ q, Reached env s q (again q)) :
    Reached env s q (consumeOrAsk env s call id sender again q) := by
  have htried : Reached env s q (andThen (consumeApprovedElevation env s call.clock id call.action
      call.sessionKey (some (call.effectiveReviewer env)) (if sender = [] then none else some sender)
      q) fun consumed q =>
        if consumed.status = "approval_reviewer_mismatch" then again q else (q, .ok consumed)) := by
    apply consumeApprovedElevation_reached.andThen
    intro consumed _
    by_cases hmismatch : consumed.status = "approval_reviewer_mismatch"
    · rw [if_pos hmismatch]
      exact hagain _
    · rw [if_neg hmismatch]
      exact reached_self
  unfold consumeOrAsk
  simp only
  split
  · exact htried
  · exact htried

theorem gateElevatedAction_reached : Reached env s q (gateElevatedAction env s call q) := by
  unfold gateElevatedAction
  split
  · exact reached_self
  split
  · exact reached_self
  split
  · exact reached_self
  cases channelElevationMetadata call.channel call.sessionKey call.metadata with
  | error denial => exact reached_self
  | ok routed =>
      simp only
      cases call.approvalId.filter (· ≠ "") with
      | none => exact requestElevation_reached
      | some id => exact consumeOrAsk_reached fun _ => requestElevation_reached

/-! ### When a call is allowed -/

theorem andThen_eq_ok {α β : Type} {reply : Reply α} {next : α → Queue → Reply β} {b : β} :
    (andThen reply next).2 = .ok b ↔
      ∃ a, reply.2 = .ok a ∧ (next a reply.1).2 = .ok b := by
  unfold andThen
  cases reply.2 <;> simp

theorem andThen_fst {α β : Type} {reply : Reply α} {next : α → Queue → Reply β} {a : α}
    (h : reply.2 = .ok a) : andThen reply next = next a reply.1 := by
  unfold andThen
  rw [h]

def AllowsNothing (reply : Reply ElevationGateResult) : Prop :=
  ∀ result, reply.2 = .ok result → result.allowed = false

theorem allowsNothing_of_eq {reply : Reply ElevationGateResult} {answer : ElevationGateResult}
    (h : reply.2 = .ok answer) (hanswer : answer.allowed = false) : AllowsNothing reply := by
  intro result hresult
  rw [h, Except.ok.injEq] at hresult
  rw [← hresult]
  exact hanswer

theorem channelElevationMetadata_denial {channel : Option ChannelContext} {sessionKey : Option Str}
    {metadata : Dict} {denial : ElevationGateResult}
    (h : channelElevationMetadata channel sessionKey metadata = .error denial) :
    denial.allowed = false := by
  unfold channelElevationMetadata at h
  cases channel with
  | none => exact absurd h (by simp)
  | some ctx =>
      simp only at h
      cases hidentity : channelAdminApprovalIdentity ctx with
      | none =>
          rw [hidentity] at h
          rw [← Except.error.inj h]
      | some identity =>
          rw [hidentity] at h
          simp only at h
          split_ifs at h
          rw [← Except.error.inj h]

theorem requestElevation_allowsNothing {clock : Nat → Nat → Time} {drawn : List (String × Time)}
    {action : ElevationAction} {sessionKey : Option Str} {reviewer : Reviewer} {metadata : Dict}
    {channel : Option ChannelContext} : AllowsNothing
      (requestElevation env s clock drawn action sessionKey reviewer metadata channel q) := by
  unfold requestElevation
  split
  · exact fun _ h => absurd h (by simp)
  split
  · exact fun _ h => absurd h (by simp)
  cases hrouted : channelElevationMetadata channel sessionKey metadata with
  | error denial => exact allowsNothing_of_eq rfl (channelElevationMetadata_denial hrouted)
  | ok routed =>
      simp only
      split
      · intro result hresult
        unfold reusePending at hresult
        simp only at hresult
        split at hresult
        · rw [andThen_eq_ok] at hresult
          obtain ⟨entry, _, hresult⟩ := hresult
          split at hresult
          · rw [andThen_eq_ok] at hresult
            obtain ⟨_, _, hresult⟩ := hresult
            rw [← Except.ok.inj hresult]
          · rw [← Except.ok.inj hresult]
        · rw [← Except.ok.inj hresult]
      · exact allowsNothing_of_eq rfl rfl

/-- The row that a call which is allowed consumes. -/
structure Fits (env : Runtime) (call : GateCall) (row : PendingApproval) : Prop where
  space : row.space = "exec"
  kind : row.params.get "approvalKind" = elevationKind
  fingerprint : env.textOr (row.params.get "fingerprint") = call.action.fingerprint env.sha256
  session : ∀ key, call.sessionKey = some key → env.textOr (row.params.get "sessionKey") = key
  human : call.effectiveReviewer env = .user → row.params.get "humanActionable" = .bool true

theorem fits_of_bindingMismatch {row : PendingApproval} {sender : Option Str}
    (h : bindingMismatch env row call.action call.sessionKey
      (some (call.effectiveReviewer env)) sender = none) : Fits env call row := by
  unfold bindingMismatch at h
  split_ifs at h with hkind hfingerprint hsession hreviewer hsender
  rw [not_or, not_not, not_not] at hkind
  refine ⟨hkind.1, hkind.2, not_not.mp hfingerprint, ?_, ?_⟩
  · intro key hkey
    rw [hkey] at hsession
    simpa using hsession
  · intro huser
    rw [huser] at hreviewer
    simp only [Option.any_some, decide_true, Bool.true_and, Bool.or_eq_true, decide_eq_true_eq,
      not_or, not_not] at hreviewer
    exact hreviewer.2

theorem consumeApprovedElevation_ok {clock : Nat → Nat → Time} {id : String}
    {action : ElevationAction} {sessionKey : Option Str} {reviewer : Option Reviewer}
    {sender : Option Str} {consumed : ElevationGateResult}
    (h : (consumeApprovedElevation env s clock id action sessionKey reviewer sender q).2 =
      .ok consumed) :
    consumed.allowed = false ∨
      consumed = ⟨true, true, "approved", some id, none⟩ ∧
        ∃ entry, (get s id (clock 0 0) q).2 = .ok entry ∧
          bindingMismatch env entry action sessionKey reviewer sender = none ∧
          (consume s (clock 1) id (get s id (clock 0 0) q).1).2 = .ok () ∧
          (consumeApprovedElevation env s clock id action sessionKey reviewer sender q).1 =
            (consume s (clock 1) id (get s id (clock 0 0) q).1).1 := by
  unfold consumeApprovedElevation at h ⊢
  rw [andThen_eq_ok] at h
  obtain ⟨entry, hentry, h⟩ := h
  rw [andThen_fst hentry]
  cases hmismatch : bindingMismatch env entry action sessionKey reviewer sender with
  | some mismatch =>
      rw [hmismatch] at h
      rw [← Except.ok.inj h]
      exact .inl rfl
  | none =>
      rw [hmismatch] at h
      simp only at h ⊢
      split at h
      case isTrue =>
        rw [← Except.ok.inj h]
        exact .inl rfl
      rename_i hresolved
      rw [if_neg hresolved]
      split at h
      case isTrue =>
        rw [← Except.ok.inj h]
        exact .inl rfl
      rename_i happroved
      rw [if_neg happroved]
      rw [andThen_eq_ok] at h
      obtain ⟨⟨⟩, hconsume, h⟩ := h
      rw [andThen_fst hconsume]
      exact .inr ⟨(Except.ok.inj h).symm, entry, hentry, hmismatch, hconsume, rfl⟩

theorem consumeOrAsk_allowed {id : String} {sender : Str}
    {again : Queue → Reply ElevationGateResult} {result : ElevationGateResult}
    (hagain : ∀ q, AllowsNothing (again q))
    (hresult : (consumeOrAsk env s call id sender again q).2 = .ok result)
    (hallowed : result.allowed = true) :
    result.approvalId = some id ∧
      ∃ entry, (get s id (call.clock 0 0) q).2 = .ok entry ∧ Fits env call entry ∧
        (consume s (call.clock 1) id (get s id (call.clock 0 0) q).1).2 = .ok () ∧
        (consumeOrAsk env s call id sender again q).1 =
          (consume s (call.clock 1) id (get s id (call.clock 0 0) q).1).1 := by
  unfold consumeOrAsk at hresult ⊢
  simp only at hresult ⊢
  split at hresult
  case h_2 =>
    rw [← Except.ok.inj hresult] at hallowed
    exact absurd hallowed (by simp [refuse])
  case h_1 answer hanswer =>
    rw [andThen_eq_ok] at hanswer
    obtain ⟨consumed, hconsumed, hnext⟩ := hanswer
    rw [Except.ok.inj hresult] at hnext
    by_cases hmismatch : consumed.status = "approval_reviewer_mismatch"
    · rw [if_pos hmismatch] at hnext
      exact absurd ((hagain _ result hnext).symm.trans hallowed) (by simp)
    · rw [if_neg hmismatch] at hnext
      have hsame : consumed = result := Except.ok.inj hnext
      obtain hrefused | ⟨happroved, entry, hentry, hfits, hconsume, hqueue⟩ :=
        consumeApprovedElevation_ok hconsumed
      · rw [hsame] at hrefused
        exact absurd (hrefused.symm.trans hallowed) (by simp)
      · rw [← hsame, happroved]
        refine ⟨rfl, entry, hentry, fits_of_bindingMismatch hfits, hconsume, ?_⟩
        rw [andThen_fst hconsumed, if_neg hmismatch]
        exact hqueue

theorem gateElevatedAction_allowed {result : ElevationGateResult}
    (hfull : call.fullHostAccess = false)
    (hresult : (gateElevatedAction env s call q).2 = .ok result) (hallowed : result.allowed = true) :
    ∃ id row, call.approvalId = some id ∧ result.approvalId = some id ∧
      q.get? id = some row ∧ row.Settled ∧ row.approved = true ∧ row.consumed = false ∧
      Fits env call row ∧
      ∃ row', (gateElevatedAction env s call q).1.get? id = some row' ∧ row'.Spent := by
  have hnothing {reply : Reply ElevationGateResult} (h : AllowsNothing reply)
      (hreply : reply.2 = .ok result) {P : Prop} : P :=
    absurd ((h result hreply).symm.trans hallowed) (by simp)
  unfold gateElevatedAction at hresult ⊢
  rw [hfull] at hresult ⊢
  simp only [Bool.false_eq_true, if_false] at hresult ⊢
  split at hresult
  case isTrue => exact hnothing (allowsNothing_of_eq rfl rfl) hresult
  rename_i hintent
  rw [if_neg hintent]
  split at hresult
  case isTrue => exact hnothing (allowsNothing_of_eq rfl rfl) hresult
  rename_i hprofile
  rw [if_neg hprofile]
  cases hrouted : channelElevationMetadata call.channel call.sessionKey call.metadata with
  | error denial =>
      rw [hrouted] at hresult
      exact hnothing (allowsNothing_of_eq rfl (channelElevationMetadata_denial hrouted)) hresult
  | ok routed =>
      rw [hrouted] at hresult
      simp only at hresult ⊢
      cases hid : call.approvalId.filter (· ≠ "") with
      | none =>
          rw [hid] at hresult
          exact hnothing requestElevation_allowsNothing hresult
      | some id =>
          rw [hid] at hresult
          simp only at hresult ⊢
          have hcall : call.approvalId = some id := (Option.filter_eq_some_iff.mp hid).1
          obtain ⟨hid', entry, hentry, hfits, hconsume, hqueue⟩ := consumeOrAsk_allowed
            (fun _ => requestElevation_allowsNothing) hresult hallowed
          obtain ⟨row, hrow, hsettled, happroved, hunconsumed, hrow'⟩ :=
            consume_isOk (by rw [hconsume]; rfl)
          have hsame : entry = row := Option.some.inj ((get_snd hentry).symm.trans hrow)
          rw [get_fst] at hrow
          obtain ⟨row₀, hrow₀, hlapse⟩ := releaseStaleClaims_get? hrow
          have hsame₀ : row = row₀ := hlapse.eq_of_resolved hsettled.resolved
          rw [← hsame₀] at hrow₀
          rw [hsame] at hfits
          refine ⟨id, row, hcall, hid', hrow₀, hsettled, happroved, hunconsumed, hfits, ?_⟩
          rw [hqueue]
          exact ⟨_, hrow', ⟨⟨hsettled.resolved, hsettled.unclaimed⟩, rfl⟩⟩

/-! ### Runs of calls and reviews -/

/-- A call of the gate, or an operation of a review. -/
inductive Event where
  | gate (call : GateCall)
  | review (op : Operation)

def Event.step (env : Runtime) (s : Settings) : Event → Queue → Queue
  | gate call, q => (gateElevatedAction env s call q).1
  | review op, q => (perform s op q).1

def runEvents (env : Runtime) (s : Settings) : List Event → Queue → Queue
  | [], q => q
  | event :: rest, q => runEvents env s rest (event.step env s q)

def Event.Admitted (env : Runtime) (event : Event) (q : Queue) : Prop :=
  match event with
  | gate _ => True
  | review op => Admissible env op q

def Reviewed (env : Runtime) (s : Settings) : List Event → Queue → Prop
  | [], _ => True
  | event :: rest, q => event.Admitted env q ∧ Reviewed env s rest (event.step env s q)

def granted (env : Runtime) (s : Settings) (event : Event) (q : Queue) : Option String :=
  match event with
  | .review _ => none
  | .gate call =>
      if call.fullHostAccess then none
      else match (gateElevatedAction env s call q).2 with
        | .error _ => none
        | .ok result => if result.allowed then result.approvalId else none

def grants (env : Runtime) (s : Settings) : List Event → Queue → List String
  | [], _ => []
  | event :: rest, q => (granted env s event q).toList ++ grants env s rest (event.step env s q)

section Runs

variable {event : Event} {id : String} {row row' : PendingApproval}

theorem runEvents_concat (past : List Event) :
    runEvents env s (past ++ [event]) q = event.step env s (runEvents env s past q) := by
  induction past generalizing q with
  | nil => rfl
  | cons first rest ih => exact ih

theorem reviewed_concat {past : List Event} : Reviewed env s (past ++ [event]) q ↔
    Reviewed env s past q ∧ event.Admitted env (runEvents env s past q) := by
  induction past generalizing q with
  | nil => simp [Reviewed, runEvents]
  | cons first rest ih =>
      rw [List.cons_append, Reviewed, Reviewed, ih, and_assoc]
      rfl

theorem step_accesses (h : event.Admitted env q) :
    ReflTransGen (Access env s) q (event.step env s q) := by
  cases event with
  | gate call => exact accesses_of_gate gateElevatedAction_reached
  | review op => exact ReflTransGen.single ⟨op, h, rfl⟩

theorem run_sound {past : List Event} (hpast : Reviewed env s past Table.empty) :
    Sound env (runEvents env s past Table.empty) := by
  induction past using List.reverseRecOn with
  | nil => exact sound_empty
  | append_singleton past event ih =>
      rw [reviewed_concat] at hpast
      rw [runEvents_concat]
      exact (ih hpast.1).accesses (step_accesses hpast.2)

def Approves (op : Operation) (id : String) : Prop :=
  (∃ clock idempotent metadata, op = .resolve clock id true idempotent metadata) ∨
    ∃ token, op = .finalizeClaimedResolution id token true

theorem approval_origin {past : List Event} (hpast : Reviewed env s past Table.empty)
    (hrow : (runEvents env s past Table.empty).get? id = some row)
    (happroved : row.approved = true) :
    ∃ before op after, past = before ++ .review op :: after ∧ Approves op id ∧
      ∃ row₀, (runEvents env s before Table.empty).get? id = some row₀ ∧ row₀.approved = false ∧
        SameAt decisionKeys row₀.params row.params := by
  induction past using List.reverseRecOn generalizing row with
  | nil => exact absurd hrow (by simp [runEvents])
  | append_singleton past event ih =>
      rw [reviewed_concat] at hpast
      obtain ⟨hpast, hadmitted⟩ := hpast
      have hearlier {row₁ : PendingApproval}
          (hrow₁ : (runEvents env s past Table.empty).get? id = some row₁)
          (happroved₁ : row₁.approved = true) :
          ∃ before op after, past ++ [event] = before ++ .review op :: after ∧ Approves op id ∧
            ∃ row₀, (runEvents env s before Table.empty).get? id = some row₀ ∧
              row₀.approved = false ∧ SameAt decisionKeys row₀.params row.params := by
        obtain ⟨before, op, after, hsplit, hop, row₀, hrow₀, hunapproved, hsame⟩ :=
          ih hpast hrow₁ happroved₁
        refine ⟨before, op, after ++ [event], by rw [hsplit]; simp, hop, row₀, hrow₀, hunapproved, ?_⟩
        have hresolved := (run_sound hpast id row₁ hrow₁).1.resolved_of_approved happroved₁
        obtain ⟨row₂, hrow₂, hlater⟩ := accesses_later (step_accesses hadmitted) hrow₁
        rw [runEvents_concat, hrow₂, Option.some.injEq] at hrow
        rw [← hrow, hlater.params hresolved]
        exact hsame
      cases event with
      | gate call =>
          rw [runEvents_concat] at hrow
          obtain ⟨row₁, hrow₁, happroved₁⟩ :=
            approved_before_gate gateElevatedAction_reached hrow happroved
          exact hearlier hrow₁ happroved₁
      | review op =>
          have hstepped := hrow
          rw [runEvents_concat] at hstepped
          cases hrow₁ : (runEvents env s past Table.empty).get? id with
          | none =>
              have hunapproved := (perform_new hrow₁ hstepped).1.unapproved
              exact absurd (hunapproved.symm.trans happroved) (by simp)
          | some row₁ =>
              cases happroved₁ : row₁.approved with
              | true => exact hearlier hrow₁ happroved₁
              | false =>
                  obtain ⟨row₂, hrow₂, hstep⟩ := perform_row s op hrow₁
                  have heq : row = row₂ := Option.some.inj (hstepped.symm.trans hrow₂)
                  rw [← heq] at hstep
                  have hop : Approves op id := by
                    obtain hresolve | ⟨token, hfinal, _⟩ := hstep.approves happroved₁ happroved
                    · exact .inl hresolve
                    · exact .inr ⟨token, hfinal⟩
                  refine ⟨past, op, [], rfl, hop, row₁, hrow₁, happroved₁, ?_⟩
                  obtain hsame | ⟨⟨clock, params, hupdate⟩, _⟩ :=
                    rowStep_sameAt hstep hadmitted hrow₁
                  · exact hsame
                  · rw [hupdate] at hop
                    obtain ⟨_, _, _, hcontra⟩ | ⟨_, hcontra⟩ := hop
                    · exact absurd hcontra (by simp)
                    · exact absurd hcontra (by simp)

theorem granted_spends (h : granted env s event q = some id) :
    (∃ row, q.get? id = some row ∧ row.consumed = false) ∧
      ∃ row', (event.step env s q).get? id = some row' ∧ row'.Spent := by
  cases event with
  | review op => exact absurd h (by simp [granted])
  | gate call =>
      unfold granted at h
      simp only at h
      split_ifs at h with hfull
      rw [Bool.not_eq_true] at hfull
      cases hresult : (gateElevatedAction env s call q).2 with
      | error e =>
          rw [hresult] at h
          exact absurd h (by simp)
      | ok result =>
          rw [hresult] at h
          simp only at h
          split_ifs at h with hallowed
          obtain ⟨id', row, _, hid', hrow, _, _, hunconsumed, _, hspent⟩ :=
            gateElevatedAction_allowed hfull hresult hallowed
          have hsame : id' = id := Option.some.inj (hid'.symm.trans h)
          rw [hsame] at hrow hspent
          exact ⟨⟨row, hrow, hunconsumed⟩, hspent⟩

theorem not_mem_grants_of_spent {events : List Event} (hevents : Reviewed env s events q)
    (hrow : q.get? id = some row) (hspent : row.Spent) : id ∉ grants env s events q := by
  induction events generalizing q row with
  | nil => exact List.not_mem_nil
  | cons event rest ih =>
      obtain ⟨hadmitted, hrest⟩ := hevents
      rw [grants, List.mem_append, not_or]
      constructor
      · rw [Option.mem_toList]
        intro hgranted
        obtain ⟨⟨row', hrow', hunconsumed⟩, _⟩ := granted_spends hgranted
        rw [hrow, Option.some.injEq] at hrow'
        rw [← hrow', hspent.consumed] at hunconsumed
        exact absurd hunconsumed (by simp)
      · obtain ⟨row', hrow', hlater⟩ := accesses_later (step_accesses hadmitted) hrow
        exact ih hrest hrow' (hlater.spent hspent)

theorem grants_nodup {events : List Event} (hevents : Reviewed env s events q) :
    (grants env s events q).Nodup := by
  induction events generalizing q with
  | nil => exact List.nodup_nil
  | cons event rest ih =>
      obtain ⟨hadmitted, hrest⟩ := hevents
      rw [grants]
      cases hgranted : granted env s event q with
      | none => exact ih hrest
      | some id =>
          rw [Option.toList_some, List.singleton_append, List.nodup_cons]
          obtain ⟨_, row, hrow, hspent⟩ := granted_spends hgranted
          exact ⟨not_mem_grants_of_spent hrest hrow hspent, ih hrest⟩

end Runs

theorem textOr_str (text : Str) : env.textOr (.str text) = text := by
  unfold Runtime.textOr
  cases text with
  | nil => rfl
  | cons c rest => rfl

/-- A call behind a reviewed run that is allowed outside full host access has consumed an approval
given by a review to this action, from this session when the call has one, and by a person when the
user reviews; and over the whole run no approval is granted twice. -/
theorem gate_grants_once (env : Runtime) (s : Settings) (hsha : Function.Injective env.sha256)
    (past : List Event) (hpast : Reviewed env s past Table.empty) :
    (∀ call result, call.fullHostAccess = false →
      (gateElevatedAction env s call (runEvents env s past Table.empty)).2 = .ok result →
      result.allowed = true →
      ∃ id before op after row, result.approvalId = some id ∧
        past = before ++ .review op :: after ∧ Approves op id ∧
        (runEvents env s before Table.empty).get? id = some row ∧ row.approved = false ∧
        row.params.get "action" = .obj call.action.canonicalPayload ∧
        (∀ key, call.sessionKey = some key → row.params.get "sessionKey" = .str key) ∧
        (call.effectiveReviewer env = .user → row.params.get "humanActionable" = .bool true)) ∧
      (grants env s past Table.empty).Nodup := by
  refine ⟨?_, grants_nodup hpast⟩
  intro call result hfull hresult hallowed
  obtain ⟨id, row, _, hid, hrow, hsettled, happroved, _, hfits, _⟩ :=
    gateElevatedAction_allowed hfull hresult hallowed
  obtain ⟨before, op, after, hsplit, hop, row₀, hrow₀, hunapproved, hsame⟩ :=
    approval_origin hpast hrow happroved
  obtain ⟨action, sessionKey, hbound⟩ :=
    (run_sound hpast id row hrow).2 hfits.space hfits.kind
  have haction : action = call.action := by
    have hfingerprint := hfits.fingerprint
    rw [hbound.fingerprint, textOr_str] at hfingerprint
    exact ElevationAction.fingerprint_injective hsha hfingerprint
  refine ⟨id, before, op, after, row₀, hid, hsplit, hop, hrow₀, hunapproved, ?_, ?_, ?_⟩
  · rw [← hsame "action" (by decide), hbound.payload, haction]
  · intro key hkey
    have hsession := hfits.session key hkey
    rw [hbound.sessionKey, textOr_str] at hsession
    rw [← hsame "sessionKey" (by decide), hbound.sessionKey, hsession]
  · intro huser
    rw [← hsame "humanActionable" (by decide)]
    exact hfits.human huser

/-! ### A call without a session -/

def plainRuntime : Runtime := ⟨id, id, fun _ => []⟩

def plainSettings : Settings := .create none 60

def touchProbe : ElevationAction where
  toolName := "exec_command".toList
  actionKind := "shell.exec".toList
  argv := ["touch".toList, "probe".toList]
  cwd := "/work".toList
  sandboxPermissions := .requireEscalated
  justification := "create the probe".toList

/-- Session `a` asks for the action, and a person approves it. -/
def approvedForSession : List Event :=
  [.gate { action := touchProbe, approvalId := none, sessionKey := some "a".toList
           reviewer := some .user, drawn := [("a1", 0)] },
    .review (.resolve (fun _ => 1) "a1" true true
      [("resolutionSource".toList, .str "user_web".toList)])]

def callFrom (sessionKey : Option Str) : GateCall :=
  { action := touchProbe, approvalId := some "a1", sessionKey := sessionKey, reviewer := some .user }

theorem approvedForSession_reviewed :
    Reviewed plainRuntime plainSettings approvedForSession Table.empty := by
  refine ⟨trivial, ?_, trivial⟩
  show ∀ key ∈ decisionKeys, key.toList ∉ ["resolutionSource".toList]
  decide

theorem gate_grants_once_session :
    ∃ id before op after row,
      approvedForSession = before ++ .review op :: after ∧ Approves op id ∧
        (runEvents plainRuntime plainSettings before Table.empty).get? id = some row ∧
        row.params.get "action" = .obj touchProbe.canonicalPayload ∧
        row.params.get "sessionKey" = .str "a".toList := by
  have hgrants := (gate_grants_once plainRuntime plainSettings (fun _ _ h => h) approvedForSession
    approvedForSession_reviewed).1 (callFrom (some "a".toList))
  have hallowed : ((gateElevatedAction plainRuntime plainSettings (callFrom (some "a".toList))
      (runEvents plainRuntime plainSettings approvedForSession Table.empty)).2.toOption.map
        ElevationGateResult.allowed) = some true := by decide +kernel
  rw [Option.map_eq_some_iff] at hallowed
  obtain ⟨result, hresult, hallowed⟩ := hallowed
  obtain ⟨id, before, op, after, row, _, hsplit, hop, hrow, _, haction, hsession, _⟩ :=
    hgrants result rfl (toOption_eq_some.mp hresult) hallowed
  exact ⟨id, before, op, after, row, hsplit, hop, hrow, haction, hsession _ rfl⟩

/-- A call without a session is allowed with the approval of session `a`, the only one there is. -/
theorem sessionless_call_granted :
    Function.Injective plainRuntime.sha256 ∧
      Reviewed plainRuntime plainSettings approvedForSession Table.empty ∧
      (callFrom none).fullHostAccess = false ∧
      ((gateElevatedAction plainRuntime plainSettings (callFrom none)
        (runEvents plainRuntime plainSettings approvedForSession Table.empty)).2.toOption.map
          fun result => (result.allowed, result.approvalId)) = some (true, some "a1") ∧
      ∀ row ∈ (runEvents plainRuntime plainSettings approvedForSession Table.empty).entries,
        row.2.params.get "sessionKey" ≠ .str ((callFrom none).sessionKey.getD []) := by
  refine ⟨fun _ _ h => h, approvedForSession_reviewed, rfl, ?_, ?_⟩
  · decide +kernel
  · decide +kernel

end OpenStarry.Elevation
