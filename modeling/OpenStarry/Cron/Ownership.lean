import OpenStarry.Cron.Store

/-!
# One execution at a time

An execution in progress owns the row: the row carries its token, so no reservation succeeds. A
lifecycle call that writes back what it read before the reservation takes the token away again. The
runs in which every such write finds its token unchanged by an execution in progress are safe.
-/

namespace OpenStarry.Cron

open Lib

def State.InProgress (s : State) (token : String) : Prop :=
  ∃ phase, s.executions token = some phase ∧ phase.inProgress = true

def SoleExecution (s : State) : Prop :=
  s.deleted = false → ∀ token, s.InProgress token →
    (∃ job, s.row = some job ∧ job.reservationToken = token ∧
      ∀ now requireDue, ¬ Reservable job now requireDue) ∧
    ∀ other, s.InProgress other → other = token

def CarriesTokens (s : State) (job : CronJob) : Prop :=
  s.deleted = false → ∀ token, s.InProgress token → job.reservationToken = token

/-- What a lifecycle call writes back was read under the token of the execution in progress, and a
run that has applied its result does not release while another one is in progress. -/
def WritesBackOwn (s : State) : Action → Prop
  | .writeBack index => ∀ call job, s.calls[index]? = some (call, job) → call ≠ .remove →
      CarriesTokens s job
  | .write token => ∀ now job, s.executions token = some (.cleaning now job) →
      s.deleted = false → ∀ other, ¬ s.InProgress other
  | _ => True

/-! ### What the operations do to the token -/

theorem pauseJob_token (job : CronJob) (now : Time) :
    (pauseJob job now).reservationToken = job.reservationToken := rfl

theorem resumeJob_token {scan : CronScan} {job job' : CronJob} {now : Time}
    (h : resumeJob scan job now = .ok job') : job'.reservationToken = job.reservationToken := by
  unfold resumeJob at h
  dsimp only at h
  split_ifs at h
  · rw [← pure_eq_ok.mp h]
  · rw [← pure_eq_ok.mp h]
  · obtain ⟨next, -, hnext⟩ := bind_eq_ok.mp h
    rw [← pure_eq_ok.mp hnext]

theorem LifecycleCall.write_token {scan : CronScan} {call : LifecycleCall} {job : CronJob}
    {write : StoreWrite} (h : call.write scan job = some write) :
    (call = .remove ∧ write = .delete) ∨
      (call ≠ .remove ∧
        ∃ job', write = .save job' ∧ job'.reservationToken = job.reservationToken) := by
  cases call with
  | pause now =>
      obtain rfl := Option.some.inj h
      exact .inr ⟨by simp, _, rfl, pauseJob_token job now⟩
  | resume now =>
      obtain ⟨job', hjob', rfl⟩ := Option.map_eq_some_iff.mp h
      exact .inr ⟨by simp, _, rfl, resumeJob_token (toOption_eq_some.mp hjob')⟩
  | update patch now =>
      obtain ⟨job', hjob', rfl⟩ := Option.map_eq_some_iff.mp h
      exact .inr ⟨by simp, _, rfl, (updateJob_keeps (toOption_eq_some.mp hjob')).2⟩
  | remove => exact .inl ⟨rfl, (Option.some.inj h).symm⟩

/-! ### The invariant -/

/-- Tokens are not empty, and while the job exists the row carries the token of every execution in
progress. -/
structure Owned (s : State) : Prop where
  token : ∀ token, s.InProgress token → token ≠ ""
  row : s.deleted = false → ∀ token, s.InProgress token →
    ∃ job, s.row = some job ∧ job.reservationToken = token

namespace Owned

variable {s s' : State} {token : String} {phase : Phase}

theorem init (h : Initial s) : Owned s := by
  have hidle : ∀ token, ¬ s.InProgress token := by
    rintro token ⟨phase, hphase, -⟩
    rw [h.2.1 token] at hphase
    simp at hphase
  exact ⟨fun token htoken => absurd htoken (hidle token),
    fun _ token htoken => absurd htoken (hidle token)⟩

theorem sole (h : Owned s) (hdeleted : s.deleted = false) {other : String}
    (htoken : s.InProgress token) (hother : s.InProgress other) : other = token := by
  obtain ⟨job, hrow, hjob⟩ := h.row hdeleted token htoken
  obtain ⟨job', hrow', hjob'⟩ := h.row hdeleted other hother
  rw [hrow, Option.some.injEq] at hrow'
  rw [← hjob', ← hjob, hrow']

theorem shrink (h : Owned s) (hrow : s'.row = s.row) (hdeleted : s'.deleted = s.deleted)
    (hprogress : ∀ token, s'.InProgress token → s.InProgress token) : Owned s' := by
  refine ⟨fun token htoken => h.token token (hprogress token htoken), fun hnot token htoken => ?_⟩
  rw [hrow]
  exact h.row (hdeleted ▸ hnot) token (hprogress token htoken)

theorem settled (h : s'.deleted = false → ∀ token, ¬ s'.InProgress token)
    (htoken : ∀ token, s'.InProgress token → token ≠ "") : Owned s' :=
  ⟨htoken, fun hdeleted token hprogress => absurd hprogress (h hdeleted token)⟩

theorem inProgress_setPhase {other : String} :
    (s.setPhase token phase).InProgress other ↔
      if other = token then phase.inProgress = true else s.InProgress other := by
  unfold State.InProgress State.setPhase
  split_ifs with heq
  · subst heq
    simp
  · simp [Function.update_of_ne heq]

theorem setPhase (h : Owned s) (hphase : phase.inProgress = true → s.InProgress token) :
    Owned (s.setPhase token phase) := by
  refine h.shrink rfl rfl fun other hother => ?_
  rw [inProgress_setPhase] at hother
  split_ifs at hother with heq
  · exact heq ▸ hphase hother
  · exact hother

theorem inProgress_store {write : StoreWrite} :
    (s.store write).InProgress token ↔ s.InProgress token := by
  cases write <;> exact Iff.rfl

theorem stepReserve (h : Owned s) {now : Time} {requireDue : Bool} {owner source : String}
    (hstep : stepReserve s token now requireDue owner source = some s') : Owned s' := by
  unfold Cron.stepReserve at hstep
  split_ifs at hstep with hfresh
  split at hstep
  · simp at hstep
  · rename_i job hrow
    split_ifs at hstep with hreservable
    obtain rfl := Option.some.inj hstep
    have hne : token ≠ "" := fun hempty => hfresh (.inl hempty)
    -- the row carries no token, so nothing is in progress
    have hidle : s.deleted = false → ∀ other, ¬ s.InProgress other := by
      intro hdeleted other hother
      obtain ⟨job', hrow', htoken⟩ := h.row hdeleted other hother
      rw [hrow, Option.some.injEq] at hrow'
      rw [← hrow', hreservable.2.2.1] at htoken
      exact h.token other hother htoken.symm
    refine ⟨fun other hother => ?_, fun hdeleted other hother => ?_⟩
    · rw [inProgress_setPhase] at hother
      split_ifs at hother with heq
      · exact heq ▸ hne
      · exact h.token other hother
    · rw [inProgress_setPhase] at hother
      split_ifs at hother with heq
      · exact ⟨_, rfl, heq.symm⟩
      · exact absurd hother (hidle hdeleted other)

theorem stepStart (h : Owned s) (hstep : stepStart s token = some s') : Owned s' := by
  unfold Cron.stepStart at hstep
  split at hstep
  · rename_i hphase
    obtain rfl := Option.some.inj hstep
    exact h.setPhase fun _ => ⟨.reserved, hphase, rfl⟩
  · simp at hstep

theorem stepRead (h : Owned s) {op : ReservedOp} (hstep : stepRead s token op = some s') :
    Owned s' := by
  have hclaim : s.InProgress token → ∀ phase, some (s.setPhase token phase) = some s' →
      Owned s' := by
    intro hprogress phase hresult
    obtain rfl := Option.some.inj hresult
    exact h.setPhase fun _ => hprogress
  unfold Cron.stepRead at hstep
  split at hstep
  · rename_i hphase
    split at hstep
    · exact hclaim ⟨_, hphase, rfl⟩ _ hstep
    · exact hclaim ⟨_, hphase, rfl⟩ _ hstep
  · rename_i hphase
    split at hstep
    · exact hclaim ⟨_, hphase, rfl⟩ _ hstep
    · exact hclaim ⟨_, hphase, rfl⟩ _ hstep
  · rename_i hphase
    split at hstep
    · exact hclaim ⟨_, hphase, rfl⟩ _ hstep
    · exact hclaim ⟨_, hphase, rfl⟩ _ hstep
  · split at hstep
    · obtain rfl := Option.some.inj hstep
      exact h.setPhase fun hprogress => absurd hprogress (by simp [Phase.inProgress])
    · obtain rfl := Option.some.inj hstep
      exact h
  · simp at hstep

theorem stepWrite {scan : CronScan} (h : Owned s) (hguard : WritesBackOwn s (.write token))
    (hstep : stepWrite scan s token = some s') : Owned s' := by
  have hother : ∀ write other, ((s.store write).setPhase token .finished).InProgress other →
      s.InProgress other ∧ other ≠ token := by
    intro write other hprogress
    rw [inProgress_setPhase] at hprogress
    split_ifs at hprogress with heq
    · simp [Phase.inProgress] at hprogress
    · exact ⟨inProgress_store.mp hprogress, heq⟩
  have hdeleted : ∀ write, ((s.store write).setPhase token .finished).deleted = false →
      s.deleted = false := by
    intro write hnot
    cases write with
    | delete => simp [State.store, State.setPhase] at hnot
    | save job => exact hnot
  unfold Cron.stepWrite at hstep
  split at hstep
  · rename_i op job hphase
    obtain rfl := Option.some.inj hstep
    refine settled (fun hnot other hprogress => ?_) fun other hprogress =>
      h.token other (hother _ other hprogress).1
    obtain ⟨hprogress, hne⟩ := hother _ other hprogress
    exact hne (h.sole (hdeleted _ hnot) ⟨_, hphase, rfl⟩ hprogress)
  · rename_i now job hphase
    obtain rfl := Option.some.inj hstep
    refine settled (fun hnot other hprogress => ?_) fun other hprogress =>
      h.token other (hother _ other hprogress).1
    exact hguard now job hphase (hdeleted _ hnot) other (hother _ other hprogress).1
  · simp at hstep

theorem stepCancel (h : Owned s) (hstep : stepCancel s token = some s') : Owned s' := by
  unfold Cron.stepCancel at hstep
  split at hstep
  · rename_i hphase
    obtain rfl := Option.some.inj hstep
    exact h.setPhase fun _ => ⟨_, hphase, rfl⟩
  · rename_i op job hphase
    split_ifs at hstep
    obtain rfl := Option.some.inj hstep
    exact h.setPhase fun _ => ⟨_, hphase, rfl⟩
  · simp at hstep

theorem stepCall (h : Owned s) (call : LifecycleCall) : Owned (stepCall s call) := by
  unfold Cron.stepCall
  split
  · exact h
  · exact h.shrink rfl rfl fun _ => id

theorem stepWriteBack {scan : CronScan} (h : Owned s) {index : Nat}
    (hguard : WritesBackOwn s (.writeBack index))
    (hstep : stepWriteBack scan s index = some s') : Owned s' := by
  unfold Cron.stepWriteBack at hstep
  split at hstep
  · simp at hstep
  · rename_i call job hcall
    dsimp only at hstep
    split at hstep
    · obtain rfl := Option.some.inj hstep
      exact h.shrink rfl rfl fun _ => id
    · rename_i write hwrite
      obtain rfl := Option.some.inj hstep
      rcases LifecycleCall.write_token hwrite with ⟨-, rfl⟩ | ⟨hcallne, job', rfl, htoken⟩
      · exact settled (fun hnot => by simp [State.store] at hnot) h.token
      · refine ⟨h.token, fun hdeleted token hprogress => ⟨job', rfl, ?_⟩⟩
        rw [htoken]
        exact hguard call job hcall hcallne hdeleted token hprogress

theorem step {scan : CronScan} {a : Action} (h : Owned s) (hguard : WritesBackOwn s a)
    (hstep : step scan s a = some s') : Owned s' := by
  cases a with
  | reserve token now requireDue owner source => exact h.stepReserve hstep
  | start token => exact h.stepStart hstep
  | read token op => exact h.stepRead hstep
  | write token => exact h.stepWrite hguard hstep
  | cancel token => exact h.stepCancel hstep
  | call call =>
      obtain rfl := Option.some.inj hstep
      exact h.stepCall call
  | writeBack index => exact h.stepWriteBack hguard hstep

theorem soleExecution (h : Owned s) : SoleExecution s := by
  intro hdeleted token htoken
  obtain ⟨job, hrow, hjob⟩ := h.row hdeleted token htoken
  refine ⟨⟨job, hrow, hjob, fun now requireDue hreservable => ?_⟩,
    fun other hother => h.sole hdeleted htoken hother⟩
  exact h.token token htoken (hjob.symm.trans hreservable.2.2.1)

end Owned

theorem sole_execution_of_writesBackOwn {scan : CronScan} {s : State}
    (h : Reach Initial (step scan) WritesBackOwn s) : SoleExecution s :=
  (h.invariant (fun _ => Owned.init) fun _ _ _ hinv hguard hstep =>
    hinv.step hguard hstep).soleExecution

/-! ### A pause that was read before the reservation -/

def minuteJob : CronJob := { scheduleKind := .every, cronExpr := "60".toList, nextRunAt := some 0 }

def idleState (job : CronJob) : State :=
  { row := some job, deleted := false, executions := fun _ => none, calls := [] }

theorem initial_idleState (job : CronJob) : Initial (idleState job) := ⟨rfl, fun _ => rfl, rfl⟩

def afterActions (actions : List Action) : State :=
  (runActions (step noScan) actions (idleState minuteJob)).getD (idleState minuteJob)

theorem reach_afterActions {guard : State → Action → Prop} {actions : List Action} {a : Action}
    (h : Reach Initial (step noScan) guard (afterActions actions))
    (hguard : guard (afterActions actions) a)
    (hrun : (runActions (step noScan) actions (idleState minuteJob)).isSome)
    (hstep : (step noScan (afterActions actions) a).isSome) :
    Reach Initial (step noScan) guard (afterActions (actions ++ [a])) := by
  obtain ⟨s, hs⟩ := Option.isSome_iff_exists.mp hrun
  have hafter : afterActions actions = s := by rw [afterActions, hs, Option.getD_some]
  obtain ⟨s', hs'⟩ := Option.isSome_iff_exists.mp hstep
  refine h.next hguard ?_
  rw [hs', afterActions, runActions_append, hs, Option.bind_some, runActions_cons, ← hafter, hs']
  rfl

/-- The pause reads the row after the reservation and keeps its token. -/
theorem sole_execution_pausedRun :
    SoleExecution (afterActions [.reserve "a" 1 true "scheduler-timer" "timer",
      .call (.pause 2), .writeBack 0]) := by
  refine @sole_execution_of_writesBackOwn noScan _ ?_
  have hstart : Reach Initial (step noScan) WritesBackOwn (afterActions []) :=
    .start (initial_idleState minuteJob)
  have hreserve := reach_afterActions hstart
    (a := .reserve "a" 1 true "scheduler-timer" "timer") trivial rfl (by decide)
  have hcall := reach_afterActions hreserve (a := .call (.pause 2)) trivial (by decide) rfl
  refine reach_afterActions hcall (a := .writeBack 0) ?_ (by decide) (by decide)
  rintro call job hcalled - - token ⟨phase, hphase, -⟩
  have hcall : (call, job) = (.pause 2, reserveRow minuteJob "a" 1 "scheduler-timer" "timer") :=
    (Option.some.inj hcalled).symm
  have hexecutions : Function.update (fun _ => none) "a" (some .reserved) token = some phase :=
    hphase
  rw [(Prod.mk.inj hcall).2]
  by_contra hne
  have htoken : token ≠ "a" := fun heq => hne heq.symm
  rw [Function.update_of_ne htoken] at hexecutions
  simp at hexecutions

/-- The pause has read the row before the reservation; after it and a resume, the job is reserved
again while the first execution is in progress. -/
theorem stale_pause_reserves_twice :
    ¬ ∀ s, Reach Initial (step noScan) anyStep s → SoleExecution s := by
  intro hsole
  let actions : List Action := [.call (.pause 1), .reserve "a" 2 true "scheduler-timer" "timer",
    .writeBack 0, .call (.resume 3), .writeBack 0, .reserve "b" 4 false "scheduler-manual" "manual"]
  have hrun : runActions (guardedStep (step noScan) anyStep) actions (idleState minuteJob) =
      some (afterActions actions) := rfl
  have hreach : Reach Initial (step noScan) anyStep (afterActions actions) :=
    Reach.actions (.start (initial_idleState minuteJob)) hrun
  have hfirst : (afterActions actions).InProgress "a" := ⟨.reserved, by decide, rfl⟩
  have hsecond : (afterActions actions).InProgress "b" := ⟨.reserved, by decide, rfl⟩
  exact absurd ((hsole _ hreach rfl "a" hfirst).2 "b" hsecond) (by decide)

end OpenStarry.Cron
