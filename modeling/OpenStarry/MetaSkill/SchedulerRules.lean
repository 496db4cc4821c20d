import OpenStarry.MetaSkill.SchedulerInvariant

/-!
# Proving an invariant of the scheduler

`Preserved` lists what is to be shown of an invariant, one obligation for each kind of update, and
`Preserved.run` concludes that every state of every run has it. The agreement of the tables is
available in each obligation.
-/

namespace OpenStarry.MetaSkill

open OpenStarry.Lib

/-- An update of the queue, of what was yielded or of how the loop stands. Only a loop that stops
drops a task from the running table. -/
structure Quiet (s s' : State) : Prop where
  outputs : s'.outputs = s.outputs
  succeeded : s'.succeeded = s.succeeded
  failed : s'.failed = s.failed
  recovered : s'.recovered = s.recovered
  skipped : s'.skipped = s.skipped
  pendingDeps : s'.pendingDeps = s.pendingDeps
  substituteOnly : s'.substituteOnly = s.substituteOnly
  unstarted : s'.unstarted = s.unstarted
  failoverAliases : s'.failoverAliases = s.failoverAliases
  phase : s'.phase = s.phase
  dispatched : s'.dispatched = s.dispatched
  returned : s'.returned = s.returned
  runningSubset : s'.running ⊆ s.running
  looping : s'.loop = .looping → s.loop = .looping ∧ s'.running = s.running

theorem Quiet.of_yielded {s s' : State} (queue : List (String × QueueItem))
    (yielded : List Yielded) (seenStarts : Finset String)
    (h : s' = { s with queue := queue, yielded := yielded, seenStarts := seenStarts }) :
    Quiet s s' := by
  subst h
  exact ⟨rfl, rfl, rfl, rfl, rfl, rfl, rfl, rfl, rfl, rfl, rfl, rfl, Finset.Subset.refl _,
    fun hloop => ⟨hloop, rfl⟩⟩

theorem Quiet.trans {s t u : State} (h : Quiet s t) (h' : Quiet t u) : Quiet s u :=
  ⟨h'.outputs.trans h.outputs, h'.succeeded.trans h.succeeded, h'.failed.trans h.failed,
    h'.recovered.trans h.recovered, h'.skipped.trans h.skipped, h'.pendingDeps.trans h.pendingDeps,
    h'.substituteOnly.trans h.substituteOnly, h'.unstarted.trans h.unstarted,
    h'.failoverAliases.trans h.failoverAliases, h'.phase.trans h.phase,
    h'.dispatched.trans h.dispatched, h'.returned.trans h.returned,
    h'.runningSubset.trans h.runningSubset, fun hloop =>
      ⟨(h.looping (h'.looping hloop).1).1,
        (h'.looping hloop).2.trans (h.looping (h'.looping hloop).1).2⟩⟩

theorem quiet_tail (s : State) (rest : List (String × QueueItem)) :
    Quiet s { s with queue := rest } := .of_yielded rest s.yielded s.seenStarts rfl

theorem quiet_yield (s : State) (events : List AgentEvent) : Quiet s (s.yield events) :=
  .of_yielded s.queue _ s.seenStarts rfl

theorem quiet_drain (s : State) : Quiet s (drainQueue s) :=
  .of_yielded _ _ _ (drainQueue_eq s)

theorem Quiet.of_stopped {s s' : State} (loop : Loop) (yielded : List Yielded)
    (seenStarts running : Finset String) (hrunning : running ⊆ s.running) (hloop : loop ≠ .looping)
    (h : s' = { s with
      loop := loop, yielded := yielded, seenStarts := seenStarts, running := running }) :
    Quiet s s' := by
  subst h
  exact ⟨rfl, rfl, rfl, rfl, rfl, rfl, rfl, rfl, rfl, rfl, rfl, rfl, hrunning,
    fun hlooping => absurd hlooping hloop⟩

theorem quiet_finish (s : State) (result : MetaResult) : Quiet s (s.finish result) :=
  .of_stopped (.ended result) _ s.seenStarts s.running (Finset.Subset.refl _) (by simp) rfl

/-- A failover is allowed to the substitutes that `allowed` holds of. -/
structure Preserved (cfg : Config) (allowed : String → Prop) (I : State → Prop) : Prop where
  init : I (initialState cfg cfg.steps)
  task : ∀ {s s' sid a}, Tables cfg s → I s → TaskMove cfg.steps s sid a s' →
    TaskEffect cfg.steps s sid s' → I s'
  spawn : ∀ {s sid}, Tables cfg s → I s → sid ∈ s.unstarted → s.pendingDeps sid = ∅ →
    capReached cfg.maxParallelism s.running = false → I (s.spawn sid)
  stepDone : ∀ {s s' sid text status mirrored released}, Tables cfg s → I s →
    s.phase sid = .finished → sid ∈ s.running → ItemSound cfg.steps s sid (.stepDone text status) →
    DoneEffect cfg.steps sid text status s mirrored released s' → I s'
  failover : ∀ {s s' st}, Tables cfg s → I s → allowed st.onFailure → FailoverEffect cfg.steps st s s' → I s'
  quiet : ∀ {s s'}, I s → Quiet s s' → I s'

namespace Preserved

variable {cfg : Config} {allowed : String → Prop} {I : State → Prop} {s s' : State}

theorem spawned (h : Preserved cfg allowed I) (ht : Tables cfg s) (hI : I s)
    {order : List String} (hnodup : order.Nodup) (horder : order.toFinset = s.unstarted) :
    I (spawnReady cfg.maxParallelism order s) :=
  (spawnReady_preserves (P := fun s => Tables cfg s ∧ I s)
    (fun _ _ hs hsid hready hcap => ⟨hs.1.spawn hsid, h.spawn hs.1 hs.2 hsid hready hcap⟩)
    hnodup (mem_of_order horder) ⟨ht, hI⟩).2

theorem starts (h : Preserved cfg allowed I) (hwf : WellFormed cfg.steps) (hs : Starts cfg s) :
    I s := by
  have ht := initialState_tables hwf
  rcases starts_cases hs with ⟨events, result, rfl, -⟩ | ⟨-, order, t, hnodup, horder, rfl, hs⟩
  · exact h.quiet (h.quiet h.init (quiet_yield _ _)) (quiet_finish _ _)
  · have hspawned := h.spawned (ht.yield _) (h.quiet h.init (quiet_yield _
      (openingEvents cfg cfg.steps))) hnodup horder
    rcases hs with ⟨-, rfl⟩ | ⟨-, rfl⟩
    · exact h.quiet (h.quiet hspawned (quiet_yield _ _)) (quiet_finish _ _)
    · exact hspawned

theorem loopMove (h : Preserved cfg allowed I) (hwf : WellFormed cfg.steps) (ht : Tables cfg s)
    (hI : I s) {deliverable : String} {a : Action}
    (hallowed : ∀ order sid failedId substituteId error rest, a = .handle order →
      s.queue = (sid, .failoverTriggered failedId substituteId error) :: rest →
        allowed substituteId)
    (hmove : LoopMove cfg.steps cfg.maxParallelism deliverable s a s') : I s' := by
  cases hmove with
  | showEvent order sid ev rest hloop hqueue =>
      exact h.quiet hI (.of_yielded rest _ _ rfl)
  | stepDone order sid text status rest hloop hqueue hnodup horder =>
      obtain ⟨hfinished, hrunning, hsound, hlast⟩ := ht.head hqueue rfl
      obtain ⟨mirrored, released, he⟩ := onStepDone_effect cfg.steps sid text status
        { s with queue := rest }
      have htail := ht.tail hqueue
      have hsound' : ItemSound cfg.steps { s with queue := rest } sid (.stepDone text status) := by
        cases status <;> exact hsound
      exact h.spawned (htail.stepDone hwf he hfinished hrunning hlast)
        (h.stepDone htail (h.quiet hI (quiet_tail s rest)) hfinished hrunning hsound' he)
        hnodup horder
  | failover order sid failedId substituteId error rest hloop hqueue hnodup horder =>
      obtain ⟨-, hrunning, ⟨rfl, hfailed, st, hst, rfl, rfl, hsub⟩, hlast⟩ := ht.head hqueue rfl
      have htail := ht.tail hqueue
      have he := htail.failover_effect hwf hst hsub hfailed hrunning
      exact h.spawned (htail.failover hwf he hlast)
        (h.failover htail (h.quiet hI (quiet_tail s rest)) (hallowed order _ _ _ _ _ rfl hqueue) he)
        hnodup horder
  | paused order sid stepId rest hloop hqueue =>
      refine h.quiet (h.quiet hI (quiet_tail s rest)) ?_
      exact .of_stopped .pausing _ _ _ (Finset.Subset.refl _) (by simp) rfl
  | exception order sid error rest hloop hqueue =>
      refine h.quiet (h.quiet hI (quiet_tail s rest)) ?_
      exact .of_stopped (.failing sid error) _ _ _ (Finset.erase_subset _ _) (by simp) rfl
  | conclude hloop hrunning hqueue =>
      exact h.quiet (h.quiet hI (quiet_yield _ _)) (quiet_finish _ _)
  | drain failedStepId error hloop hdone =>
      exact h.quiet (h.quiet (h.quiet hI (quiet_drain s)) (quiet_yield _ _)) (quiet_finish _ _)
  | endPause hloop hdone =>
      exact h.quiet (h.quiet hI (quiet_yield _ _)) (quiet_finish _ _)

theorem run (h : Preserved cfg allowed I) (hwf : WellFormed cfg.steps)
    {guard : State → Action → Prop}
    (hguard : ∀ s order sid failedId substituteId error rest, guard s (.handle order) →
      s.queue = (sid, .failoverTriggered failedId substituteId error) :: rest →
        allowed substituteId)
    (hrun : RunsTo cfg guard s) : I s := by
  refine hrun.strengthen (fun _ => run_tables hwf) (fun _ => h.starts hwf) ?_
  intro s a s' ht hI hmeets hstep
  rcases step_move hstep with ⟨sid, hmove⟩ | hmove
  · exact h.task ht hI hmove (hmove.effect ht.failedFinished)
  · refine h.loopMove hwf ht hI ?_ hmove
    intro order sid failedId substituteId error rest ha hqueue
    exact hguard s order sid failedId substituteId error rest (ha ▸ hmeets) hqueue

theorem run_any (h : Preserved cfg (fun _ => True) I) (hwf : WellFormed cfg.steps)
    {guard : State → Action → Prop} (hrun : RunsTo cfg guard s) : I s :=
  h.run hwf (fun _ _ _ _ _ _ _ _ _ => trivial) hrun

end Preserved

/-! ### Runs given by their actions -/

/-- A launch and a list of actions that evaluate to a state with `P` give a run to such a state. -/
theorem exists_run {cfg : Config} {guard : State → Action → Prop}
    [∀ s a, Decidable (guard s a)] (horder : topologicalOrder cfg.plan.steps = .ok cfg.steps)
    (order : List String) (actions : List Action) {P : State → Bool}
    (h : ((launch cfg cfg.steps order).bind
      (runActions (guardedStep cfg.step guard) actions)).any P = true) :
    ∃ s, RunsTo cfg guard s ∧ P s = true := by
  obtain ⟨s, hs, hP⟩ := Option.any_eq_true _ _ |>.mp h
  obtain ⟨first, hfirst, hrun⟩ := Option.bind_eq_some_iff.mp hs
  refine ⟨s, Reach.actions (.start ?_) hrun, hP⟩
  rw [Starts, horder]
  exact ⟨order, hfirst⟩

end OpenStarry.MetaSkill
