import OpenStarry.Lib.Keyed
import OpenStarry.MetaSkill.SchedulerMoves

/-!
# The scheduler's tables

`Tables` relates the sets the main loop edits (`unstarted`, `running`, `substitute_only`, the
failover aliases) to where the step tasks stand and to what they left on the queue. It holds of
every state of every run, whatever the seeds. Three updates carry it: what a task does
(`TaskEffect`), a single start, and the two branches of the loop that resolve dependencies.
-/

namespace OpenStarry.MetaSkill

open OpenStarry.Lib

/-- What the scheduler relies on of the ordered steps of an accepted plan. -/
structure WellFormed (steps : List MetaStep) : Prop where
  idsNodup : (steps.map (·.id)).Nodup
  idNonempty : ∀ st ∈ steps, st.id ≠ ""
  depsDefined : ∀ st ∈ steps, ∀ dep ∈ st.dependsOn, ∃ t ∈ steps, t.id = dep
  substitute : ∀ st ∈ steps, st.onFailure ≠ "" →
    ∃ t ∈ steps, t.id = st.onFailure ∧ t.onFailure = "" ∧ t.dependsOn = []
  primaryUnique : ∀ st ∈ steps, ∀ t ∈ steps, st.onFailure ≠ "" → st.onFailure = t.onFailure →
    st = t

namespace WellFormed

variable {steps : List MetaStep}

theorem eq_of_id (h : WellFormed steps) {st t : MetaStep} (hst : st ∈ steps) (ht : t ∈ steps)
    (hid : st.id = t.id) : st = t :=
  List.inj_on_of_nodup_map h.idsNodup hst ht hid

theorem substitute_plain (h : WellFormed steps) {st t : MetaStep} (hst : st ∈ steps)
    (ht : t ∈ steps) (hsub : st.onFailure = t.id) : t.onFailure = "" ∧ t.dependsOn = [] := by
  have hne : st.onFailure ≠ "" := hsub ▸ h.idNonempty t ht
  obtain ⟨t', ht', hid, hplain⟩ := h.substitute st hst hne
  exact h.eq_of_id ht' ht (hid.trans hsub) ▸ hplain

theorem stepById_eq (h : WellFormed steps) {st : MetaStep} (hst : st ∈ steps) :
    stepById steps st.id = some st := stepById_of_mem h.idsNodup hst

end WellFormed

theorem Accepted.wellFormed_of_order {steps ordered : List MetaStep} (h : Accepted steps)
    (hordered : topologicalOrder steps = .ok ordered) : WellFormed ordered := by
  have hmem : ∀ st, st ∈ ordered ↔ st ∈ steps := fun _ => h.topologicalOrder_mem hordered
  refine ⟨?_, fun st hst => h.idNonempty st ((hmem st).mp hst), fun st hst dep hdep => ?_,
    fun st hst hne => ?_, fun st hst t ht => h.primaryUnique st ((hmem st).mp hst) t
      ((hmem t).mp ht)⟩
  · obtain ⟨order, horder⟩ := h.acyclic
    rw [topologicalOrder, horder] at hordered
    rw [(orderSteps_ok hordered).1]
    exact (staticOrder_perm horder).nodup_iff.mpr (nodup_eraseDups _)
  · obtain ⟨t, ht, hid⟩ := h.depsDefined st ((hmem st).mp hst) dep hdep
    exact ⟨t, (hmem t).mpr ht, hid⟩
  · obtain ⟨-, t, ht, hplain⟩ := h.substitute st ((hmem st).mp hst) hne
    exact ⟨t, (hmem t).mpr ht, hplain⟩

theorem Accepted.wellFormed {cfg : Config} (h : Accepted cfg.plan.steps) :
    WellFormed cfg.steps := by
  unfold Config.steps
  split
  · rename_i steps hordered
    exact h.wellFormed_of_order hordered
  · constructor <;> simp

theorem Accepted.topologicalOrder_eq {cfg : Config} (h : Accepted cfg.plan.steps) :
    topologicalOrder cfg.plan.steps = .ok cfg.steps := by
  obtain ⟨ordered, hordered⟩ := h.topologicalOrder_ok
  simp [Config.steps, hordered]

theorem Accepted.mem_steps {cfg : Config} (h : Accepted cfg.plan.steps) {st : MetaStep} :
    st ∈ cfg.steps ↔ st ∈ cfg.plan.steps :=
  h.topologicalOrder_mem h.topologicalOrder_eq

/-! ### What a task can do -/

def QueueItem.terminal : QueueItem → Bool
  | .event _ => false
  | _ => true

/-- What a terminal item on the queue says about the step that put it. -/
def ItemSound (steps : List MetaStep) (s : State) (sid : String) : QueueItem → Prop
  | .event _ => True
  | .stepDone text .ok =>
      s.outputs sid = some text ∧ s.returned sid = some text ∧ sid ∉ s.failed
  | .stepDone text .skipped =>
      s.outputs sid = some text ∧ text = "" ∧ sid ∉ s.failed ∧
        ∃ st ∈ steps, st.id = sid ∧ st.when ≠ ""
  | .failoverTriggered failedId substituteId _ =>
      failedId = sid ∧ sid ∈ s.failed ∧
        ∃ st ∈ steps, st.id = sid ∧ st.onFailure = substituteId ∧ substituteId ≠ ""
  | .paused stepId => stepId = sid
  | .exception _ => sid ∈ s.failed ∧ ∃ st ∈ steps, st.id = sid ∧ st.onFailure = ""

/-- What a move of the task of `sid` changes, and what it leaves alone. -/
structure TaskEffect (steps : List MetaStep) (s : State) (sid : String) (s' : State) : Prop where
  notIdle : s.phase sid ≠ .idle
  notFinished : s.phase sid ≠ .finished
  phase : ∃ ph, ph ≠ .idle ∧ s'.phase = Function.update s.phase sid ph
  queue : ∃ (events : List AgentEvent) (last : Option QueueItem),
    s'.queue = s.queue ++ events.map (fun ev => (sid, .event ev)) ++
        last.toList.map (fun item => (sid, item)) ∧
      ∀ item ∈ last, item.terminal = true ∧ s'.phase sid = .finished ∧ ItemSound steps s' sid item
  outputs : ∀ id, id ≠ sid → s'.outputs id = s.outputs id
  outputsKept : ∀ id, (s.outputs id).isSome → (s'.outputs id).isSome
  returned : ∀ id, id ≠ sid → s'.returned id = s.returned id
  entry : s'.outputs sid = s.outputs sid ∧ s'.returned sid = s.returned sid ∨
    (∃ text, s'.outputs sid = some text ∧ s'.returned sid = some text) ∨
    s'.outputs sid = some "" ∧ ∃ st ∈ steps, st.id = sid ∧ st.when ≠ ""
  failedKept : s.failed ⊆ s'.failed
  failedNew : ∀ id ∈ s'.failed, id ∈ s.failed ∨ id = sid ∧ s'.phase sid = .finished
  running : s'.running = s.running
  unstarted : s'.unstarted = s.unstarted
  substituteOnly : s'.substituteOnly = s.substituteOnly
  failoverAliases : s'.failoverAliases = s.failoverAliases
  pendingDeps : s'.pendingDeps = s.pendingDeps
  succeeded : s'.succeeded = s.succeeded
  recovered : s'.recovered = s.recovered
  skipped : s'.skipped = s.skipped
  loop : s'.loop = s.loop

section

variable {steps : List MetaStep} {s : State} {sid : String}

theorem TaskEffect.ofEvents {s' : State} (hidle : s.phase sid ≠ .idle)
    (hfinished : s.phase sid ≠ .finished) (ph : Phase) (events : List AgentEvent)
    (hph : ph ≠ .idle) (hs' : s' = (s.setPhase sid ph).put sid (events.map .event)) :
    TaskEffect steps s sid s' := by
  subst hs'
  refine ⟨hidle, hfinished, ⟨ph, hph, rfl⟩, ⟨events, none, ?_, by simp⟩, fun _ _ => rfl,
    fun _ h => h, fun _ _ => rfl, .inl ⟨rfl, rfl⟩, Finset.Subset.refl _, fun _ h => .inl h, rfl, rfl, rfl, rfl, rfl,
    rfl, rfl, rfl, rfl⟩
  simp [State.put, State.setPhase]

theorem skipTask_effect {st : MetaStep} (hmem : st ∈ steps) (hwhen : st.when ≠ "")
    (hidle : s.phase st.id ≠ .idle) (hfinished : s.phase st.id ≠ .finished)
    (hfailed : st.id ∉ s.failed) : TaskEffect steps s st.id (skipTask s st.id) := by
  refine ⟨hidle, hfinished, ⟨.finished, by simp, rfl⟩, ⟨[startEvent st.id,
    resultEvent st.id "skipped: condition evaluated false" false, .stepState st.id .skipped],
    some (.stepDone "" .skipped), ?_, ?_⟩, fun id hid => ?_, fun id h => ?_, fun _ _ => rfl,
    .inr (.inr ⟨by simp [skipTask], st, hmem, rfl, hwhen⟩), Finset.Subset.refl _, fun _ h => .inl h, rfl, rfl, rfl, rfl, rfl, rfl, rfl, rfl, rfl⟩
  · simp [skipTask, State.put, State.setPhase]
  · simp only [Option.mem_def, Option.some.injEq, forall_eq']
    refine ⟨rfl, ?_, ?_, rfl, hfailed, st, hmem, rfl, hwhen⟩ <;>
      simp [skipTask, State.put, State.setPhase]
  · simp [skipTask, State.put, State.setPhase, hid]
  · by_cases hid : id = st.id <;> simp [skipTask, State.put, State.setPhase, hid, h]

theorem finishTask_effect {text : String} (hidle : s.phase sid ≠ .idle)
    (hfinished : s.phase sid ≠ .finished) (hfailed : sid ∉ s.failed) :
    TaskEffect steps s sid (finishTask s sid text) := by
  refine ⟨hidle, hfinished, ⟨.finished, by simp, rfl⟩,
    ⟨[resultEvent sid (outputPreview text) false, .stepState sid .succeeded],
    some (.stepDone text .ok), ?_, ?_⟩, fun id hid => ?_, fun id h => ?_, fun id hid => ?_,
    .inr (.inl ⟨text, by simp [finishTask], by simp [finishTask]⟩), Finset.Subset.refl _, fun _ h => .inl h, rfl, rfl, rfl, rfl, rfl, rfl, rfl, rfl, rfl⟩
  · simp [finishTask, State.put, State.setPhase]
  · simp only [Option.mem_def, Option.some.injEq, forall_eq']
    refine ⟨rfl, ?_, ?_, ?_, hfailed⟩ <;> simp [finishTask, State.put, State.setPhase]
  · simp [finishTask, State.put, State.setPhase, hid]
  · by_cases hid : id = sid <;> simp [finishTask, State.put, State.setPhase, hid, h]
  · simp [finishTask, State.put, State.setPhase, hid]

theorem failTask_effect {st : MetaStep} {error : String} (hmem : st ∈ steps)
    (hidle : s.phase st.id ≠ .idle) (hfinished : s.phase st.id ≠ .finished) :
    TaskEffect steps s st.id (failTask s st error) := by
  have hphase : (failTask s st error).phase st.id = .finished := by
    simp [failTask, State.put, State.setPhase]
  have hfailed : st.id ∈ (failTask s st error).failed := Finset.mem_insert_self _ _
  refine ⟨hidle, hfinished, ⟨.finished, by simp, rfl⟩,
    ⟨[resultEvent st.id (publicStepError error) true, .stepState st.id .failed],
    some (if st.onFailure ≠ "" then .failoverTriggered st.id st.onFailure error
      else .exception error), ?_, ?_⟩, fun _ _ => rfl, fun _ h => h, fun _ _ => rfl,
    .inl ⟨rfl, rfl⟩, Finset.subset_insert _ _, fun id hid => ?_, rfl, rfl, rfl, rfl, rfl, rfl, rfl, rfl, rfl⟩
  · simp [failTask, State.put, State.setPhase]
  · simp only [Option.mem_def, Option.some.injEq, forall_eq']
    split_ifs with hsub
    · exact ⟨rfl, hphase, rfl, hfailed, st, hmem, rfl, rfl, hsub⟩
    · exact ⟨rfl, hphase, hfailed, st, hmem, rfl, not_not.mp hsub⟩
  · rcases Finset.mem_insert.mp hid with rfl | hid
    · exact .inr ⟨rfl, hphase⟩
    · exact .inl hid

theorem pauseTask_effect (hidle : s.phase sid ≠ .idle) (hfinished : s.phase sid ≠ .finished) :
    TaskEffect steps s sid (pauseTask s sid) := by
  refine ⟨hidle, hfinished, ⟨.finished, by simp, rfl⟩, ⟨[], some (.paused sid), ?_, ?_⟩,
    fun _ _ => rfl, fun _ h => h, fun _ _ => rfl, .inl ⟨rfl, rfl⟩, Finset.Subset.refl _,
    fun _ h => .inl h, rfl, rfl, rfl, rfl, rfl, rfl, rfl, rfl, rfl⟩
  · simp [pauseTask, State.put, State.setPhase]
  · simp only [Option.mem_def, Option.some.injEq, forall_eq']
    exact ⟨rfl, by simp [pauseTask, State.put, State.setPhase], rfl⟩

theorem TaskMove.effect {s' : State} {a : Action} (h : TaskMove steps s sid a s')
    (hfailed : ∀ id ∈ s.failed, s.phase id = .finished) : TaskEffect steps s sid s' := by
  have hfresh : s.phase sid ≠ .finished → sid ∉ s.failed := fun hne hmem => hne (hfailed sid hmem)
  cases h with
  | openCard st hmem hloop hphase =>
      exact .ofEvents (by simp [hphase]) (by simp [hphase]) .opened
        [.stepState st.id .running, startEvent st.id] (by simp) rfl
  | skip st hmem hloop hphase hwhen =>
      exact skipTask_effect hmem hwhen (by simp [hphase]) (by simp [hphase])
        (hfresh (by simp [hphase]))
  | whenRaised st error hmem hloop hphase =>
      exact failTask_effect hmem (by simp [hphase]) (by simp [hphase])
  | dispatch sid hloop hphase =>
      refine ⟨by simp [hphase], by simp [hphase], ⟨.dispatched, by simp, rfl⟩, ⟨[], none, ?_,
        by simp⟩, fun _ _ => rfl, fun _ h => h, fun _ _ => rfl, .inl ⟨rfl, rfl⟩,
        Finset.Subset.refl _, fun _ h => .inl h, rfl, rfl, rfl, rfl, rfl, rfl, rfl, rfl, rfl⟩
      simp [State.setPhase]
  | emit sid ev hloop hphase =>
      have hidle : s.phase sid ≠ .idle := by rcases hphase with h | h <;> simp [h]
      refine .ofEvents hidle (by rcases hphase with h | h <;> simp [h]) (s.phase sid) [ev] hidle ?_
      simp [State.put, State.setPhase]
  | finish sid text hloop hphase =>
      exact finishTask_effect (by simp [hphase]) (by simp [hphase]) (hfresh (by simp [hphase]))
  | raise st error hmem hloop hphase =>
      exact failTask_effect hmem (by rcases hphase with h | h <;> simp [h])
        (by rcases hphase with h | h <;> simp [h])
  | pause sid hloop hphase => exact pauseTask_effect (by simp [hphase]) (by simp [hphase])
  | cancelled sid hloop hidle hfinished =>
      refine .ofEvents hidle hfinished .finished [] (by simp) ?_
      simp [State.put, State.setPhase]

end

/-! ### What a completed step resolves -/

/-- The effect of `onStepDone`. `mirrored` is the failed step the completing one stands in for and
`released` the substitute that will not fire. -/
structure DoneEffect (steps : List MetaStep) (sid text : String) (status : DoneStatus) (s : State)
    (mirrored released : Option String) (s' : State) : Prop where
  aliased : mirrored = s.failoverAliases sid
  releasedSound : ∀ sub ∈ released, sub ∈ s.substituteOnly ∧ sid ∉ s'.recovered ∧
    ∃ st ∈ steps, st.id = sid ∧ st.onFailure = sub ∧ sub ≠ ""
  releasedComplete : ∀ st, stepById steps sid = some st → sid ∉ s'.recovered →
    st.onFailure ≠ "" → st.onFailure ∈ s.substituteOnly → released = some st.onFailure
  running : s'.running = s.running.erase sid
  recovered : ∀ id, id ∈ s'.recovered ↔ id ∈ s.recovered ∨ id ∈ mirrored
  succeeded : ∀ id, id ∈ s'.succeeded ↔ id ∈ s.succeeded ∨ id = sid ∧ status = .ok
  skipped : ∀ id, id ∈ s'.skipped ↔ id ∈ s.skipped ∨ id = sid ∧ status = .skipped ∨ id ∈ released
  substituteOnly : ∀ id, id ∈ s'.substituteOnly ↔ id ∈ s.substituteOnly ∧ id ∉ released
  pendingDeps : ∀ id dep, dep ∈ s'.pendingDeps id ↔
    dep ∈ s.pendingDeps id ∧ dep ≠ sid ∧ dep ∉ mirrored ∧ dep ∉ released
  outputs : ∀ id, id ∉ mirrored → s'.outputs id = s.outputs id
  outputsMirrored : ∀ id ∈ mirrored, s'.outputs id = some text
  unstarted : s'.unstarted = s.unstarted
  phase : s'.phase = s.phase
  queue : s'.queue = s.queue
  failed : s'.failed = s.failed
  failoverAliases : s'.failoverAliases = s.failoverAliases
  returned : s'.returned = s.returned
  dispatched : s'.dispatched = s.dispatched
  yielded : s'.yielded = s.yielded
  seenStarts : s'.seenStarts = s.seenStarts
  loop : s'.loop = s.loop

theorem onStepDone_effect (steps : List MetaStep) (sid text : String) (status : DoneStatus)
    (s : State) : ∃ mirrored released,
    DoneEffect steps sid text status s mirrored released (onStepDone steps sid text status s) := by
  refine ⟨s.failoverAliases sid, ?_⟩
  unfold onStepDone releaseUnfired
  split
  · rename_i st hst
    obtain ⟨hmem, hid⟩ := stepById_some hst
    split_ifs with hrelease
    · refine ⟨some st.onFailure, ?_⟩
      cases halias : s.failoverAliases sid <;> cases status <;>
        simp only [mirrorAlias, closeDone, halias, State.discardPending] at hrelease ⊢ <;>
        constructor <;> grind
    · refine ⟨none, ?_⟩
      cases halias : s.failoverAliases sid <;> cases status <;>
        simp only [mirrorAlias, closeDone, halias, State.discardPending] at hrelease ⊢ <;>
        constructor <;> grind
  · refine ⟨none, ?_⟩
    cases halias : s.failoverAliases sid <;> cases status <;>
      simp only [mirrorAlias, closeDone, halias, State.discardPending] <;>
      constructor <;> grind

/-- The effect of a failover of `st` on tables that agree. -/
structure FailoverEffect (steps : List MetaStep) (st : MetaStep) (s s' : State) : Prop where
  mem : st ∈ steps
  substitute : st.onFailure ≠ ""
  failed : st.id ∈ s.failed
  running : st.id ∈ s.running
  parked : st.onFailure ∈ s.substituteOnly
  idle : s.phase st.onFailure = .idle
  notUnstarted : st.onFailure ∉ s.unstarted
  notRunning : st.onFailure ∉ s.running
  ne : st.onFailure ≠ st.id
  eq : s' = { s with
    running := s.running.erase st.id
    failoverAliases := Function.update s.failoverAliases st.onFailure (some st.id)
    pendingDeps := Function.update s.pendingDeps st.onFailure ∅
    substituteOnly := s.substituteOnly.erase st.onFailure
    unstarted := insert st.onFailure s.unstarted
    queue := s.queue ++ [(st.onFailure, .event (.stepState st.onFailure .substituted))] }

/-! ### The invariant -/

def terminalOwners (queue : List (String × QueueItem)) : List String :=
  (queue.filter fun entry => entry.2.terminal).map (·.1)

structure Tables (cfg : Config) (s : State) : Prop where
  unstartedIdle : ∀ sid ∈ s.unstarted, s.phase sid = .idle
  parkedIdle : ∀ sid ∈ s.substituteOnly, s.phase sid = .idle ∧ sid ∉ s.unstarted
  runningStarted : ∀ sid ∈ s.running, s.phase sid ≠ .idle
  activeRunning : ∀ sid, s.phase sid ≠ .idle → s.phase sid ≠ .finished → sid ∈ s.running
  failedFinished : ∀ sid ∈ s.failed, s.phase sid = .finished
  /-- A primary that has not come to its end has its substitute parked. -/
  primaryParked : ∀ st ∈ cfg.steps, st.onFailure ≠ "" → st.id ∈ s.unstarted ∨ st.id ∈ s.running →
    st.onFailure ∈ s.substituteOnly
  aliasSound : ∀ sub primary, s.failoverAliases sub = some primary →
    (∃ st ∈ cfg.steps, st.id = primary ∧ st.onFailure = sub ∧ sub ≠ "") ∧
      primary ∉ s.unstarted ∧ primary ∉ s.running ∧
      (primary ∈ s.failed ∨ (sub, primary) ∈ cfg.trustedReplayAliases cfg.steps)
  /-- A substitute is released only with its alias in place. -/
  substituteAliased : ∀ st ∈ cfg.steps, st.onFailure ≠ "" →
    st.onFailure ∈ s.unstarted ∨ s.phase st.onFailure ≠ .idle →
      s.failoverAliases st.onFailure = some st.id
  terminalSound : ∀ sid item, (sid, item) ∈ s.queue → item.terminal = true →
    s.phase sid = .finished ∧ sid ∈ s.running ∧ ItemSound cfg.steps s sid item
  terminalOnce : (terminalOwners s.queue).Nodup

namespace Tables

variable {cfg : Config} {s s' : State} {sid : String}

theorem frame (h : Tables cfg s) (hunstarted : s'.unstarted = s.unstarted)
    (hparked : s'.substituteOnly = s.substituteOnly) (hrunning : s'.running = s.running)
    (hphase : s'.phase = s.phase) (hfailed : s'.failed = s.failed)
    (haliases : s'.failoverAliases = s.failoverAliases) (houtputs : s'.outputs = s.outputs)
    (hreturned : s'.returned = s.returned) (hqueue : s'.queue.Sublist s.queue) :
    Tables cfg s' := by
  refine ⟨?_, ?_, ?_, ?_, ?_, ?_, ?_, ?_, ?_, ?_⟩
  · simpa only [hunstarted, hphase] using h.unstartedIdle
  · simpa only [hparked, hunstarted, hphase] using h.parkedIdle
  · simpa only [hrunning, hphase] using h.runningStarted
  · simpa only [hrunning, hphase] using h.activeRunning
  · simpa only [hfailed, hphase] using h.failedFinished
  · simpa only [hunstarted, hrunning, hparked] using h.primaryParked
  · simpa only [hunstarted, hrunning, hfailed, haliases] using h.aliasSound
  · simpa only [hunstarted, hphase, haliases] using h.substituteAliased
  · intro id item hitem hterminal
    obtain ⟨hdone, hmem, hsound⟩ := h.terminalSound id item (hqueue.subset hitem) hterminal
    refine ⟨hphase ▸ hdone, hrunning ▸ hmem, ?_⟩
    cases item with
    | stepDone text status =>
        cases status <;> simpa only [ItemSound, houtputs, hreturned, hfailed] using hsound
    | failoverTriggered failedId substituteId error =>
        simpa only [ItemSound, hfailed] using hsound
    | exception error => simpa only [ItemSound, hfailed] using hsound
    | _ => exact hsound
  · exact ((hqueue.filter _).map _).nodup h.terminalOnce

theorem tail (h : Tables cfg s) {item : QueueItem} {rest : List (String × QueueItem)}
    (hqueue : s.queue = (sid, item) :: rest) : Tables cfg { s with queue := rest } :=
  h.frame rfl rfl rfl rfl rfl rfl rfl rfl (hqueue ▸ List.sublist_cons_self _ _)

theorem itemSound_task {steps : List MetaStep} (he : TaskEffect steps s sid s') {id : String}
    (hne : id ≠ sid) {item : QueueItem} (h : ItemSound steps s id item) :
    ItemSound steps s' id item := by
  have hfailed : id ∉ s.failed → id ∉ s'.failed := fun hnot hmem =>
    (he.failedNew id hmem).elim hnot fun h => hne h.1
  cases item with
  | event ev => trivial
  | stepDone text status =>
      cases status with
      | ok =>
          obtain ⟨hout, hret, hnot⟩ := h
          exact ⟨he.outputs id hne ▸ hout, he.returned id hne ▸ hret, hfailed hnot⟩
      | skipped =>
          obtain ⟨hout, htext, hnot, hst⟩ := h
          exact ⟨he.outputs id hne ▸ hout, htext, hfailed hnot, hst⟩
  | failoverTriggered failedId substituteId error => exact ⟨h.1, he.failedKept h.2.1, h.2.2⟩
  | paused stepId => exact h
  | exception error => exact ⟨he.failedKept h.1, h.2⟩

theorem task (h : Tables cfg s) (he : TaskEffect cfg.steps s sid s') : Tables cfg s' := by
  obtain ⟨ph, hph, hphase⟩ := he.phase
  have hother : ∀ id, id ≠ sid → s'.phase id = s.phase id := fun id hid => by
    rw [hphase, Function.update_of_ne hid]
  have hself : s'.phase sid = ph := by rw [hphase, Function.update_self]
  refine ⟨?_, ?_, ?_, ?_, ?_, ?_, ?_, ?_, ?_, ?_⟩
  · intro id hid
    rw [he.unstarted] at hid
    have := h.unstartedIdle id hid
    rw [hother id fun heq => he.notIdle (heq ▸ this), this]
  · intro id hid
    rw [he.substituteOnly] at hid
    obtain ⟨hidle, hnot⟩ := h.parkedIdle id hid
    rw [hother id fun heq => he.notIdle (heq ▸ hidle), he.unstarted]
    exact ⟨hidle, hnot⟩
  · intro id hid
    rw [he.running] at hid
    by_cases heq : id = sid
    · rw [heq, hself]
      exact hph
    · rw [hother id heq]
      exact h.runningStarted id hid
  · intro id hidle hfinished
    rw [he.running]
    by_cases heq : id = sid
    · exact heq ▸ h.activeRunning sid he.notIdle he.notFinished
    · rw [hother id heq] at hidle hfinished
      exact h.activeRunning id hidle hfinished
  · intro id hid
    rcases he.failedNew id hid with hold | ⟨rfl, hfinished⟩
    · have := h.failedFinished id hold
      rw [hother id fun heq => he.notFinished (heq ▸ this), this]
    · exact hfinished
  · intro st hst hne hactive
    rw [he.unstarted, he.running] at hactive
    rw [he.substituteOnly]
    exact h.primaryParked st hst hne hactive
  · intro sub primary halias
    rw [he.failoverAliases] at halias
    obtain ⟨hst, hunstarted, hrunning, hcause⟩ := h.aliasSound sub primary halias
    rw [he.unstarted, he.running]
    exact ⟨hst, hunstarted, hrunning, hcause.imp_left fun hfailed => he.failedKept hfailed⟩
  · intro st hst hne hstarted
    rw [he.failoverAliases]
    refine h.substituteAliased st hst hne ?_
    rw [he.unstarted] at hstarted
    by_cases heq : st.onFailure = sid
    · exact .inr (heq ▸ he.notIdle)
    · rwa [hother _ heq] at hstarted
  · intro id item hitem hterminal
    obtain ⟨events, last, hqueue, hlast⟩ := he.queue
    rw [hqueue, List.append_assoc, List.mem_append, List.mem_append] at hitem
    rcases hitem with hold | hevent | hnew
    · obtain ⟨hfinished, hrunning, hsound⟩ := h.terminalSound id item hold hterminal
      have hne : id ≠ sid := fun heq => he.notFinished (heq ▸ hfinished)
      rw [hother id hne, he.running]
      exact ⟨hfinished, hrunning, itemSound_task he hne hsound⟩
    · obtain ⟨ev, -, heq⟩ := List.mem_map.mp hevent
      obtain ⟨-, rfl⟩ := Prod.mk.inj heq
      simp [QueueItem.terminal] at hterminal
    · obtain ⟨item', hitem', heq⟩ := List.mem_map.mp hnew
      obtain ⟨rfl, rfl⟩ := Prod.mk.inj heq
      obtain ⟨-, hfinished, hsound⟩ := hlast _ (Option.mem_toList.mp hitem')
      exact ⟨hfinished, he.running ▸ h.activeRunning _ he.notIdle he.notFinished, hsound⟩
  · obtain ⟨events, last, hqueue, -⟩ := he.queue
    have hfresh : sid ∉ terminalOwners s.queue := fun hmem => by
      obtain ⟨⟨id, item⟩, hitem, rfl⟩ := List.mem_map.mp hmem
      obtain ⟨hitem, hterminal⟩ := List.mem_filter.mp hitem
      exact he.notFinished (h.terminalSound _ _ hitem hterminal).1
    have hevents : (events.map fun ev => (sid, QueueItem.event ev)).filter
        (fun entry => entry.2.terminal) = [] := by simp [QueueItem.terminal]
    rw [hqueue, terminalOwners, List.filter_append, List.filter_append, hevents, List.append_nil,
      List.map_append]
    refine h.terminalOnce.append ?_ ?_
    · cases last with
      | none => simp
      | some item =>
          have hone : ([(sid, item)].filter fun entry => entry.2.terminal).Sublist [(sid, item)] :=
            List.filter_sublist
          exact (hone.map _).nodup (List.nodup_singleton sid)
    · intro owner hold hnew
      obtain ⟨entry, hentry, rfl⟩ := List.mem_map.mp hnew
      obtain ⟨item, -, rfl⟩ := List.mem_map.mp (List.mem_filter.mp hentry).1
      exact hfresh hold

theorem head (h : Tables cfg s) {item : QueueItem} {rest : List (String × QueueItem)}
    (hqueue : s.queue = (sid, item) :: rest) (hterminal : item.terminal = true) :
    s.phase sid = .finished ∧ sid ∈ s.running ∧ ItemSound cfg.steps s sid item ∧
      ∀ id later, (id, later) ∈ rest → later.terminal = true → id ≠ sid := by
  obtain ⟨hfinished, hrunning, hsound⟩ :=
    h.terminalSound sid item (hqueue ▸ List.mem_cons_self) hterminal
  refine ⟨hfinished, hrunning, hsound, fun id later hlater hlaterTerminal heq => ?_⟩
  have honce := h.terminalOnce
  rw [hqueue, terminalOwners, List.filter_cons_of_pos (by simpa using hterminal),
    List.map_cons, List.nodup_cons] at honce
  exact honce.1 (List.mem_map.mpr ⟨(id, later), List.mem_filter.mpr ⟨hlater, hlaterTerminal⟩, heq⟩)

theorem running_not_unstarted (h : Tables cfg s) (hrunning : sid ∈ s.running) :
    sid ∉ s.unstarted :=
  fun hunstarted => h.runningStarted sid hrunning (h.unstartedIdle sid hunstarted)

theorem spawn (h : Tables cfg s) (hsid : sid ∈ s.unstarted) : Tables cfg (s.spawn sid) := by
  have hidle := h.unstartedIdle sid hsid
  have hself : (s.spawn sid).phase sid = .created := by simp [State.spawn]
  have hother : ∀ id, id ≠ sid → (s.spawn sid).phase id = s.phase id := fun id hid => by
    simp [State.spawn, hid]
  refine ⟨?_, ?_, ?_, ?_, ?_, ?_, ?_, ?_, ?_, h.terminalOnce⟩
  · intro id hid
    obtain ⟨hne, hid⟩ := Finset.mem_erase.mp hid
    rw [hother id hne, h.unstartedIdle id hid]
  · intro id hid
    obtain ⟨hparked, hnot⟩ := h.parkedIdle id hid
    have hne : id ≠ sid := fun heq => hnot (heq ▸ hsid)
    exact ⟨by rw [hother id hne, hparked], fun hmem => hnot (Finset.mem_of_mem_erase hmem)⟩
  · intro id hid
    rcases Finset.mem_insert.mp hid with rfl | hid
    · simp [hself]
    · have hne : id ≠ sid := fun heq => h.runningStarted id hid (heq ▸ hidle)
      rw [hother id hne]
      exact h.runningStarted id hid
  · intro id hstarted hactive
    by_cases hne : id = sid
    · exact hne ▸ Finset.mem_insert_self _ _
    · rw [hother id hne] at hstarted hactive
      exact Finset.mem_insert_of_mem (h.activeRunning id hstarted hactive)
  · intro id hid
    have hfinished := h.failedFinished id hid
    have hne : id ≠ sid := fun heq => by simp [heq, hidle] at hfinished
    rw [hother id hne, hfinished]
  · intro st hst hsub hactive
    refine h.primaryParked st hst hsub ?_
    rcases hactive with hactive | hactive
    · exact .inl (Finset.mem_of_mem_erase hactive)
    · rcases Finset.mem_insert.mp hactive with heq | hactive
      · exact .inl (heq ▸ hsid)
      · exact .inr hactive
  · intro sub primary halias
    obtain ⟨hst, hunstarted, hrunning, hcause⟩ := h.aliasSound sub primary halias
    refine ⟨hst, fun hmem => hunstarted (Finset.mem_of_mem_erase hmem), fun hmem => ?_, hcause⟩
    rcases Finset.mem_insert.mp hmem with rfl | hmem
    · exact hunstarted hsid
    · exact hrunning hmem
  · intro st hst hsub hstarted
    refine h.substituteAliased st hst hsub ?_
    by_cases heq : st.onFailure = sid
    · exact .inl (heq ▸ hsid)
    · rw [hother _ heq] at hstarted
      exact hstarted.imp_left Finset.mem_of_mem_erase
  · intro id item hitem hterminal
    obtain ⟨hfinished, hrunning, hsound⟩ := h.terminalSound id item hitem hterminal
    have hne : id ≠ sid := fun heq => by simp [heq, hidle] at hfinished
    refine ⟨by rw [hother id hne, hfinished], Finset.mem_insert_of_mem hrunning, ?_⟩
    cases item with
    | stepDone text status => cases status <;> exact hsound
    | _ => exact hsound

theorem stepDone (h : Tables cfg s) (hwf : WellFormed cfg.steps) {text : String}
    {status : DoneStatus} {mirrored released : Option String}
    (he : DoneEffect cfg.steps sid text status s mirrored released s')
    (hfinished : s.phase sid = .finished) (hrunning : sid ∈ s.running)
    (hlast : ∀ id later, (id, later) ∈ s.queue → later.terminal = true → id ≠ sid) :
    Tables cfg s' := by
  have hrunningSub : ∀ id ∈ s'.running, id ≠ sid ∧ id ∈ s.running := fun id hid =>
    Finset.mem_erase.mp (he.running ▸ hid)
  refine ⟨?_, ?_, ?_, ?_, ?_, ?_, ?_, ?_, ?_, ?_⟩
  · rw [he.unstarted, he.phase]
    exact h.unstartedIdle
  · intro id hid
    rw [he.unstarted, he.phase]
    exact h.parkedIdle id ((he.substituteOnly id).mp hid).1
  · intro id hid
    rw [he.phase]
    exact h.runningStarted id (hrunningSub id hid).2
  · intro id hidle hactive
    rw [he.phase] at hidle hactive
    rw [he.running]
    exact Finset.mem_erase.mpr ⟨fun heq => hactive (heq ▸ hfinished), h.activeRunning id hidle hactive⟩
  · rw [he.failed, he.phase]
    exact h.failedFinished
  · intro st hst hsub hactive
    rw [he.unstarted] at hactive
    have hne : st.id ≠ sid := by
      rintro rfl
      rcases hactive with hactive | hactive
      · exact h.running_not_unstarted hrunning hactive
      · exact (hrunningSub _ hactive).1 rfl
    refine (he.substituteOnly _).mpr ⟨h.primaryParked st hst hsub
      (hactive.imp_right fun hmem => (hrunningSub _ hmem).2), fun hreleased => ?_⟩
    obtain ⟨-, -, t, ht, hid, hsame, -⟩ := he.releasedSound _ hreleased
    exact hne (hwf.primaryUnique st hst t ht hsub hsame.symm ▸ hid)
  · intro sub primary halias
    rw [he.failoverAliases] at halias
    rw [he.unstarted, he.failed]
    obtain ⟨hst, hunstarted, hnot, hcause⟩ := h.aliasSound sub primary halias
    exact ⟨hst, hunstarted, fun hmem => hnot (hrunningSub _ hmem).2, hcause⟩
  · rw [he.unstarted, he.phase, he.failoverAliases]
    exact h.substituteAliased
  · intro id item hitem hterminal
    rw [he.queue] at hitem
    obtain ⟨hdone, hmem, hsound⟩ := h.terminalSound id item hitem hterminal
    have hmirrored : id ∉ mirrored := fun halias => by
      rw [he.aliased, Option.mem_def] at halias
      exact (h.aliasSound sid id halias).2.2.1 hmem
    refine ⟨he.phase ▸ hdone, he.running ▸ Finset.mem_erase.mpr
      ⟨hlast id item hitem hterminal, hmem⟩, ?_⟩
    cases item with
    | stepDone text status =>
        cases status <;> simp only [ItemSound, he.outputs id hmirrored, he.returned, he.failed] <;>
          exact hsound
    | failoverTriggered failedId substituteId error =>
        simp only [ItemSound, he.failed]
        exact hsound
    | exception error =>
        simp only [ItemSound, he.failed]
        exact hsound
    | _ => exact hsound
  · rw [he.queue]
    exact h.terminalOnce

/-- The failover of `st`: its parked substitute is released, whatever became of the substitute's
own id before. -/
theorem failover_effect (h : Tables cfg s) (hwf : WellFormed cfg.steps) {st : MetaStep}
    (hst : st ∈ cfg.steps) (hsub : st.onFailure ≠ "") (hfailed : st.id ∈ s.failed)
    (hrunning : st.id ∈ s.running) :
    FailoverEffect cfg.steps st s (onFailover cfg.steps st.id st.onFailure s) := by
  obtain ⟨t, ht, hid, hplain, -⟩ := hwf.substitute st hst hsub
  have hfinished := h.failedFinished _ hfailed
  have hparked := h.primaryParked st hst hsub (.inr hrunning)
  obtain ⟨hidle, hunstarted⟩ := h.parkedIdle _ hparked
  have hnotRunning : st.onFailure ∉ s.running := fun hmem => h.runningStarted _ hmem hidle
  have hne : st.onFailure ≠ st.id := fun heq => by rw [heq, hfinished] at hidle; simp at hidle
  have hknown : (stepById cfg.steps st.onFailure).isSome := by
    rw [← hid, hwf.stepById_eq ht]
    rfl
  refine ⟨hst, hsub, hfailed, hrunning, hparked, hidle, hunstarted, hnotRunning, hne, ?_⟩
  simp [onFailover, State.put, hknown, hnotRunning]

theorem failover (h : Tables cfg s) (hwf : WellFormed cfg.steps) {st : MetaStep}
    (he : FailoverEffect cfg.steps st s s')
    (hlast : ∀ id later, (id, later) ∈ s.queue → later.terminal = true → id ≠ st.id) :
    Tables cfg s' := by
  obtain ⟨hst, hsub, hfailed, hrunning, hparked, hidle, hunstarted, hnotRunning, hne, rfl⟩ := he
  have hfinished := h.failedFinished _ hfailed
  refine ⟨?_, ?_, ?_, ?_, h.failedFinished, ?_, ?_, ?_, ?_, ?_⟩
  · intro id hmem
    rcases Finset.mem_insert.mp hmem with rfl | hmem
    · exact hidle
    · exact h.unstartedIdle id hmem
  · intro id hmem
    obtain ⟨hother, hmem⟩ := Finset.mem_erase.mp hmem
    obtain ⟨hidle, hnot⟩ := h.parkedIdle id hmem
    exact ⟨hidle, fun hin => (Finset.mem_insert.mp hin).elim hother hnot⟩
  · exact fun id hmem => h.runningStarted id (Finset.mem_of_mem_erase hmem)
  · intro id hidle hactive
    exact Finset.mem_erase.mpr
      ⟨fun heq => hactive (heq ▸ hfinished), h.activeRunning id hidle hactive⟩
  · intro other hother hotherSub hactive
    have hneOther : other.onFailure ≠ st.onFailure := by
      intro heq
      obtain rfl := hwf.primaryUnique other hother st hst hotherSub heq
      rcases hactive with hactive | hactive
      · rcases Finset.mem_insert.mp hactive with heq | hactive
        · exact hne heq.symm
        · exact h.running_not_unstarted hrunning hactive
      · exact (Finset.mem_erase.mp hactive).1 rfl
    refine Finset.mem_erase.mpr ⟨hneOther, h.primaryParked other hother hotherSub ?_⟩
    rcases hactive with hactive | hactive
    · rcases Finset.mem_insert.mp hactive with heq | hactive
      · exact absurd (hwf.substitute_plain hst hother heq.symm).1 hotherSub
      · exact .inl hactive
    · exact .inr (Finset.mem_of_mem_erase hactive)
  · intro sub primary halias
    simp only at halias
    by_cases heq : sub = st.onFailure
    · subst heq
      rw [Function.update_self, Option.some.injEq] at halias
      subst halias
      refine ⟨⟨st, hst, rfl, rfl, hsub⟩, fun hmem => ?_, by simp, .inl hfailed⟩
      rcases Finset.mem_insert.mp hmem with heq | hmem
      · exact hne heq.symm
      · exact h.running_not_unstarted hrunning hmem
    · rw [Function.update_of_ne heq] at halias
      obtain ⟨⟨p, hp, hpid, hpsub, hpne⟩, hnot, hnotRun, hcause⟩ := h.aliasSound sub primary halias
      refine ⟨⟨p, hp, hpid, hpsub, hpne⟩, fun hmem => ?_,
        fun hmem => hnotRun (Finset.mem_of_mem_erase hmem), hcause⟩
      rcases Finset.mem_insert.mp hmem with heq | hmem
      · exact hpne (hpsub ▸ (hwf.substitute_plain hst hp (hpid ▸ heq.symm)).1)
      · exact hnot hmem
  · intro other hother hotherSub hstarted
    simp only
    by_cases heq : other.onFailure = st.onFailure
    · rw [heq, Function.update_self, hwf.primaryUnique other hother st hst hotherSub heq]
    · rw [Function.update_of_ne heq]
      refine h.substituteAliased other hother hotherSub (hstarted.imp_left fun hmem => ?_)
      exact (Finset.mem_insert.mp hmem).resolve_left heq
  · intro id item hitem hterminal
    rcases List.mem_append.mp hitem with hitem | hitem
    · obtain ⟨hdone, hmem, hsound⟩ := h.terminalSound id item hitem hterminal
      refine ⟨hdone, Finset.mem_erase.mpr ⟨hlast id item hitem hterminal, hmem⟩, ?_⟩
      cases item with
      | stepDone text status => cases status <;> exact hsound
      | _ => exact hsound
    · obtain ⟨-, rfl⟩ := Prod.mk.inj (List.mem_singleton.mp hitem)
      simp [QueueItem.terminal] at hterminal
  · simpa [terminalOwners, QueueItem.terminal] using h.terminalOnce

theorem exception (h : Tables cfg s) {error : String} (hfinished : s.phase sid = .finished)
    (hlast : ∀ id later, (id, later) ∈ s.queue → later.terminal = true → id ≠ sid) :
    Tables cfg (onException sid error s) := by
  refine ⟨h.unstartedIdle, h.parkedIdle, fun id hmem => h.runningStarted id
    (Finset.mem_of_mem_erase hmem), fun id hidle hactive => ?_, h.failedFinished,
    fun st hst hsub hactive => h.primaryParked st hst hsub
      (hactive.imp_right Finset.mem_of_mem_erase), fun sub primary halias => ?_,
    h.substituteAliased, fun id item hitem hterminal => ?_, h.terminalOnce⟩
  · exact Finset.mem_erase.mpr
      ⟨fun heq => hactive (heq ▸ hfinished), h.activeRunning id hidle hactive⟩
  · obtain ⟨hst, hnot, hnotRun, hcause⟩ := h.aliasSound sub primary halias
    exact ⟨hst, hnot, fun hmem => hnotRun (Finset.mem_of_mem_erase hmem), hcause⟩
  · obtain ⟨hdone, hmem, hsound⟩ := h.terminalSound id item hitem hterminal
    refine ⟨hdone, Finset.mem_erase.mpr ⟨hlast id item hitem hterminal, hmem⟩, ?_⟩
    cases item with
    | stepDone text status => cases status <;> exact hsound
    | _ => exact hsound

theorem yield (h : Tables cfg s) (events : List AgentEvent) : Tables cfg (s.yield events) :=
  h.frame rfl rfl rfl rfl rfl rfl rfl rfl (List.Sublist.refl _)

theorem finish (h : Tables cfg s) (result : MetaResult) : Tables cfg (s.finish result) :=
  h.frame rfl rfl rfl rfl rfl rfl rfl rfl (List.Sublist.refl _)

theorem drained (h : Tables cfg s) : Tables cfg (drainQueue s) := by
  rw [drainQueue_eq]
  exact h.frame rfl rfl rfl rfl rfl rfl rfl rfl (List.nil_sublist _)

theorem spawned (h : Tables cfg s) {order : List String} (hnodup : order.Nodup)
    (horder : order.toFinset = s.unstarted) (cap : Option Int) :
    Tables cfg (spawnReady cap order s) :=
  spawnReady_preserves (fun _ _ ht hid _ _ => ht.spawn hid) hnodup (mem_of_order horder) h

theorem loopMove (h : Tables cfg s) (hwf : WellFormed cfg.steps) {cap : Option Int}
    {deliverable : String} {a : Action} (hmove : LoopMove cfg.steps cap deliverable s a s') :
    Tables cfg s' := by
  cases hmove with
  | showEvent order sid ev rest hloop hqueue =>
      exact (h.tail hqueue).frame rfl rfl rfl rfl rfl rfl rfl rfl (List.Sublist.refl _)
  | stepDone order sid text status rest hloop hqueue hnodup horder =>
      obtain ⟨hfinished, hrunning, -, hlast⟩ := h.head hqueue rfl
      obtain ⟨mirrored, released, he⟩ := onStepDone_effect cfg.steps sid text status
        { s with queue := rest }
      exact ((h.tail hqueue).stepDone hwf he hfinished hrunning hlast).spawned hnodup horder cap
  | failover order sid failedId substituteId error rest hloop hqueue hnodup horder =>
      obtain ⟨-, hrunning, ⟨rfl, hfailed, st, hst, rfl, rfl, hsub⟩, hlast⟩ := h.head hqueue rfl
      have he := (h.tail hqueue).failover_effect hwf hst hsub hfailed hrunning
      exact ((h.tail hqueue).failover hwf he hlast).spawned hnodup horder cap
  | paused order sid stepId rest hloop hqueue =>
      exact (h.tail hqueue).frame rfl rfl rfl rfl rfl rfl rfl rfl (List.Sublist.refl _)
  | exception order sid error rest hloop hqueue =>
      obtain ⟨hfinished, -, -, hlast⟩ := h.head hqueue rfl
      exact (h.tail hqueue).exception hfinished hlast
  | conclude hloop hrunning hqueue => exact (h.yield _).finish _
  | drain failedStepId error hloop hdone => exact (h.drained.yield _).finish _
  | endPause hloop hdone => exact (h.yield _).finish _

theorem preserved (h : Tables cfg s) (hwf : WellFormed cfg.steps) {a : Action}
    (hstep : cfg.step s a = some s') : Tables cfg s' := by
  rcases step_move hstep with ⟨sid, hmove⟩ | hmove
  · exact h.task (hmove.effect h.failedFinished)
  · exact h.loopMove hwf hmove

end Tables

/-! ### Initially -/

theorem trustedReplayAliases_sound {cfg : Config} (hwf : WellFormed cfg.steps)
    {sub primary : String} (h : (sub, primary) ∈ cfg.trustedReplayAliases cfg.steps) :
    (cfg.initialOutputs primary).isSome ∧ cfg.initialOutputs sub = none ∧
      ∃ st ∈ cfg.steps, st.id = primary ∧ st.onFailure = sub ∧ sub ≠ "" := by
  simp only [Config.trustedReplayAliases, List.mem_filter, Bool.and_eq_true,
    Option.isNone_iff_eq_none] at h
  obtain ⟨-, ⟨⟨hknown, hseeded⟩, hprimary⟩, hfree⟩ := h
  obtain ⟨t, ht⟩ := Option.isSome_iff_exists.mp hknown
  obtain ⟨htmem, htid⟩ := stepById_some ht
  have hne : sub ≠ "" := htid ▸ hwf.idNonempty t htmem
  refine ⟨hseeded, hfree, ?_⟩
  split at hprimary
  · rename_i st hst
    obtain ⟨hmem, hid⟩ := stepById_some hst
    exact ⟨st, hmem, hid, by simpa using hprimary, hne⟩
  · exact absurd (by simpa using hprimary) hne

theorem mem_stepIds {steps : List MetaStep} {id : String} :
    id ∈ stepIds steps ↔ ∃ st ∈ steps, st.id = id := by
  simp [stepIds]

theorem mem_substituteIds {steps : List MetaStep} {id : String} :
    id ∈ substituteIds steps ↔ ∃ st ∈ steps, st.onFailure = id ∧ id ≠ "" := by
  simp only [substituteIds, List.mem_toFinset, List.mem_filter, List.mem_map, decide_eq_true_eq]
  constructor
  · rintro ⟨⟨st, hst, hsub⟩, hne⟩
    exact ⟨st, hst, hsub, hne⟩
  · rintro ⟨st, hst, hsub, hne⟩
    exact ⟨⟨st, hst, hsub⟩, hne⟩

theorem mem_initial_unstarted {cfg : Config} {steps : List MetaStep} {id : String} :
    id ∈ (initialState cfg steps).unstarted ↔
      id ∈ stepIds steps ∧ id ∉ (initialState cfg steps).substituteOnly ∧
        cfg.initialOutputs id = none := by
  simp [initialState, and_assoc]

theorem mem_initial_substituteOnly {cfg : Config} {steps : List MetaStep} {id : String} :
    id ∈ (initialState cfg steps).substituteOnly ↔
      id ∈ substituteIds steps ∧ ∀ primary, (id, primary) ∉ cfg.trustedReplayAliases steps := by
  simp [initialState]

theorem initialState_tables {cfg : Config} (hwf : WellFormed cfg.steps) :
    Tables cfg (initialState cfg cfg.steps) := by
  have hidle : ∀ id, (initialState cfg cfg.steps).phase id = .idle := fun _ => rfl
  have hparked : ∀ st ∈ cfg.steps, st.onFailure ≠ "" →
      st.onFailure ∈ (initialState cfg cfg.steps).substituteOnly ∨
        (st.onFailure, st.id) ∈ cfg.trustedReplayAliases cfg.steps := by
    intro st hst hsub
    rw [mem_initial_substituteOnly, or_iff_not_imp_right]
    refine fun hnot => ⟨mem_substituteIds.mpr ⟨st, hst, rfl, hsub⟩, fun primary hmem => ?_⟩
    obtain ⟨-, -, t, ht, rfl, hsame, -⟩ := trustedReplayAliases_sound hwf hmem
    exact hnot (hwf.primaryUnique st hst t ht hsub hsame.symm ▸ hmem)
  refine ⟨fun _ _ => rfl, fun id hid => ⟨rfl, fun hmem => ?_⟩, by simp [initialState],
    fun id hne => absurd (hidle id) hne, by simp [initialState], ?_, ?_, ?_,
    by simp [initialState], by simp [initialState, terminalOwners]⟩
  · exact (mem_initial_unstarted.mp hmem).2.1 hid
  · intro st hst hsub hactive
    refine (hparked st hst hsub).resolve_right fun htrusted => ?_
    have hseeded := (trustedReplayAliases_sound hwf htrusted).1
    rcases hactive with hactive | hactive
    · rw [(mem_initial_unstarted.mp hactive).2.2] at hseeded
      simp at hseeded
    · simp [initialState] at hactive
  · intro sub primary halias
    have htrusted := Keyed.mem_of_lookup (show (cfg.trustedReplayAliases cfg.steps).lookup sub = _ from halias)
    obtain ⟨hseeded, -, hst⟩ := trustedReplayAliases_sound hwf htrusted
    refine ⟨hst, fun hmem => ?_, by simp [initialState], .inr htrusted⟩
    rw [(mem_initial_unstarted.mp hmem).2.2] at hseeded
    simp at hseeded
  · intro st hst hsub hstarted
    have hunstarted := hstarted.resolve_right fun hne => hne rfl
    have htrusted := (hparked st hst hsub).resolve_left (mem_initial_unstarted.mp hunstarted).2.1
    change (cfg.trustedReplayAliases cfg.steps).lookup st.onFailure = some st.id
    cases hlookup : (cfg.trustedReplayAliases cfg.steps).lookup st.onFailure with
    | none => simpa using List.lookup_eq_none_iff.mp hlookup _ htrusted
    | some primary =>
        obtain ⟨-, -, t, ht, rfl, hsame, -⟩ :=
          trustedReplayAliases_sound hwf (Keyed.mem_of_lookup hlookup)
        rw [hwf.primaryUnique st hst t ht hsub hsame.symm]

theorem starts_tables {cfg : Config} (hwf : WellFormed cfg.steps) {s : State}
    (h : Starts cfg s) : Tables cfg s := by
  have hinit := initialState_tables hwf
  rcases starts_cases h with ⟨events, result, rfl, -⟩ | ⟨-, order, t, hnodup, horder, rfl, hs⟩
  · exact (hinit.yield _).finish _
  · have hspawned := (hinit.yield (openingEvents cfg cfg.steps)).spawned hnodup horder
      cfg.maxParallelism
    rcases hs with ⟨-, rfl⟩ | ⟨-, rfl⟩
    · exact (hspawned.yield _).finish _
    · exact hspawned

theorem run_tables {cfg : Config} (hwf : WellFormed cfg.steps) {guard : State → Action → Prop}
    {s : State} (h : RunsTo cfg guard s) : Tables cfg s :=
  h.invariant (fun _ => starts_tables hwf) fun _ _ _ ht _ hstep => ht.preserved hwf hstep

end OpenStarry.MetaSkill
