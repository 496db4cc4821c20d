import OpenStarry.MetaSkill.Accepted
import OpenStarry.MetaSkill.Scheduler

/-!
# What one step of a run can do

`TaskMove` lists the moves of a step's task and `LoopMove` those of the main loop, with the guards
they are taken under. `step_move` reads every enabled action as one of them, so no later proof
unfolds `step`. `spawnReady` has its two rules here as well: what each single start preserves it
preserves, and it stops only at the cap or when no unstarted step is ready.
-/

namespace OpenStarry.MetaSkill

open OpenStarry.Lib

/-! ### Moves of a step's task -/

inductive TaskMove (steps : List MetaStep) (s : State) : String → Action → State → Prop
  | openCard (st : MetaStep) (hmem : st ∈ steps) (hloop : s.loop.begins = true)
      (hphase : s.phase st.id = .created) :
      TaskMove steps s st.id (.evaluate st.id .proceed) (openTask s st.id)
  | skip (st : MetaStep) (hmem : st ∈ steps) (hloop : s.loop.begins = true)
      (hphase : s.phase st.id = .created) (hwhen : st.when ≠ "") :
      TaskMove steps s st.id (.evaluate st.id .skip) (skipTask s st.id)
  | whenRaised (st : MetaStep) (error : String) (hmem : st ∈ steps) (hloop : s.loop.begins = true)
      (hphase : s.phase st.id = .created) :
      TaskMove steps s st.id (.evaluate st.id (.raised error)) (failTask s st error)
  | dispatch (sid : String) (hloop : s.loop.alive = true) (hphase : s.phase sid = .opened) :
      TaskMove steps s sid (.dispatch sid)
        { s.setPhase sid .dispatched with dispatched := s.dispatched ++ [sid] }
  | emit (sid : String) (ev : AgentEvent) (hloop : s.loop.alive = true)
      (hphase : s.phase sid = .opened ∨ s.phase sid = .dispatched) :
      TaskMove steps s sid (.emit sid ev) (s.put sid [.event ev])
  | finish (sid text : String) (hloop : s.loop.alive = true) (hphase : s.phase sid = .dispatched) :
      TaskMove steps s sid (.finish sid text) (finishTask s sid text)
  | raise (st : MetaStep) (error : String) (hmem : st ∈ steps) (hloop : s.loop.alive = true)
      (hphase : s.phase st.id = .opened ∨ s.phase st.id = .dispatched) :
      TaskMove steps s st.id (.raise st.id error) (failTask s st error)
  | pause (sid : String) (hloop : s.loop.alive = true) (hphase : s.phase sid = .dispatched) :
      TaskMove steps s sid (.pause sid) (pauseTask s sid)
  | cancelled (sid : String) (hloop : s.loop.windingDown = true) (hidle : s.phase sid ≠ .idle)
      (hfinished : s.phase sid ≠ .finished) :
      TaskMove steps s sid (.cancelled sid) (s.setPhase sid .finished)

/-! ### Moves of the main loop -/

inductive LoopMove (steps : List MetaStep) (cap : Option Int) (deliverable : String) (s : State) :
    Action → State → Prop
  | showEvent (order : List String) (sid : String) (ev : AgentEvent)
      (rest : List (String × QueueItem)) (hloop : s.loop = .looping)
      (hqueue : s.queue = (sid, .event ev) :: rest) :
      LoopMove steps cap deliverable s (.handle order) (onEvent sid ev { s with queue := rest })
  | stepDone (order : List String) (sid text : String) (status : DoneStatus)
      (rest : List (String × QueueItem)) (hloop : s.loop = .looping)
      (hqueue : s.queue = (sid, .stepDone text status) :: rest) (hnodup : order.Nodup)
      (horder : order.toFinset =
        (onStepDone steps sid text status { s with queue := rest }).unstarted) :
      LoopMove steps cap deliverable s (.handle order)
        (spawnReady cap order (onStepDone steps sid text status { s with queue := rest }))
  | failover (order : List String) (sid failedId substituteId error : String)
      (rest : List (String × QueueItem)) (hloop : s.loop = .looping)
      (hqueue : s.queue = (sid, .failoverTriggered failedId substituteId error) :: rest)
      (hnodup : order.Nodup)
      (horder : order.toFinset =
        (onFailover steps failedId substituteId { s with queue := rest }).unstarted) :
      LoopMove steps cap deliverable s (.handle order)
        (spawnReady cap order (onFailover steps failedId substituteId { s with queue := rest }))
  | paused (order : List String) (sid stepId : String) (rest : List (String × QueueItem))
      (hloop : s.loop = .looping) (hqueue : s.queue = (sid, .paused stepId) :: rest) :
      LoopMove steps cap deliverable s (.handle order) (onPaused stepId { s with queue := rest })
  | exception (order : List String) (sid error : String) (rest : List (String × QueueItem))
      (hloop : s.loop = .looping) (hqueue : s.queue = (sid, .exception error) :: rest) :
      LoopMove steps cap deliverable s (.handle order) (onException sid error { s with queue := rest })
  | conclude (hloop : s.loop = .looping) (hrunning : s.running = ∅) (hqueue : s.queue = []) :
      LoopMove steps cap deliverable s .conclude
        ((s.yield [completionEvent s (if s.failed \ s.recovered = ∅ then .ok else .failed)]).finish
          { ok := true
            finalText := (s.outputs deliverable).getD ""
            stepOutputs := publicStepOutputs s })
  | drain (failedStepId error : String) (hloop : s.loop = .failing failedStepId error)
      (hdone : ∀ sid ∈ s.running, s.phase sid = .finished) :
      LoopMove steps cap deliverable s .drain
        (((drainQueue s).yield [completionEvent (drainQueue s) .failed]).finish
          { ok := false
            stepOutputs := publicStepOutputs (drainQueue s)
            error := some error
            failedStepId := some failedStepId })
  | endPause (hloop : s.loop = .pausing) (hdone : ∀ sid ∈ s.running, s.phase sid = .finished) :
      LoopMove steps cap deliverable s .endPause
        ((s.yield [completionEvent s .cancelled]).finish
          { ok := false, stepOutputs := publicStepOutputs s, paused := true })

theorem respawn_some {cap : Option Int} {order : List String} {s s' : State}
    (h : respawn cap order s = some s') :
    order.Nodup ∧ order.toFinset = s.unstarted ∧ s' = spawnReady cap order s := by
  unfold respawn at h
  split_ifs at h with hlists
  exact ⟨hlists.1, hlists.2, (Option.some.inj h).symm⟩

section

variable {steps : List MetaStep} {cap : Option Int} {deliverable : String} {s s' : State}

theorem handle_move {order : List String} (h : handle steps cap order s = some s') :
    LoopMove steps cap deliverable s (.handle order) s' := by
  unfold handle at h
  split at h
  · rename_i sid item rest hloop hqueue
    cases item with
    | event ev => exact Option.some.inj h ▸ .showEvent order sid ev rest hloop hqueue
    | stepDone text status =>
        obtain ⟨hnodup, horder, rfl⟩ := respawn_some h
        exact .stepDone order sid text status rest hloop hqueue hnodup horder
    | failoverTriggered failedId substituteId error =>
        obtain ⟨hnodup, horder, rfl⟩ := respawn_some h
        exact .failover order sid failedId substituteId error rest hloop hqueue hnodup horder
    | paused stepId => exact Option.some.inj h ▸ .paused order sid stepId rest hloop hqueue
    | exception error => exact Option.some.inj h ▸ .exception order sid error rest hloop hqueue
  · simp at h

theorem step_move {a : Action} (h : step steps cap deliverable s a = some s') :
    (∃ sid, TaskMove steps s sid a s') ∨ LoopMove steps cap deliverable s a s' := by
  cases a with
  | evaluate sid outcome =>
      simp only [step] at h
      split at h
      · rename_i st hst
        obtain ⟨hmem, rfl⟩ := stepById_some hst
        split_ifs at h with hguard
        obtain ⟨hloop, hphase, hpossible⟩ := hguard
        cases outcome with
        | proceed =>
            obtain rfl := Option.some.inj h
            exact .inl ⟨_, .openCard st hmem hloop hphase⟩
        | skip =>
            have hwhen : st.when ≠ "" := by simpa [WhenOutcome.possible] using hpossible
            obtain rfl := Option.some.inj h
            exact .inl ⟨_, .skip st hmem hloop hphase hwhen⟩
        | raised error =>
            obtain rfl := Option.some.inj h
            exact .inl ⟨_, .whenRaised st error hmem hloop hphase⟩
      · simp at h
  | dispatch sid =>
      simp only [step] at h
      split_ifs at h with hguard
      obtain rfl := Option.some.inj h
      exact .inl ⟨_, .dispatch sid hguard.1 hguard.2⟩
  | emit sid ev =>
      simp only [step] at h
      split_ifs at h with hguard
      obtain rfl := Option.some.inj h
      exact .inl ⟨_, .emit sid ev hguard.1 hguard.2⟩
  | finish sid text =>
      simp only [step] at h
      split_ifs at h with hguard
      obtain rfl := Option.some.inj h
      exact .inl ⟨_, .finish sid text hguard.1 hguard.2⟩
  | raise sid error =>
      simp only [step] at h
      split at h
      · rename_i st hst
        obtain ⟨hmem, rfl⟩ := stepById_some hst
        split_ifs at h with hguard
        obtain rfl := Option.some.inj h
        exact .inl ⟨_, .raise st error hmem hguard.1 hguard.2⟩
      · simp at h
  | pause sid =>
      simp only [step] at h
      split_ifs at h with hguard
      obtain rfl := Option.some.inj h
      exact .inl ⟨_, .pause sid hguard.1 hguard.2⟩
  | cancelled sid =>
      simp only [step] at h
      split_ifs at h with hguard
      obtain rfl := Option.some.inj h
      exact .inl ⟨_, .cancelled sid hguard.1 hguard.2.1 hguard.2.2⟩
  | handle order => exact .inr (handle_move h)
  | conclude =>
      simp only [step] at h
      split at h
      · rename_i hloop
        by_cases hguard : s.running = ∅ ∧ s.queue = []
        · rw [if_pos hguard] at h
          exact .inr (Option.some.inj h ▸ .conclude hloop hguard.1 hguard.2)
        · rw [if_neg hguard] at h
          simp at h
      · simp at h
  | drain =>
      simp only [step] at h
      split at h
      · rename_i failedStepId error hloop
        split_ifs at h with hdone
        exact .inr (Option.some.inj h ▸ .drain failedStepId error hloop hdone)
      · simp at h
  | endPause =>
      simp only [step] at h
      split at h
      · rename_i hloop
        split_ifs at h with hdone
        exact .inr (Option.some.inj h ▸ .endPause hloop hdone)
      · simp at h

end

theorem TaskMove.not_ended {steps : List MetaStep} {s s' : State} {sid : String} {a : Action}
    (h : TaskMove steps s sid a s') (result : MetaResult) : s.loop ≠ .ended result := by
  intro hended
  cases h <;> simp_all [Loop.begins, Loop.alive, Loop.windingDown]

theorem LoopMove.not_ended {steps : List MetaStep} {cap : Option Int} {deliverable : String}
    {s s' : State} {a : Action} (h : LoopMove steps cap deliverable s a s') (result : MetaResult) :
    s.loop ≠ .ended result := by
  intro hended
  cases h <;> simp_all

/-! ### Starting ready steps -/

/-- Nothing but `unstarted`, `running` and the phases changes when steps are started. -/
theorem spawnReady_preserves {cap : Option Int} {P : State → Prop}
    (hspawn : ∀ s sid, P s → sid ∈ s.unstarted → s.pendingDeps sid = ∅ →
      capReached cap s.running = false → P (s.spawn sid))
    {order : List String} (hnodup : order.Nodup) {s : State}
    (hmem : ∀ sid ∈ order, sid ∈ s.unstarted) (h : P s) : P (spawnReady cap order s) := by
  induction order generalizing s with
  | nil => exact h
  | cons sid rest ih =>
      obtain ⟨hnot, hrest⟩ := List.nodup_cons.mp hnodup
      rw [spawnReady]
      split_ifs with hcap hready
      · exact h
      · refine ih hrest (fun later hlater => ?_) (hspawn s sid h (hmem sid List.mem_cons_self)
          hready (by simpa using hcap))
        exact Finset.mem_erase.mpr ⟨fun heq => hnot (heq ▸ hlater),
          hmem later (List.mem_cons_of_mem _ hlater)⟩
      · exact ih hrest (fun later hlater => hmem later (List.mem_cons_of_mem _ hlater)) h

theorem mem_of_order {order : List String} {s : State} (h : order.toFinset = s.unstarted) :
    ∀ sid ∈ order, sid ∈ s.unstarted := fun _ hsid => h ▸ List.mem_toFinset.mpr hsid

/-- What a start leaves alone. -/
structure SameButStarted (s s' : State) : Prop where
  outputs : s'.outputs = s.outputs
  succeeded : s'.succeeded = s.succeeded
  failed : s'.failed = s.failed
  recovered : s'.recovered = s.recovered
  skipped : s'.skipped = s.skipped
  pendingDeps : s'.pendingDeps = s.pendingDeps
  substituteOnly : s'.substituteOnly = s.substituteOnly
  failoverAliases : s'.failoverAliases = s.failoverAliases
  queue : s'.queue = s.queue
  seenStarts : s'.seenStarts = s.seenStarts
  loop : s'.loop = s.loop
  yielded : s'.yielded = s.yielded
  dispatched : s'.dispatched = s.dispatched
  returned : s'.returned = s.returned

theorem spawnReady_same (cap : Option Int) (order : List String) (s : State) :
    SameButStarted s (spawnReady cap order s) := by
  induction order generalizing s with
  | nil => constructor <;> rfl
  | cons sid rest ih =>
      rw [spawnReady]
      split_ifs
      · constructor <;> rfl
      · obtain ⟨⟩ := ih (s.spawn sid)
        constructor <;> assumption
      · exact ih s

theorem spawnReady_unstarted_subset (cap : Option Int) (order : List String) (s : State) :
    (spawnReady cap order s).unstarted ⊆ s.unstarted := by
  induction order generalizing s with
  | nil => exact Finset.Subset.refl _
  | cons sid rest ih =>
      rw [spawnReady]
      split_ifs
      · exact Finset.Subset.refl _
      · exact (ih _).trans (Finset.erase_subset _ _)
      · exact ih s

/-- `_spawn_ready` stops at the cap or with every unstarted step blocked. -/
theorem spawnReady_saturated (cap : Option Int) (order : List String) (s : State) :
    capReached cap (spawnReady cap order s).running = true ∨
      ∀ sid ∈ order, sid ∈ (spawnReady cap order s).unstarted → s.pendingDeps sid ≠ ∅ := by
  induction order generalizing s with
  | nil => simp
  | cons sid rest ih =>
      rw [spawnReady]
      split_ifs with hcap hready
      · exact .inl hcap
      · rcases ih (s := s.spawn sid) with hreached | hblocked
        · exact .inl hreached
        · refine .inr fun later hlater hunstarted => ?_
          rcases List.mem_cons.mp hlater with rfl | hlater
          · have := spawnReady_unstarted_subset _ _ _ hunstarted
            simp [State.spawn] at this
          · exact hblocked later hlater hunstarted
      · rcases ih (s := s) with hreached | hblocked
        · exact .inl hreached
        · refine .inr fun later hlater hunstarted => ?_
          rcases List.mem_cons.mp hlater with rfl | hlater
          · exact hready
          · exact hblocked later hlater hunstarted

/-! ### The failure drain -/

def drainedStarts (s : State) : Finset String :=
  (queuedResults s.queue).foldl (fun seen entry => trackYielded entry.1 entry.2 seen) s.seenStarts

theorem foldl_onEvent (entries : List (String × AgentEvent)) (s : State) :
    entries.foldl (fun s entry => onEvent entry.1 entry.2 s) s =
      { s with
        yielded := s.yielded ++ entries.map fun entry => .event entry.2
        seenStarts :=
          entries.foldl (fun seen entry => trackYielded entry.1 entry.2 seen) s.seenStarts } := by
  induction entries generalizing s with
  | nil => simp
  | cons entry rest ih =>
      rw [List.foldl_cons, ih]
      simp [onEvent, State.yield]

theorem drainQueue_eq (s : State) :
    drainQueue s =
      { s with
        queue := []
        yielded := s.yielded ++ ((queuedResults s.queue).map fun entry => .event entry.2) ++
          ((drainedStarts s).sort (· ≤ ·)).map fun id => .event (cancelledResult id)
        seenStarts := drainedStarts s } := by
  unfold drainQueue
  rw [foldl_onEvent]
  simp [State.yield, drainedStarts, Function.comp_def]

/-! ### How a run begins -/

/-- The state `run_dag` is entered in: ended at once, or the initial tables with the first ready
steps started. -/
theorem starts_cases {cfg : Config} {s : State} (h : Starts cfg s) :
    (∃ events result, s = ((initialState cfg cfg.steps).yield events).finish result ∧
      (result.ok = true → cfg.steps = []) ∧ ∀ ev ∈ events, ∃ canSkip, ev = .preflight canSkip) ∨
    (∀ st ∈ cfg.steps, st.id ∉ privateMachineOutputKeys) ∧
    ∃ order t, order.Nodup ∧ order.toFinset = (initialState cfg cfg.steps).unstarted ∧
      t = spawnReady cfg.maxParallelism order
        ((initialState cfg cfg.steps).yield (openingEvents cfg cfg.steps)) ∧
      (t.running = ∅ ∧ s = (t.yield [completionEvent t .failed]).finish
        (failedResult "no runnable steps (all blocked by dependencies)") ∨
        t.running ≠ ∅ ∧ s = t) := by
  unfold Starts at h
  unfold Config.steps
  split at h
  · rename_i steps hordered
    obtain ⟨order, hlaunch⟩ := h
    unfold launch at hlaunch
    simp only at hlaunch
    split at hlaunch
    · rename_i hnil
      refine .inl ⟨[], { ok := true }, ?_, fun _ => hnil, by simp⟩
      simpa [State.yield] using (Option.some.inj hlaunch).symm
    · split at hlaunch
      · refine .inl ⟨[], failedResult "meta-skill plan uses a reserved runtime step id", ?_,
          fun hok => ?_, by simp⟩
        · simpa [State.yield] using (Option.some.inj hlaunch).symm
        · simp [failedResult] at hok
      · rename_i hreserved
        split at hlaunch
        · rename_i canSkip _
          refine .inl ⟨[.preflight canSkip], _, (Option.some.inj hlaunch).symm, fun hok => ?_,
            by simp⟩
          simp at hok
        · split at hlaunch
          · simp at hlaunch
          · rename_i t hrespawn
            obtain ⟨hnodup, horder, rfl⟩ := respawn_some hrespawn
            refine .inr ⟨by simpa using hreserved, order, _, hnodup, horder, rfl, ?_⟩
            split_ifs at hlaunch with hrunning
            · exact .inl ⟨hrunning, (Option.some.inj hlaunch).symm⟩
            · exact .inr ⟨hrunning, (Option.some.inj hlaunch).symm⟩
  · refine .inl ⟨[], failedResult "plan topology error", ?_, fun _ => rfl, by simp⟩
    simpa [State.yield] using h

end OpenStarry.MetaSkill
