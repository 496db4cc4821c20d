import OpenStarry.Lib.TransitionSystem
import OpenStarry.Plans.Overlay
import OpenStarry.Plans.Runs

/-!
# What every plan run keeps

A run in any reachable state has an overlay that its revision accepts, works on its current step
only, and is completed only with every step closed. Besides a reopening, an operation leaves closed
steps and ended runs alone, unless a task claims an ended run after its session moved to another
plan.
-/

namespace OpenStarry.Plans

open Lib Text Session

/-! ### Runs in order -/

structure RunOk (steps : PlanSteps) (run : PlanRun) : Prop where
  overlay : Overlay steps run.stepStates run.currentStepId
  delivery : run.status = .running → run.currentStepId = none → AllClosed run.stepStates
  completed : run.status = .completed → AllClosed run.stepStates

namespace Operation

def reopens (id : Str) : Operation → Bool
  | reopen runId _ _ _ => runId = id
  | _ => false

end Operation

/-- What an operation may do to one run. -/
structure Change (op : Operation) (id : Str) (run run' : PlanRun) : Prop where
  revision : run'.planRevisionId = run.planRevisionId
  ok : ∀ steps, RunOk steps run → RunOk steps run'
  closed : ∀ steps, RunOk steps run → op.reopens id = false →
    KeepsClosed run.stepStates run'.stepStates
  ended : op.reopens id = false → run.status.isActive = false → run' = run

section Change

variable {op : Operation} {id : Str} {run run' run'' : PlanRun}

theorem Change.refl (op : Operation) (id : Str) (run : PlanRun) : Change op id run run :=
  ⟨rfl, fun _ h => h, fun _ _ _ => .refl _, fun _ _ => rfl⟩

theorem Change.trans (h : Change op id run run') (h' : Change op id run' run'') :
    Change op id run run'' := by
  refine ⟨h'.revision.trans h.revision, fun steps hok => h'.ok steps (h.ok steps hok),
    fun steps hok hreopen => ?_, fun hreopen hended => ?_⟩
  · exact (h.closed steps hok hreopen).trans (h'.closed steps (h.ok steps hok) hreopen)
  · have heq := h.ended hreopen hended
    rw [h'.ended hreopen (heq ▸ hended), heq]

theorem Change.of_steps (hactive : run.status.isActive = true)
    (hrevision : run'.planRevisionId = run.planRevisionId)
    (hsteps : run'.stepStates = run.stepStates) (hcurrent : run'.currentStepId = run.currentStepId)
    (hrunning : run'.status ≠ .running) (hcompleted : run'.status ≠ .completed) :
    Change op id run run' := by
  refine ⟨hrevision, fun steps hok => ⟨?_, ?_, ?_⟩, fun steps _ _ => ?_, fun _ hended => ?_⟩
  · rw [hsteps, hcurrent]
    exact hok.overlay
  · exact fun h => absurd h hrunning
  · exact fun h => absurd h hcompleted
  · rw [hsteps]
    exact .refl _
  · rw [hactive] at hended
    cases hended

theorem Change.supersede (hactive : run.status.isActive = true) (reason : Str) (now : Int) :
    Change op id run (run.supersede reason now) :=
  .of_steps hactive rfl rfl rfl PlanRunStatus.noConfusion PlanRunStatus.noConfusion

theorem Change.complete (hrunning : run.status = .running) (hcurrent : run.currentStepId = none)
    (now : Int) : Change op id run (run.complete now) := by
  refine ⟨rfl, fun steps hok => ⟨hok.overlay, ?_, fun _ => hok.delivery hrunning hcurrent⟩,
    fun _ _ _ => .refl _, fun _ hended => ?_⟩
  · intro h
    cases h
  · rw [hrunning] at hended
    cases hended

end Change

/-! ### Stores -/

def Valid (db : PlanStore) : Prop :=
  ∀ (id : Str) (run : PlanRun), db.runs.get? id = some run →
    ∃ revision, db.revisions.get? run.planRevisionId = some revision ∧ RunOk revision.steps run

/-- From one store to another: runs change as the operation may change them, and new ones are in
order. -/
structure Moved (op : Operation) (db db' : PlanStore) : Prop where
  revisions : ∀ (id : Str) (revision : PlanRevision),
    db.revisions.get? id = some revision → db'.revisions.get? id = some revision
  kept : ∀ (id : Str) (run : PlanRun), db.runs.get? id = some run →
    ∃ run', db'.runs.get? id = some run' ∧ Change op id run run'
  fresh : ∀ (id : Str) (run' : PlanRun), db'.runs.get? id = some run' → db.runs.get? id = none →
    ∃ revision, db'.revisions.get? run'.planRevisionId = some revision ∧ RunOk revision.steps run'

namespace Moved

variable {op : Operation} {db db' db'' : PlanStore}

theorem valid (h : Moved op db db') (hvalid : Valid db) : Valid db' := by
  intro id run' hrun'
  cases hrun : db.runs.get? id with
  | none => exact h.fresh id run' hrun' hrun
  | some run =>
      obtain ⟨revision, hrevision, hok⟩ := hvalid id run hrun
      obtain ⟨after, hafter, hchange⟩ := h.kept id run hrun
      obtain rfl : after = run' := Option.some.inj (hafter.symm.trans hrun')
      rw [hchange.revision]
      exact ⟨revision, h.revisions _ _ hrevision, hchange.ok _ hok⟩

theorem trans (h : Moved op db db') (h' : Moved op db' db'') : Moved op db db'' := by
  refine ⟨fun id revision hrevision => h'.revisions _ _ (h.revisions _ _ hrevision),
    fun id run hrun => ?_, fun id run'' hrun'' hnone => ?_⟩
  · obtain ⟨run', hrun', hchange⟩ := h.kept id run hrun
    obtain ⟨run'', hrun'', hchange'⟩ := h'.kept id run' hrun'
    exact ⟨run'', hrun'', hchange.trans hchange'⟩
  · cases hrun' : db'.runs.get? id with
    | none => exact h'.fresh id run'' hrun'' hrun'
    | some run' =>
        obtain ⟨revision, hrevision, hok⟩ := h.fresh id run' hrun' hnone
        obtain ⟨after, hafter, hchange⟩ := h'.kept id run' hrun'
        obtain rfl : after = run'' := Option.some.inj (hafter.symm.trans hrun'')
        rw [hchange.revision]
        exact ⟨revision, h'.revisions _ _ hrevision, hchange.ok _ hok⟩

theorem of_runs_eq (hruns : db'.runs = db.runs)
    (hrevisions : ∀ (id : Str) (revision : PlanRevision),
      db.revisions.get? id = some revision → db'.revisions.get? id = some revision) :
    Moved op db db' := by
  refine ⟨hrevisions, fun id run hrun => ⟨run, hruns ▸ hrun, .refl _ _ _⟩, fun id run' h hnone => ?_⟩
  rw [hruns, hnone] at h
  cases h

theorem refl (op : Operation) (db : PlanStore) : Moved op db db :=
  of_runs_eq rfl fun _ _ h => h

theorem of_update {condition : Str → PlanRun → Bool} {f : PlanRun → PlanRun}
    (h : db.update condition f = .ok db')
    (hchange : ∀ (id : Str) (run : PlanRun), db.runs.get? id = some run → condition id run = true →
      Change op id run (f run)) : Moved op db db' := by
  rw [PlanStore.update, map_eq_ok] at h
  obtain ⟨runs, hruns, rfl⟩ := h
  rw [demand_eq_ok] at hruns
  have hrelated : Table.Related (Change op) db.runs.toTable runs.toTable := by
    rw [IndexedTable.toTable_of_update? hruns]
    exact Table.Related.update (Change.refl op) hchange
  refine ⟨fun _ _ h => h, fun id run hrun => hrelated.of_some hrun, fun id run' hrun' hnone => ?_⟩
  have hnone' := hrelated.of_none hnone
  rw [hnone'] at hrun'
  cases hrun'

theorem of_atKey {id : Str} {run : PlanRun} {condition : PlanRun → Bool} {f : PlanRun → PlanRun}
    (h : db.update (Table.atKey id condition) f = .ok db') (hrun : db.runs.get? id = some run)
    (hchange : condition run = true → Change op id run (f run)) : Moved op db db' := by
  apply of_update h
  intro key row hrow hcondition
  rw [Table.atKey, Bool.and_eq_true, decide_eq_true_eq] at hcondition
  obtain ⟨rfl, hcondition⟩ := hcondition
  obtain rfl : row = run := Option.some.inj (hrow.symm.trans hrun)
  exact hchange hcondition

theorem of_returned {id : Str} {answer : PlanRun × PlanStore}
    (h : PlanStore.returned id db = .ok answer) : answer.2 = db := by
  rw [PlanStore.returned, map_eq_ok] at h
  obtain ⟨row, -, rfl⟩ := h
  rfl

theorem of_write {id : Str} {run : PlanRun} {condition : PlanRun → Bool} {f : PlanRun → PlanRun}
    {answer : PlanRun × PlanStore} (h : db.write id condition f = .ok answer)
    (hrun : db.runs.get? id = some run) (hchange : condition run = true → Change op id run (f run)) :
    Moved op db answer.2 := by
  simp only [PlanStore.write, bind_eq_ok, require_eq_ok] at h
  obtain ⟨after, hafter, -, -, hreturned⟩ := h
  rw [of_returned hreturned]
  exact of_atKey hafter hrun hchange

end Moved

theorem get?_of_load {db : PlanStore} {id : Str} {expected : Int} {run : PlanRun}
    (h : db.loadPlanRunForCas id expected = .ok run) :
    db.runs.get? id = some run ∧ run.stateRevision = expected := by
  simp only [PlanStore.loadPlanRunForCas, bind_eq_ok, demand_eq_ok, require_eq_ok, pure_eq_ok] at h
  obtain ⟨row, hrow, -, hrevision, -, -, rfl⟩ := h
  exact ⟨hrow, hrevision⟩

/-! ### Transactions on one run -/

section Transactions

variable {op : Operation} {db : PlanStore} {id : Str} {expected now : Int}
  {answer : PlanRun × PlanStore}

def claimsStaleRun (db : PlanStore) : Operation → Prop
  | .markRunning id expected task _ => task ≠ [] ∧ ∃ run,
      db.loadPlanRunForCas id expected = .ok run ∧ run.status.isActive = false ∧
        db.isCurrentPlan run = false
  | _ => False

theorem moved_markPlanRunRunning {task : Str}
    (hstale : ¬ claimsStaleRun db (.markRunning id expected task now))
    (h : db.markPlanRunRunning id expected now task = .ok answer) : Moved op db answer.2 := by
  simp only [PlanStore.markPlanRunRunning, bind_eq_ok, require_eq_ok] at h
  obtain ⟨-, htask, run, hload, h⟩ := h
  obtain ⟨hrun, -⟩ := get?_of_load hload
  split_ifs at h with hcurrent
  · rw [bind_eq_ok] at h
    obtain ⟨after, hafter, hreturned⟩ := h
    rw [Moved.of_returned hreturned]
    apply Moved.of_atKey hafter hrun
    intro _
    apply Change.supersede
    by_contra hended
    apply hstale
    exact ⟨htask, run, hload, by simpa using hended, by simpa using hcurrent⟩
  · simp only [bind_eq_ok, require_eq_ok] at h
    obtain ⟨-, hstatus, -, -, -, hstep, hwrite⟩ := h
    apply Moved.of_write hwrite hrun
    intro _
    have hactive : run.status.isActive = true := by
      rcases hstatus with hstatus | hstatus | hstatus <;> rw [hstatus] <;> rfl
    -- the step to go on with is open, and nobody works on another one
    have hresume (steps : PlanSteps) (hok : RunOk steps run) (stepId : Str)
        (hfirst : run.currentStepId.or (firstOpen run.stepStates) = some stepId) :
        Overlay steps (enterFirst stepId run.stepStates) (some stepId) ∧
          KeepsClosed run.stepStates (enterFirst stepId run.stepStates) := by
      obtain ⟨state, hmem, hid, hopen⟩ : ∃ state ∈ run.stepStates,
          state.stepId = stepId ∧ state.status.isTerminal = false := by
        cases hcurrentStep : run.currentStepId with
        | none =>
            rw [hcurrentStep, Option.none_or] at hfirst
            exact firstOpen_eq_some hfirst
        | some other =>
            rw [hcurrentStep, Option.some_or, Option.some.injEq] at hfirst
            exact hok.overlay.current stepId (hcurrentStep.trans (congrArg some hfirst))
      refine hok.overlay.enterFirst (fun other hother => ?_) hmem hid hopen
      rw [hother, Option.some_or] at hfirst
      exact Option.some.inj hfirst
    have hdone (steps : PlanSteps) (hok : RunOk steps run)
        (hfirst : run.currentStepId.or (firstOpen run.stepStates) = none) :
        Overlay steps run.stepStates none ∧ AllClosed run.stepStates := by
      rw [Option.or_eq_none_iff] at hfirst
      exact ⟨hfirst.1 ▸ hok.overlay, firstOpen_eq_none hfirst.2⟩
    refine ⟨rfl, fun steps hok => ⟨?_, ?_, ?_⟩, fun steps hok _ => ?_, fun _ hended => ?_⟩
    · dsimp only
      split
      · rename_i stepId hfirst
        rw [hfirst]
        exact (hresume steps hok stepId hfirst).1
      · rename_i hfirst
        rw [hfirst]
        exact (hdone steps hok hfirst).1
    · intro _ hnone
      dsimp only at hnone ⊢
      rw [hnone]
      exact (hdone steps hok hnone).2
    · intro hcompleted
      cases hcompleted
    · dsimp only
      split
      · rename_i stepId hfirst
        exact (hresume steps hok stepId hfirst).2
      · exact .refl _
    · rw [hactive] at hended
      cases hended

theorem moved_checkpointPlanRun {stepId stepStatus : Str} {task : Option Str} {reason : Json}
    (h : db.checkpointPlanRun id expected now stepId stepStatus task reason = .ok answer) :
    Moved op db answer.2 := by
  simp only [PlanStore.checkpointPlanRun, bind_eq_ok, require_eq_ok] at h
  obtain ⟨run, hload, -, hrunning, -, -, -, hcurrent, ⟨states, current, status⟩, hcheckpoint,
    hwrite⟩ := h
  apply Moved.of_write hwrite (get?_of_load hload).1
  intro _
  have hspec (steps : PlanSteps) (hok : RunOk steps run) :=
    Overlay.checkpoint (hcurrent ▸ hok.overlay : Overlay steps run.stepStates (some stepId)) hcheckpoint
  refine ⟨rfl, fun steps hok => ⟨(hspec steps hok).1, ?_, ?_⟩, fun steps hok _ => (hspec steps hok).2.1,
    fun _ hended => ?_⟩
  · intro hstatus hnone
    rcases (hspec steps hok).2.2 with hblocked | ⟨-, hclosed⟩
    · rw [hblocked] at hstatus
      cases hstatus
    · exact hclosed hnone
  · intro hstatus
    rcases (hspec steps hok).2.2 with hblocked | ⟨hrunning', -⟩
    · rw [hblocked] at hstatus
      cases hstatus
    · rw [hrunning'] at hstatus
      cases hstatus
  · rw [hrunning] at hended
    cases hended

theorem moved_completePlanRun {task : Str}
    (h : db.completePlanRun id expected now task = .ok answer) : Moved op db answer.2 := by
  simp only [PlanStore.completePlanRun, bind_eq_ok, require_eq_ok] at h
  obtain ⟨-, -, run, hload, -, hrunning, -, -, -, hcurrent, -, -, hwrite⟩ := h
  apply Moved.of_write hwrite (get?_of_load hload).1
  intro _
  exact Change.complete hrunning hcurrent now

theorem moved_reopenCompletedPlanRun {reason : Str} {expected' now' : Int}
    (h : db.reopenCompletedPlanRun id expected now reason = .ok answer) :
    Moved (.reopen id expected' reason now') db answer.2 := by
  simp only [PlanStore.reopenCompletedPlanRun, bind_eq_ok, require_eq_ok] at h
  obtain ⟨-, -, run, hload, -, hcompleted, h⟩ := h
  split at h
  · cases h
  · rename_i first rest hstates
    apply Moved.of_write h (get?_of_load hload).1
    intro _
    have hreopens : (Operation.reopen id expected' reason now').reopens id = true := by
      simp [Operation.reopens]
    refine ⟨rfl, fun steps hok => ⟨?_, ?_, ?_⟩, fun _ _ hnot => ?_, fun hnot => ?_⟩
    · have hclosed := hok.completed hcompleted
      rw [hstates] at hclosed
      exact overlay_reopen (hstates ▸ hok.overlay.fits) hclosed
    · intro hstatus
      cases hstatus
    · intro hstatus
      cases hstatus
    · rw [hreopens] at hnot
      cases hnot
    · rw [hreopens] at hnot
      cases hnot

theorem moved_pausePlanRun {reason : Str} {task driverKind driverId : Option Str}
    (h : db.pausePlanRun id expected now reason task driverKind driverId = .ok answer) :
    Moved op db answer.2 := by
  simp only [PlanStore.pausePlanRun, bind_eq_ok, require_eq_ok] at h
  obtain ⟨-, -, run, hload, -, hstatus, -, -, -, -, -, -, hwrite⟩ := h
  apply Moved.of_write hwrite (get?_of_load hload).1
  intro _
  have hactive : run.status.isActive = true := by
    rcases hstatus with hstatus | hstatus | hstatus <;> rw [hstatus] <;> rfl
  exact .of_steps hactive rfl rfl rfl PlanRunStatus.noConfusion PlanRunStatus.noConfusion

theorem moved_cancelPlanRun {reason : Str} {task : Option Str}
    (h : db.cancelPlanRun id expected now reason task = .ok answer) : Moved op db answer.2 := by
  simp only [PlanStore.cancelPlanRun, bind_eq_ok, require_eq_ok] at h
  obtain ⟨-, -, run, hload, -, hactive, -, -, hwrite⟩ := h
  apply Moved.of_write hwrite (get?_of_load hload).1
  intro _
  exact .of_steps hactive rfl rfl rfl PlanRunStatus.noConfusion PlanRunStatus.noConfusion

theorem moved_supersedeActivePlanRuns {sessionKey reason : Str} {db' : PlanStore}
    (h : db.supersedeActivePlanRuns now sessionKey reason = .ok db') : Moved op db db' := by
  apply Moved.of_update h
  intro id run _ hcondition
  rw [Bool.and_eq_true] at hcondition
  exact .supersede hcondition.2 _ _

end Transactions

/-! ### New runs and revisions -/

section Starting

variable {op : Operation} {db db' : PlanStore} {id : Str} {now : Int}

theorem activeRun_eq_some {sessionKey : Str} {entry : Str × PlanRun}
    (h : db.activeRun sessionKey = some entry) :
    db.runs.get? entry.1 = some entry.2 ∧ entry.2.status.isActive = true := by
  have hcondition := List.find?_some h
  rw [Bool.and_eq_true] at hcondition
  exact ⟨Table.get?_of_mem (List.mem_of_find?_eq_some h), hcondition.2⟩

theorem moved_supersede {sessionKey reason : Str} {entry : Str × PlanRun}
    (hactive : db.activeRun sessionKey = some entry)
    (h : db.update (Table.atKey entry.1 fun _ => true) (PlanRun.supersede reason now) = .ok db') :
    Moved op db db' := by
  obtain ⟨hrun, hstatus⟩ := activeRun_eq_some hactive
  apply Moved.of_atKey h hrun
  intro _
  exact .supersede hstatus _ _

theorem runOk_preparePlanRun {run : PlanRunRecord (List Json)} {revisionId : Str}
    {revision : PlanRevision} {prepared : PlanRun}
    (h : PlanStore.preparePlanRun id run revisionId revision = .ok prepared) :
    prepared.planRevisionId = revisionId ∧ prepared.status = .queued ∧
      Overlay revision.steps prepared.stepStates none ∧ prepared.currentStepId = none := by
  simp only [PlanStore.preparePlanRun, bind_eq_ok, require_eq_ok, pure_eq_ok] at h
  obtain ⟨-, hstatus, -, hrevision, -, -, -, -, -, -, -, -, -, -, task, -, states, hstates, -, hpending,
    rfl⟩ := h
  refine ⟨hrevision, hstatus, overlay_none ?_ ?_, rfl⟩
  · unfold PlanStore.firstStates at hstates
    split_ifs at hstates
    · exact forall₂_of_normalizePlanStepStates hstates
    · exact Except.ok.inj hstates ▸ accepted_iff.mp (accepted_initial _)
  · intro state hmem hworking
    have hpending := hpending state hmem
    rcases hworking with hworking | hworking <;> rw [hworking] at hpending <;> cases hpending

theorem moved_attachTask {existing : PlanRun} {run : PlanRunRecord (List Json)}
    {answer : PlanRun × PlanStore} (hrun : db.runs.get? id = some existing)
    (h : db.attachTask id now existing run = .ok answer) : Moved op db answer.2 := by
  simp only [PlanStore.attachTask, bind_eq_ok, require_eq_ok] at h
  obtain ⟨-, -, -, -, h⟩ := h
  split_ifs at h with hnone hpaused hqueued
  · rw [pure_eq_ok] at h
    rw [← h]
    exact .refl _ _
  · simp only [bind_eq_ok, require_eq_ok] at h
    obtain ⟨-, -, hwrite⟩ := h
    apply Moved.of_write hwrite hrun
    intro _
    have hactive : existing.status.isActive = true := by
      rcases hpaused with hpaused | hpaused <;> rw [hpaused] <;> rfl
    exact .of_steps hactive rfl rfl rfl PlanRunStatus.noConfusion PlanRunStatus.noConfusion
  · rw [pure_eq_ok] at h
    rw [← h]
    exact .refl _ _

theorem Moved.insert {run : PlanRun} {revision : PlanRevision}
    {runs : IndexedTable Str PlanRun Str PlanRun.activeSession}
    (hinsert : db.runs.insert? id run = some runs)
    (hrevision : db.revisions.get? run.planRevisionId = some revision)
    (hok : RunOk revision.steps run) : Moved op db { db with runs := runs } := by
  have hget (other : Str) :=
    Table.get?_of_insert? other (IndexedTable.toTable_of_insert? hinsert)
  refine ⟨fun _ _ h => h, fun other row hrow => ⟨row, ?_, .refl _ _ _⟩, fun other row hrow hnone => ?_⟩
  · have hne : other ≠ id := by
      rintro rfl
      rw [(hget other).1] at hrow
      cases hrow
    exact (hget other).2.trans ((if_neg hne).trans hrow)
  · by_cases hother : other = id
    · have hrow' : some row = some run := hrow.symm.trans ((hget other).2.trans (if_pos hother))
      rw [Option.some.inj hrow']
      exact ⟨revision, hrevision, hok⟩
    · have hrow' := hrow.symm.trans ((hget other).2.trans (if_neg hother))
      rw [hnone] at hrow'
      cases hrow'

theorem moved_startPlanRun {run : PlanRunRecord (List Json)} {answer : PlanRun × PlanStore}
    (h : db.startPlanRun id now run = .ok answer) : Moved op db answer.2 := by
  unfold PlanStore.startPlanRun at h
  split at h
  · rename_i existing hexisting
    exact moved_attachTask hexisting h
  · simp only [bind_eq_ok, demand_eq_ok, require_eq_ok, pure_eq_ok] at h
    obtain ⟨session, -, -, -, revision, hrevision, prepared, hprepared, -, -, displaced, hdisplaced,
      runs, hruns, rfl⟩ := h
    obtain ⟨hprepared, hqueued, hoverlay, hcurrent⟩ := runOk_preparePlanRun hprepared
    have hdisplaced : Moved op db displaced := by
      cases hactive : db.activeRun run.sessionKey with
      | none =>
          rw [hactive] at hdisplaced
          rw [← Except.ok.inj hdisplaced]
          exact .refl _ _
      | some entry =>
          rw [hactive, PlanStore.displace, bind_eq_ok] at hdisplaced
          obtain ⟨-, -, hupdate⟩ := hdisplaced
          exact moved_supersede hactive hupdate
    apply hdisplaced.trans
    refine Moved.insert hruns (hdisplaced.revisions _ _ (hprepared ▸ hrevision)) ⟨?_, ?_, ?_⟩
    · exact hcurrent ▸ hoverlay
    · intro hrunning
      have hrunning : prepared.status = .running := hrunning
      rw [hqueued] at hrunning
      cases hrunning
    · intro hcompleted
      have hcompleted : prepared.status = .completed := hcompleted
      rw [hqueued] at hcompleted
      cases hcompleted

theorem moved_createPlanRevision {planContentHash : Str → Str → List PlanStep → Str}
    {revision : PlanRevisionRecord (List Json)} {parent : Option Str}
    {answer : PlanRevision × PlanStore}
    (h : db.createPlanRevision planContentHash id revision parent = .ok answer) :
    Moved op db answer.2 := by
  simp only [PlanStore.createPlanRevision, bind_eq_ok] at h
  obtain ⟨prepared, -, h⟩ := h
  split at h
  · simp only [bind_eq_ok, pure_eq_ok] at h
    obtain ⟨-, -, rfl⟩ := h
    exact .refl _ _
  · simp only [bind_eq_ok, demand_eq_ok, require_eq_ok] at h
    obtain ⟨session, -, -, -, -, -, -, -, -, -, revisions, hrevisions, -, -, h⟩ := h
    have hactivated : Moved op db
        { db with
          revisions := revisions
          sessions := Function.update db.sessions prepared.sourceSessionKey
            (some { session with activePlanRevisionId := some id }) } := by
      refine Moved.of_runs_eq rfl ?_
      intro other row hrow
      obtain ⟨hnone, hget⟩ := Table.get?_of_insert? other hrevisions
      have hne : other ≠ id := by
        rintro rfl
        rw [hnone] at hrow
        cases hrow
      exact hget.trans ((if_neg hne).trans hrow)
    split at h
    · rw [pure_eq_ok] at h
      rw [← h]
      exact hactivated
    · rename_i activeId row hactive
      simp only [bind_eq_ok, pure_eq_ok] at h
      obtain ⟨after, hafter, rfl⟩ := h
      exact hactivated.trans (moved_supersede hactive hafter)

end Starting

/-! ### Restart recovery -/

section Recovery

variable {op : Operation} {db db' : PlanStore} {now : Int}
  {tasks : Str → Option PlanStore.TaskEnd}

theorem moved_releaseAbandonedRuns (h : db.releaseAbandonedRuns now tasks = .ok db') :
    Moved op db db' := by
  apply Moved.of_update h
  intro id run _ hcondition
  have hactive : run.status.isActive = true := by
    rw [Bool.and_eq_true, Bool.or_eq_true, decide_eq_true_eq, decide_eq_true_eq] at hcondition
    rcases hcondition.1 with hstatus | hstatus <;> rw [hstatus] <;> rfl
  exact .of_steps hactive rfl rfl rfl PlanRunStatus.noConfusion PlanRunStatus.noConfusion

theorem moved_reconcile {selected : Str × PlanRun} (hactive : selected.2.status.isActive = true)
    (h : PlanStore.reconcile now tasks db selected = .ok db') : Moved op db db' := by
  unfold PlanStore.reconcile at h
  dsimp only at h
  split at h
  · apply Moved.of_update h
    intro id run _ hcondition
    simp only [Table.atKey, Bool.and_eq_true, decide_eq_true_eq] at hcondition
    rw [← hcondition.2.2] at hactive
    exact .of_steps hactive rfl rfl rfl PlanRunStatus.noConfusion PlanRunStatus.noConfusion
  · split_ifs at h with hlive hqueued hdone
    · rw [← Except.ok.inj h]
      exact .refl _ _
    · apply Moved.of_update h
      intro id run _ hcondition
      simp only [Table.atKey, Bool.and_eq_true, decide_eq_true_eq] at hcondition
      have hstatus : run.status.isActive = true := by
        rw [hcondition.2.2]
        rfl
      exact .of_steps hstatus rfl rfl rfl PlanRunStatus.noConfusion PlanRunStatus.noConfusion
    · apply Moved.of_update h
      intro id run _ hcondition
      simp only [Table.atKey, Bool.and_eq_true, decide_eq_true_eq] at hcondition
      exact Change.complete hcondition.2.2.1 hcondition.2.2.2 now
    · apply Moved.of_update h
      intro id run _ hcondition
      simp only [Table.atKey, Bool.and_eq_true, decide_eq_true_eq] at hcondition
      have hstatus : run.status.isActive = true := by
        rw [hcondition.2.2]
        rfl
      exact .of_steps hstatus rfl rfl rfl PlanRunStatus.noConfusion PlanRunStatus.noConfusion

theorem moved_reconcile_all {selected : List (Str × PlanRun)}
    (hactive : ∀ entry ∈ selected, entry.2.status.isActive = true)
    (h : selected.foldlM (PlanStore.reconcile now tasks) db = .ok db') : Moved op db db' := by
  induction selected generalizing db with
  | nil =>
      rw [List.foldlM_nil, pure_eq_ok] at h
      rw [← h]
      exact .refl _ _
  | cons entry rest ih =>
      rw [List.foldlM_cons, bind_eq_ok] at h
      obtain ⟨middle, hmiddle, hrest⟩ := h
      obtain ⟨hentry, hrestActive⟩ := List.forall_mem_cons.mp hactive
      exact (moved_reconcile hentry hmiddle).trans (ih hrestActive hrest)

theorem moved_recoverPlanRuns (h : db.recoverPlanRuns now tasks = .ok db') : Moved op db db' := by
  simp only [PlanStore.recoverPlanRuns, bind_eq_ok] at h
  obtain ⟨released, hreleased, hrest⟩ := h
  apply (moved_releaseAbandonedRuns hreleased).trans
  apply moved_reconcile_all ?_ hrest
  intro entry hentry
  rw [PlanStore.unsettled, List.mem_mergeSort, List.mem_filter, Bool.or_eq_true, decide_eq_true_eq,
    decide_eq_true_eq] at hentry
  rcases hentry.2 with hstatus | hstatus <;> rw [hstatus] <;> rfl

end Recovery

/-! ### Steps and runs -/

section Runs

variable {planContentHash : Str → Str → List PlanStep → Str} {op : Operation} {db db' : PlanStore}

theorem moved_perform (hstale : ¬ claimsStaleRun db op) (h : perform planContentHash op db = .ok db') :
    Moved op db db' := by
  cases op with
  | sessions after =>
      rw [← Except.ok.inj h]
      exact Moved.of_runs_eq rfl fun _ _ h => h
  | createRevision revisionId revision parent =>
      rw [perform, map_eq_ok] at h
      obtain ⟨answer, hanswer, rfl⟩ := h
      exact moved_createPlanRevision hanswer
  | start runId run now =>
      rw [perform, map_eq_ok] at h
      obtain ⟨answer, hanswer, rfl⟩ := h
      exact moved_startPlanRun hanswer
  | supersedeActive sessionKey reason now => exact moved_supersedeActivePlanRuns h
  | markRunning runId expected task now =>
      rw [perform, map_eq_ok] at h
      obtain ⟨answer, hanswer, rfl⟩ := h
      exact moved_markPlanRunRunning hstale hanswer
  | checkpoint runId expected stepId stepStatus task reason now =>
      rw [perform, map_eq_ok] at h
      obtain ⟨answer, hanswer, rfl⟩ := h
      exact moved_checkpointPlanRun hanswer
  | complete runId expected task now =>
      rw [perform, map_eq_ok] at h
      obtain ⟨answer, hanswer, rfl⟩ := h
      exact moved_completePlanRun hanswer
  | reopen runId expected reason now =>
      rw [perform, map_eq_ok] at h
      obtain ⟨answer, hanswer, rfl⟩ := h
      exact moved_reopenCompletedPlanRun hanswer
  | pause runId expected reason task driverKind driverId now =>
      rw [perform, map_eq_ok] at h
      obtain ⟨answer, hanswer, rfl⟩ := h
      exact moved_pausePlanRun hanswer
  | cancel runId expected reason task now =>
      rw [perform, map_eq_ok] at h
      obtain ⟨answer, hanswer, rfl⟩ := h
      exact moved_cancelPlanRun hanswer
  | restart tasks now => exact moved_recoverPlanRuns h

theorem moved_step (hstale : ¬ claimsStaleRun db op) (h : step planContentHash db op = some db') :
    Moved op db db' := by
  unfold step at h
  split at h
  · rename_i after hafter
    rw [← Option.some.inj h]
    exact moved_perform hstale hafter
  · rw [← Option.some.inj h]
    exact .refl _ _

theorem valid_of_initial (h : initial db) : Valid db := by
  intro id run hrun
  rw [h.2] at hrun
  cases hrun

def noStaleClaim (db : PlanStore) (op : Operation) : Prop := ¬ claimsStaleRun db op

theorem valid_of_reach (h : Reach initial (step planContentHash) noStaleClaim db) : Valid db := by
  apply h.invariant
  · intro s hs
    exact valid_of_initial hs
  · intro s a s' hvalid hguard hstep
    exact (moved_step hguard hstep).valid hvalid

/-! ### What holds in every state and over every step -/

/-- The runs of a store as their readers rely on them. -/
structure Tidy (db : PlanStore) : Prop where
  accepted : ∀ (id : Str) (run : PlanRun), db.runs.get? id = some run →
    ∃ revision, db.revisions.get? run.planRevisionId = some revision ∧
      normalizePlanStepStates (run.stepStates.map StepState.toJson) revision.steps.steps =
        .ok run.stepStates
  oneInProgress : ∀ (id : Str) (run : PlanRun), db.runs.get? id = some run →
    (run.stepStates.filter fun state => state.status = .inProgress).length ≤ 1
  current : ∀ (id : Str) (run : PlanRun), db.runs.get? id = some run → ∀ state ∈ run.stepStates,
    state.status = .inProgress → run.currentStepId = some state.stepId
  oneActive : ∀ (id id' : Str) (run run' : PlanRun), db.runs.get? id = some run →
    db.runs.get? id' = some run' → run.status.isActive = true → run'.status.isActive = true →
    run.sessionKey = run'.sessionKey → id = id'
  completed : ∀ (id : Str) (run : PlanRun), db.runs.get? id = some run → run.status = .completed →
    AllClosed run.stepStates

def Undisturbed (op : Operation) (id : Str) (run run' : PlanRun) : Prop :=
  op.reopens id = false →
    KeepsClosed run.stepStates run'.stepStates ∧ (run.status.isActive = false → run' = run)

theorem Overlay.oneInProgress {steps : PlanSteps} {states : List StepState} {current : Option Str}
    (h : Overlay steps states current) :
    (states.filter fun state => state.status = .inProgress).length ≤ 1 := by
  have hnodup : ((states.filter fun state => state.status = .inProgress).map
      StepState.stepId).Nodup :=
    (nodup_of_fits h.fits).sublist (List.filter_sublist.map _)
  have hcurrent : ∀ state ∈ states.filter fun state => state.status = .inProgress,
      current = some state.stepId := by
    intro state hmem
    rw [List.mem_filter, decide_eq_true_eq] at hmem
    exact h.working state hmem.1 (.inl hmem.2)
  generalize (states.filter fun state => state.status = .inProgress) = working at hnodup hcurrent
  match working with
  | [] => exact Nat.zero_le 1
  | [_] => exact Nat.le_refl 1
  | first :: second :: rest =>
      have heq : first.stepId = second.stepId := by
        apply Option.some.inj
        rw [← hcurrent first List.mem_cons_self]
        exact hcurrent second (List.mem_cons_of_mem _ List.mem_cons_self)
      rw [List.map_cons, List.map_cons, List.nodup_cons] at hnodup
      exact absurd (heq ▸ List.mem_cons_self) hnodup.1

theorem Valid.tidy (h : Valid db) : Tidy db := by
  refine ⟨?_, ?_, ?_, ?_, ?_⟩
  · intro id run hrun
    obtain ⟨revision, hrevision, hok⟩ := h id run hrun
    exact ⟨revision, hrevision, accepted_iff.mpr hok.overlay.fits⟩
  · intro id run hrun
    obtain ⟨revision, -, hok⟩ := h id run hrun
    exact hok.overlay.oneInProgress
  · intro id run hrun state hmem hprogress
    obtain ⟨revision, -, hok⟩ := h id run hrun
    exact hok.overlay.working state hmem (.inl hprogress)
  · intro id id' run run' hrun hrun' hactive hactive' hsession
    have hindex : PlanRun.activeSession run = some run.sessionKey := if_pos hactive
    apply db.runs.unique.key_eq hrun hrun'
    · rw [hindex]
      exact Option.some_ne_none _
    · rw [hindex, hsession]
      exact (if_pos hactive').symm
  · intro id run hrun hcompleted
    obtain ⟨revision, -, hok⟩ := h id run hrun
    exact hok.completed hcompleted

theorem undisturbed_step (hvalid : Valid db) (hguard : noStaleClaim db op)
    (hstep : step planContentHash db op = some db') (id : Str) (run : PlanRun)
    (hrun : db.runs.get? id = some run) :
    ∃ run', db'.runs.get? id = some run' ∧ Undisturbed op id run run' := by
  obtain ⟨run', hrun', hchange⟩ := (moved_step hguard hstep).kept id run hrun
  obtain ⟨revision, -, hok⟩ := hvalid id run hrun
  exact ⟨run', hrun', fun hreopen => ⟨hchange.closed _ hok hreopen, hchange.ended hreopen⟩⟩

theorem disturbed_of_claimsStaleRun (h : claimsStaleRun db op) :
    ∃ db' id run run', step planContentHash db op = some db' ∧ db.runs.get? id = some run ∧
      db'.runs.get? id = some run' ∧ ¬ Undisturbed op id run run' := by
  cases op with
  | markRunning id expected task now =>
      obtain ⟨htask, run, hload, hended, hstale⟩ := h
      obtain ⟨hrun, hrevision⟩ := get?_of_load hload
      let ended := PlanRun.supersede "stale_plan_revision".toList now
      obtain ⟨runs, hruns⟩ := IndexedTable.exists_update? (f := ended) db.runs
        (Table.atKey id (PlanStore.atRevision expected)) fun _ => rfl
      have hafter : runs.get? id = some (ended run) := by
        change runs.toTable.get? id = _
        rw [IndexedTable.toTable_of_update? hruns, Table.get?_update, hrun, Option.map_some]
        apply congrArg some
        apply if_pos
        simp [Table.atKey, PlanStore.atRevision, hrevision]
      refine ⟨{ db with runs := runs }, id, run, ended run, ?_, hrun, hafter, fun hundisturbed => ?_⟩
      · have hmark : db.markPlanRunRunning id expected now task =
            .ok (ended run, { db with runs := runs }) := by
          simp only [PlanStore.markPlanRunRunning, bind_eq_ok, require_eq_ok]
          refine ⟨(), htask, run, hload, ?_⟩
          rw [if_pos (by rw [hstale]; rfl)]
          simp only [bind_eq_ok, PlanStore.update, map_eq_ok, demand_eq_ok, PlanStore.returned]
          exact ⟨_, ⟨runs, hruns, rfl⟩, ended run, hafter, rfl⟩
        rw [step, perform, hmark]
        rfl
      · have heq := congrArg PlanRunRecord.stateRevision ((hundisturbed rfl).2 hended)
        have hnext : run.stateRevision + 1 = run.stateRevision := heq
        omega
  | _ => exact h.elim

/-- Every run stays in order, and what is closed or ended stays so, in every history in which no
task claims an ended run of a session that moved on; each such claim does disturb its run. -/
theorem plan_runs_keep_their_overlay (planContentHash : Str → Str → List PlanStep → Str) :
    (∀ db, Reach initial (step planContentHash) noStaleClaim db → Tidy db ∧
      ∀ (op : Operation) (db' : PlanStore), noStaleClaim db op →
        step planContentHash db op = some db' → ∀ (id : Str) (run : PlanRun),
          db.runs.get? id = some run →
            ∃ run', db'.runs.get? id = some run' ∧ Undisturbed op id run run') ∧
    ∀ (db : PlanStore) (op : Operation), ¬ noStaleClaim db op →
      ∃ db' id run run', step planContentHash db op = some db' ∧ db.runs.get? id = some run ∧
        db'.runs.get? id = some run' ∧ ¬ Undisturbed op id run run' := by
  refine ⟨fun db hreach => ?_, fun db op h => ?_⟩
  · have hvalid := valid_of_reach hreach
    exact ⟨hvalid.tidy, fun op db' hguard hstep => undisturbed_step hvalid hguard hstep⟩
  · exact disturbed_of_claimsStaleRun (not_not.mp h)

end Runs

/-! ### A cancelled run that is superseded -/

section Stale

def staleSession (active : Str) : Str → Option PlanSession := fun key =>
  if key = "main".toList then some ⟨"s1".toList, 0, some active⟩ else none

def stalePlan : PlanRevisionRecord (List Json) :=
  { planId := "plan".toList, parentRevisionId := none, generation := 1
    sourceSessionKey := "main".toList, sourceSessionId := "s1".toList, sourceEpoch := 0
    sourceMessageId := none, title := "Title".toList, markdown := "Body".toList
    steps := [.obj [("title".toList, .str "First".toList)]], contentHash := [], createdAt := 1 }

def staleStart : PlanRunRecord (List Json) :=
  { sessionKey := "main".toList, sessionId := "s1".toList, sessionEpoch := 0
    planRevisionId := "r1".toList, supersedesRunId := none, driverKind := "manual".toList
    driverId := none, status := .queued, stepStates := [], currentStepId := none
    stateRevision := 0, activeTaskId := none, pauseReason := none, terminalReason := none
    createdAt := 1, updatedAt := 1, startedAt := none, finishedAt := none }

def staleActions : List Operation :=
  [.sessions fun key => if key = "main".toList then some ⟨"s1".toList, 0, none⟩ else none,
    .createRevision "r1".toList stalePlan none,
    .start "run".toList staleStart 2,
    .cancel "run".toList 0 "stopped".toList none 3,
    .sessions (staleSession "r2".toList)]

def noHash : Str → Str → List PlanStep → Str := fun _ _ _ => "hash".toList

def emptyStore : PlanStore := ⟨fun _ => none, Table.empty, IndexedTable.empty⟩

def staleMark : Operation := .markRunning "run".toList 1 "task".toList 4

theorem cancelled_run_is_superseded :
    ¬ ∀ db, Reach initial (step noHash) anyStep db → ∀ (op : Operation) (db' : PlanStore),
      step noHash db op = some db' → ∀ (id : Str) (run : PlanRun), db.runs.get? id = some run →
        ∃ run', db'.runs.get? id = some run' ∧ Undisturbed op id run run' := by
  intro h
  have hstatus : ((runActions (guardedStep (step noHash) anyStep) staleActions emptyStore).bind
      fun db => (db.runs.get? "run".toList).map PlanRunRecord.status) = some .cancelled := by
    decide +kernel
  have hafter : (((runActions (guardedStep (step noHash) anyStep) staleActions emptyStore).bind
      fun db => step noHash db staleMark).bind
      fun db => (db.runs.get? "run".toList).map PlanRunRecord.status) = some .superseded := by
    decide +kernel
  cases hrun : runActions (guardedStep (step noHash) anyStep) staleActions emptyStore with
  | none =>
      rw [hrun] at hstatus
      cases hstatus
  | some db =>
      rw [hrun, Option.bind_some] at hstatus hafter
      obtain ⟨run, hget, hcancelled⟩ := Option.map_eq_some_iff.mp hstatus
      have hreach : Reach initial (step noHash) anyStep db :=
        Reach.actions (.start ⟨rfl, rfl⟩) hrun
      cases hstep : step noHash db staleMark with
      | none =>
          rw [hstep] at hafter
          cases hafter
      | some db' =>
          rw [hstep, Option.bind_some] at hafter
          obtain ⟨run', hget', hundisturbed⟩ := h db hreach staleMark db' hstep _ run hget
          rw [hget', (hundisturbed rfl).2 (by rw [hcancelled]; rfl), Option.map_some,
            hcancelled] at hafter
          cases hafter

end Stale

end OpenStarry.Plans
