import OpenStarry.Steering.Custody

/-!
# Which objective updates are reported as applied

Edits move the objective of a goal forward only, so the update that a claim finds granted in the
ledger is of the newest revision. An application consumes the claimed update: whatever the task
holds later is newer, or is that update as applied.
-/

namespace OpenStarry.Steering

open Lib Text Session

/-! ### Rows that follow one another -/

/-- What the row of a task becomes when no edit is offered to it. -/
structure Follows (task task' : AgentTask) : Prop where
  goalContext : task'.goalContext = task.goalContext
  effective : task'.goalEffectiveContext = task.goalEffectiveContext ∨
    ∃ update ∈ task.goalObjectiveUpdate, task'.goalEffectiveContext = some update.context
  update : ∀ update' ∈ task'.goalObjectiveUpdate, ∃ update ∈ task.goalObjectiveUpdate,
    update'.context = update.context ∧ (update.status = .applied → update'.status = .applied)

theorem Follows.refl (task : AgentTask) : Follows task task where
  goalContext := rfl
  effective := .inl rfl
  update := fun update hupdate => ⟨update, hupdate, rfl, id⟩

theorem follows_revoked (task : AgentTask) : Follows task (Ledger.revoked task) where
  goalContext := rfl
  effective := .inl rfl
  update := by
    intro update' hupdate'
    obtain ⟨update, hupdate, rfl⟩ := Option.map_eq_some_iff.1 hupdate'
    refine ⟨update, hupdate, ?_⟩
    split
    · exact ⟨rfl, id⟩
    · rename_i hstatus
      exact ⟨rfl, fun h => absurd h hstatus⟩

/-- How one transaction moves the rows of the owner and of its goal. -/
structure Advance (owner goalId : Str) (l l' : Ledger) : Prop where
  consistent : Consistent owner goalId l'
  goal : ∀ goal' ∈ l'.goals goalId, ∃ goal ∈ l.goals goalId,
    goal.objectiveRevision ≤ goal'.objectiveRevision
  update : ∀ task' ∈ l'.tasks owner, ∀ update' ∈ task'.goalObjectiveUpdate,
    (∃ task ∈ l.tasks owner, ∃ update ∈ task.goalObjectiveUpdate,
      update'.revision = update.revision ∧
        (update.status = .applied → update'.status = .applied)) ∨
    ∃ goal ∈ l.goals goalId, goal.objectiveRevision < update'.revision

variable {owner goalId : Str} {l l' : Ledger}

theorem Advance.of_follows (h : Consistent owner goalId l)
    (hgoal : ∀ goal' ∈ l'.goals goalId, ∃ goal ∈ l.goals goalId,
      goal'.objectiveRevision = goal.objectiveRevision)
    (htask : ∀ task' ∈ l'.tasks owner, ∃ task ∈ l.tasks owner, Follows task task') :
    Advance owner goalId l l' where
  consistent := by
    constructor
    · intro task' htask' context hcontext
      obtain ⟨task, howner, hfollows⟩ := htask task' htask'
      obtain hcontext | hcontext | ⟨update', hupdate', rfl⟩ := hcontext
      · exact h.goal task howner context (.inl (hfollows.goalContext ▸ hcontext))
      · obtain hsame | ⟨update, hupdate, hsome⟩ := hfollows.effective
        · exact h.goal task howner context (.inr (.inl (hsame ▸ hcontext)))
        · rw [hsome] at hcontext
          exact h.goal task howner context
            (.inr (.inr ⟨update, hupdate, (Option.some.inj hcontext).symm⟩))
      · obtain ⟨update, hupdate, heq, -⟩ := hfollows.update update' hupdate'
        rw [heq]
        exact h.goal task howner _ (.inr (.inr ⟨update, hupdate, rfl⟩))
    · intro task' htask' update' hupdate' goal' hgoal'
      obtain ⟨task, howner, hfollows⟩ := htask task' htask'
      obtain ⟨update, hupdate, heq, -⟩ := hfollows.update update' hupdate'
      obtain ⟨goal, hrow, hrevision⟩ := hgoal goal' hgoal'
      rw [hrevision, GoalObjectiveUpdate.revision, heq]
      exact h.revision task howner update hupdate goal hrow
  goal := by
    intro goal' hgoal'
    obtain ⟨goal, hrow, hrevision⟩ := hgoal goal' hgoal'
    exact ⟨goal, hrow, hrevision.ge⟩
  update := by
    intro task' htask' update' hupdate'
    obtain ⟨task, howner, hfollows⟩ := htask task' htask'
    obtain ⟨update, hupdate, heq, hstatus⟩ := hfollows.update update' hupdate'
    exact .inl ⟨task, howner, update, hupdate, congrArg GoalTurnContext.objectiveRevision heq,
      hstatus⟩

theorem same_goal (goal' : GoalRecord) (h : goal' ∈ l.goals goalId) :
    ∃ goal ∈ l.goals goalId, goal'.objectiveRevision = goal.objectiveRevision :=
  ⟨goal', h, rfl⟩

theorem same_task (task' : AgentTask) (h : task' ∈ l.tasks owner) :
    ∃ task ∈ l.tasks owner, Follows task task' :=
  ⟨task', h, .refl task'⟩

/-- Writing one row of `agent_tasks`. -/
theorem follows_update {taskId : Str} {row : Option AgentTask}
    (h : taskId = owner → ∀ task' ∈ row, ∃ task ∈ l.tasks owner, Follows task task') :
    ∀ task' ∈ Function.update l.tasks taskId row owner, ∃ task ∈ l.tasks owner,
      Follows task task' := by
  intro task' htask'
  by_cases hid : taskId = owner
  · rw [hid, Function.update_self] at htask'
    exact h hid task' htask'
  · rw [Function.update_of_ne (Ne.symm hid)] at htask'
    exact same_task task' htask'

/-- Writing one row of `session_goals`. -/
theorem goal_update {id : Str} {row : Option GoalRecord}
    (h : id = goalId → GoalRow (l.goals goalId) row) :
    ∀ goal' ∈ Function.update l.goals id row goalId, ∃ goal ∈ l.goals goalId,
      goal'.objectiveRevision = goal.objectiveRevision := by
  intro goal' hgoal'
  by_cases hid : id = goalId
  · rw [hid, Function.update_self] at hgoal'
    exact h hid goal' hgoal'
  · rw [Function.update_of_ne (Ne.symm hid)] at hgoal'
    exact same_goal goal' hgoal'

theorem Ledger.Records.advance {update result : GoalObjectiveUpdate} {statuses : List UpdateStatus}
    (hrecords : Ledger.Records l l' update statuses result) (h : Consistent owner goalId l)
    (hstatus : result.status = .applied ∨ .applied ∉ statuses) : Advance owner goalId l l' := by
  obtain ⟨task, task', record, htask, hrecord, hcontext, hmem, htasks, hgoalContext, heffective,
    hresult⟩ := hrecords.held
  refine .of_follows h ?_ ?_
  · rw [hrecords.goals]
    exact same_goal
  · rw [htasks]
    refine follows_update fun hid row hrow => ?_
    obtain rfl := Option.some.inj hrow
    refine ⟨task, hid ▸ htask, hgoalContext, ?_, ?_⟩
    · obtain hsame | hsome := List.mem_cons.1 heffective
      · exact .inl hsame
      · refine .inr ⟨record, hrecord, ?_⟩
        rw [List.mem_singleton.1 hsome, hcontext]
    · intro update' hupdate'
      rw [hresult] at hupdate'
      obtain rfl := Option.some.inj hupdate'
      refine ⟨record, hrecord, hrecords.context.trans hcontext.symm, fun happlied => ?_⟩
      obtain hdone | hnot := hstatus
      · exact hdone
      · exact absurd (happlied ▸ hmem) hnot

/-! ### Transactions advance the rows -/

theorem advance_claim (h : Consistent owner goalId l) (update : GoalObjectiveUpdate) :
    Advance owner goalId l (l.claimGoalObjectiveUpdate update).2 := by
  cases hclaim : l.claimGoalObjectiveUpdate update with
  | mk answer after =>
      cases answer with
      | none =>
          rw [Ledger.claimGoalObjectiveUpdate_none hclaim]
          exact .of_follows h same_goal same_task
      | some result =>
          obtain ⟨hrecords, -⟩ := Ledger.claimGoalObjectiveUpdate_spec hclaim
          exact hrecords.advance h (.inr (by simp))

theorem advance_apply (h : Consistent owner goalId l) (update : GoalObjectiveUpdate) :
    Advance owner goalId l (l.applyGoalObjectiveUpdate update).2 := by
  cases happly : l.applyGoalObjectiveUpdate update with
  | mk answer after =>
      cases answer with
      | none =>
          rw [Ledger.applyGoalObjectiveUpdate_none happly]
          exact .of_follows h same_goal same_task
      | some result =>
          obtain ⟨hrecords, hstatus⟩ := Ledger.applyGoalObjectiveUpdate_spec happly
          exact hrecords.advance h (.inl hstatus)

theorem goalRow_none (old : Option GoalRecord) : GoalRow old none := fun _ h => by cases h

theorem advance_clear {id : Str} {expected : Nat} (h : Consistent owner goalId l)
    (hclear : l.clearGoal id expected = some l') : Advance owner goalId l l' := by
  have hgoals : ∀ goal' ∈ Function.update l.goals id none goalId, ∃ goal ∈ l.goals goalId,
      goal'.objectiveRevision = goal.objectiveRevision :=
    goal_update fun _ => goalRow_none _
  unfold Ledger.clearGoal at hclear
  split at hclear
  · cases hclear
  · split at hclear
    · cases hclear
    · dsimp only at hclear
      split at hclear
      · obtain rfl := Option.some.inj hclear
        exact .of_follows h hgoals same_task
      · split at hclear
        · obtain rfl := Option.some.inj hclear
          exact .of_follows h hgoals same_task
        · rename_i task htask
          obtain rfl := Option.some.inj hclear
          refine .of_follows h hgoals (follows_update fun hid row hrow => ?_)
          obtain rfl := Option.some.inj hrow
          exact ⟨task, hid ▸ htask, follows_revoked task⟩

theorem advance_putGoal {id : Str} {goal : GoalRecord} (objective : Str)
    (h : Consistent owner goalId l) (hgoal : l.goals id = some goal) :
    Advance owner goalId l (l.putGoal id (Ledger.edited goal objective)) := by
  have hrow : ∀ goal' ∈ (l.putGoal id (Ledger.edited goal objective)).goals goalId,
      ∃ before ∈ l.goals goalId, before.objectiveRevision ≤ goal'.objectiveRevision := by
    intro goal' hgoal'
    by_cases hid : id = goalId
    · simp only [Ledger.putGoal, hid, Function.update_self] at hgoal'
      obtain rfl := Option.some.inj hgoal'
      exact ⟨goal, hid ▸ hgoal, Nat.le_succ _⟩
    · simp only [Ledger.putGoal, Function.update_of_ne (Ne.symm hid)] at hgoal'
      exact ⟨goal', hgoal', le_rfl⟩
  refine ⟨⟨h.goal, ?_⟩, hrow, ?_⟩
  · intro task htask update hupdate goal' hgoal'
    obtain ⟨before, hbefore, hle⟩ := hrow goal' hgoal'
    exact (h.revision task htask update hupdate before hbefore).trans hle
  · intro task htask update hupdate
    exact .inl ⟨task, htask, update, hupdate, rfl, fun hstatus => hstatus⟩

theorem adopter_eq_some {id taskId : Str} {goal : GoalRecord} {task : AgentTask}
    {accepted : GoalTurnContext} (h : Ledger.adopter id taskId goal task = some accepted) :
    task.effectiveContext = some accepted ∧ accepted.goalId = id := by
  obtain ⟨hcontext, hconditions⟩ := Option.filter_eq_some_iff.1 h
  simp only [Bool.and_eq_true, decide_eq_true_eq] at hconditions
  exact ⟨hcontext, hconditions.2.2.2.1⟩

theorem Consistent.effective (h : Consistent owner goalId l) {task : AgentTask}
    (htask : l.tasks owner = some task) {context : GoalTurnContext}
    (hcontext : task.effectiveContext = some context) : context.goalId = goalId := by
  apply h.goal task htask
  unfold AgentTask.effectiveContext at hcontext
  cases heffective : task.goalEffectiveContext with
  | none =>
      rw [heffective] at hcontext
      exact .inl hcontext
  | some effective =>
      rw [heffective] at hcontext
      exact .inr (.inl hcontext)

theorem advance_edit {id : Str} {expected : Nat} {objective : Str} {adoption : Option Str}
    {now : Int} (h : Consistent owner goalId l)
    (hedit : l.editGoal id expected objective adoption now = some l') :
    Advance owner goalId l l' := by
  unfold Ledger.editGoal at hedit
  split at hedit
  · cases hedit
  rename_i goal hgoal
  split at hedit
  · cases hedit
  have hput := advance_putGoal objective h hgoal
  dsimp only at hedit
  split at hedit
  · exact Option.some.inj hedit ▸ hput
  rename_i taskId
  split at hedit
  · obtain rfl := Option.some.inj hedit
    unfold Ledger.adopt
    split
    · exact hput
    rename_i task htask
    split
    · exact hput
    rename_i accepted hadopter
    by_cases howner : taskId = owner
    · subst howner
      obtain ⟨hcontext, haccepted⟩ := adopter_eq_some hadopter
      have hid : id = goalId := haccepted.symm.trans (h.effective htask hcontext)
      subst hid
      refine ⟨⟨?_, ?_⟩, hput.goal, ?_⟩
      · intro row hrow context hmem
        simp only [Ledger.putTask, Function.update_self] at hrow
        obtain rfl := Option.some.inj hrow
        obtain hold | hold | ⟨update, hupdate, rfl⟩ := hmem
        · exact h.goal task htask context (.inl hold)
        · exact h.goal task htask context (.inr (.inl hold))
        · exact Option.some.inj hupdate ▸ rfl
      · intro row hrow update hupdate goal' hgoal'
        simp only [Ledger.putTask, Function.update_self] at hrow
        simp only [Ledger.putTask, Ledger.putGoal, Function.update_self] at hgoal'
        obtain rfl := Option.some.inj hrow
        obtain rfl := Option.some.inj hupdate
        obtain rfl := Option.some.inj hgoal'
        exact le_rfl
      · intro row hrow update hupdate
        simp only [Ledger.putTask, Function.update_self] at hrow
        obtain rfl := Option.some.inj hrow
        obtain rfl := Option.some.inj hupdate
        exact .inr ⟨goal, hgoal, Nat.lt_succ_self _⟩
    · have hsame : ((l.putGoal id (Ledger.edited goal objective)).putTask taskId
          { task with
            goalObjectiveUpdate :=
              some (Ledger.offer id taskId (Ledger.edited goal objective) accepted now) }).tasks
            owner = l.tasks owner := Function.update_of_ne (Ne.symm howner) _ _
      refine ⟨⟨?_, ?_⟩, hput.goal, ?_⟩
      · rw [hsame]
        exact h.goal
      · rw [hsame]
        exact hput.consistent.revision
      · rw [hsame]
        exact hput.update
  · exact Option.some.inj hedit ▸ hput

/-! ### Updates against the rows -/

/-- The updates read from the owner are no newer than its goal, and those that were applied are no
newer than what the owner holds, which is then not to be applied again. -/
structure Rows (owner goalId : Str) (l : Ledger) (read settled : List GoalObjectiveUpdate) :
    Prop where
  consistent : Consistent owner goalId l
  bounded : ∀ update ∈ read, update.context.goalId = goalId ∧ update.context.taskId = owner ∧
    ∀ goal ∈ l.goals goalId, update.revision ≤ goal.objectiveRevision
  consumed : ∀ applied ∈ settled,
    (∀ goal ∈ l.goals goalId, applied.revision ≤ goal.objectiveRevision) ∧
      ∀ task ∈ l.tasks owner, ∀ update ∈ task.goalObjectiveUpdate,
        applied.revision < update.revision ∨
          applied.revision = update.revision ∧ update.status = .applied
  once : (settled.map (·.revision)).Nodup

namespace Rows

variable {read settled settled' : List GoalObjectiveUpdate} {update result : GoalObjectiveUpdate}

theorem advance (h : Rows owner goalId l read settled) (hadvance : Advance owner goalId l l') :
    Rows owner goalId l' read settled where
  consistent := hadvance.consistent
  bounded := by
    intro update hupdate
    obtain ⟨hid, howner, hle⟩ := h.bounded update hupdate
    refine ⟨hid, howner, fun goal' hgoal' => ?_⟩
    obtain ⟨goal, hgoal, hmono⟩ := hadvance.goal goal' hgoal'
    exact (hle goal hgoal).trans hmono
  consumed := by
    intro applied happlied
    obtain ⟨hle, hheld⟩ := h.consumed applied happlied
    constructor
    · intro goal' hgoal'
      obtain ⟨goal, hgoal, hmono⟩ := hadvance.goal goal' hgoal'
      exact (hle goal hgoal).trans hmono
    · intro task' htask' update' hupdate'
      obtain ⟨task, htask, update, hupdate, hsame, hstatus⟩ | ⟨goal, hgoal, hlt⟩ :=
        hadvance.update task' htask' update' hupdate'
      · rw [hsame]
        obtain hlt | ⟨heq, hdone⟩ := hheld task htask update hupdate
        · exact .inl hlt
        · exact .inr ⟨heq, hstatus hdone⟩
      · exact .inl ((hle goal hgoal).trans_lt hlt)
  once := h.once

theorem subperm (h : Rows owner goalId l read settled) (hsettled : settled'.Subperm settled) :
    Rows owner goalId l read settled' where
  consistent := h.consistent
  bounded := h.bounded
  consumed := fun applied happlied => h.consumed applied (hsettled.subset happlied)
  once := by
    obtain ⟨middle, hperm, hsublist⟩ := hsettled
    exact (hperm.map _).nodup (h.once.sublist (hsublist.map _))

theorem readUpdate (h : Rows owner goalId l read settled)
    (hupdate : l.pendingUpdate owner = some update) :
    Rows owner goalId l (update :: read) settled where
  consistent := h.consistent
  bounded := by
    obtain ⟨hheld, hconditions⟩ := Option.filter_eq_some_iff.1 hupdate
    obtain ⟨task, htask, hrecord⟩ := Option.bind_eq_some_iff.1 hheld
    intro other hother
    obtain rfl | hother := List.mem_cons.1 hother
    · refine ⟨h.consistent.goal task htask _ (.inr (.inr ⟨other, hrecord, rfl⟩)), ?_, ?_⟩
      · exact (of_decide_eq_true hconditions).2
      · exact h.consistent.revision task htask other hrecord
    · exact h.bounded other hother
  consumed := h.consumed
  once := h.once

theorem newest (h : Rows owner goalId l read settled) {goal : GoalRecord}
    (hgoal : l.goals update.context.goalId = some goal) (hgrants : goal.Grants update.context)
    (hid : update.context.goalId = goalId) {other : GoalObjectiveUpdate} (hother : other ∈ read) :
    other.revision ≤ update.revision := by
  obtain ⟨-, -, hle⟩ := h.bounded other hother
  rw [hid] at hgoal
  have hrevision := hgrants.2.2.1
  rw [GoalObjectiveUpdate.revision, GoalObjectiveUpdate.revision, ← hrevision]
  exact hle goal hgoal

theorem apply (h : Rows owner goalId l read settled)
    (happly : l.applyGoalObjectiveUpdate update = (some result, l'))
    (howner : update.context.taskId = owner) (hid : update.context.goalId = goalId) :
    Rows owner goalId l' read (result :: settled) := by
  have hadvance := advance_apply h.consistent update
  rw [happly] at hadvance
  have hafter := h.advance hadvance
  obtain ⟨hrecords, happlied⟩ := Ledger.applyGoalObjectiveUpdate_spec happly
  obtain ⟨task, task', record, htask, hrecord, hcontext, hstatus, htasks, -, -, hresult⟩ :=
    hrecords.held
  have hrevision : result.revision = record.revision := by
    rw [GoalObjectiveUpdate.revision, GoalObjectiveUpdate.revision, hrecords.context, hcontext]
  refine ⟨hafter.consistent, hafter.bounded, ?_, ?_⟩
  · intro applied hmem
    obtain rfl | hmem := List.mem_cons.1 hmem
    · constructor
      · intro goal hgoal
        obtain ⟨row, hrow, hgrants⟩ := hrecords.granted
        rw [hid, ← hrecords.goals] at hrow
        obtain rfl := Option.some.inj (hgoal.symm.trans hrow)
        rw [GoalObjectiveUpdate.revision, hrecords.context]
        exact hgrants.2.2.1.ge
      · intro row hrow held hheld
        rw [htasks, howner, Function.update_self] at hrow
        obtain rfl := Option.some.inj hrow
        rw [hresult] at hheld
        obtain rfl := Option.some.inj hheld
        exact .inr ⟨rfl, happlied⟩
    · exact hafter.consumed applied hmem
  · rw [List.map_cons, List.nodup_cons]
    refine ⟨fun hmem => ?_, h.once⟩
    obtain ⟨applied, happlied', heq⟩ := List.mem_map.1 hmem
    obtain hlt | ⟨-, hdone⟩ :=
      (h.consumed applied happlied').2 task (howner ▸ htask) record hrecord
    · omega
    · rw [hdone] at hstatus
      simp at hstatus

end Rows

/-! ### Updates on their way -/

def Progress.result : Progress → Option GoalObjectiveUpdate
  | .answered result => result
  | _ => none

@[simp] theorem Progress.result_answered (result : Option GoalObjectiveUpdate) :
    (Progress.answered result).result = result := rfl

@[simp] theorem Progress.result_goal : Progress.goal.result = none := rfl

@[simp] theorem Progress.result_inputs : Progress.inputs.result = none := rfl

theorem result_start (condition : Prop) [Decidable condition] :
    (if condition then Progress.goal else .inputs).result = none := by
  split <;> rfl

def works (recordings : List (Recording × Progress)) : List GoalObjectiveUpdate :=
  recordings.filterMap (·.1.goalUpdate)

def results (recordings : List (Recording × Progress)) : List GoalObjectiveUpdate :=
  recordings.filterMap (·.2.result)

namespace Delivery

def settled (s : Delivery) : List GoalObjectiveUpdate :=
  results s.recordings ++ s.reported

def underway (s : Delivery) : List GoalObjectiveUpdate :=
  s.provider.goalClaimed.toList ++ (s.binding.bind fun binding => binding.answer.join).toList ++
    works s.recordings

def claimable (s : Delivery) : List GoalObjectiveUpdate :=
  s.provider.goalPending.toList ++ (s.binding.map (·.candidate)).toList

end Delivery

/-- Where the updates come from: what may be claimed was appended, what may be applied was bound,
and so was what is applied. -/
structure Trace (s : Delivery) : Prop where
  appended : s.appended ⊆ s.read
  claimable : s.claimable ⊆ s.appended
  newest : ∀ b ∈ s.bound, b.update.context ∈ s.appended.map (·.context) ∧
    ∀ other ∈ b.seen, other.revision ≤ b.update.revision
  underway : s.underway ⊆ s.bound.map (·.update)
  settled : ∀ applied ∈ s.settled, ∃ b ∈ s.bound,
    b.update.context = applied.context ∧ b.update.stateRevision = applied.stateRevision

/-- What the run has established about objective updates. -/
structure Authority (owner goalId : Str) (s : Delivery) : Prop where
  rows : Rows owner goalId s.ledger s.read s.settled
  trace : Trace s

theorem exists_split {α : Type*} {entries : List α} {k : Nat} {entry : α}
    (h : entries[k]? = some entry) : ∃ before after, entries = before ++ entry :: after ∧
      (∀ other, entries.set k other = before ++ other :: after) ∧
      entries.eraseIdx k = before ++ after := by
  obtain ⟨hlt, hentry⟩ := List.getElem?_eq_some_iff.1 h
  refine ⟨entries.take k, entries.drop (k + 1), ?_, ?_, List.eraseIdx_eq_take_drop_succ _ _⟩
  · rw [← hentry, List.getElem_cons_drop, List.take_append_drop]
  · intro other
    rw [List.set_eq_take_append_cons_drop, if_pos hlt]

section Recordings

variable {recordings : List (Recording × Progress)} {k : Nat} {work : Recording}
  {progress progress' : Progress} {update : GoalObjectiveUpdate}

theorem works_set (h : recordings[k]? = some (work, progress)) :
    works (recordings.set k (work, progress')) = works recordings := by
  obtain ⟨before, after, hsplit, hset, -⟩ := exists_split h
  rw [hset, hsplit, works, works, List.filterMap_append, List.filterMap_append]
  rfl

theorem mem_works (h : recordings[k]? = some (work, progress))
    (hupdate : work.goalUpdate = some update) : update ∈ works recordings := by
  obtain ⟨before, after, hsplit, -, -⟩ := exists_split h
  simp [works, hsplit, hupdate]

theorem works_eraseIdx_subset : works (recordings.eraseIdx k) ⊆ works recordings :=
  ((List.eraseIdx_sublist recordings k).filterMap _).subset

theorem results_append (first second : List (Recording × Progress)) :
    results (first ++ second) = results first ++ results second :=
  List.filterMap_append

theorem results_cons (entry : Recording × Progress) (rest : List (Recording × Progress)) :
    results (entry :: rest) = entry.2.result.toList ++ results rest := by
  unfold results
  cases hresult : entry.2.result with
  | none => exact List.filterMap_cons_none hresult
  | some update => exact List.filterMap_cons_some hresult

theorem results_set (progress' : Progress) (h : recordings[k]? = some (work, progress))
    (hresult : progress.result = none) :
    (results (recordings.set k (work, progress'))).Perm
      (progress'.result.toList ++ results recordings) := by
  obtain ⟨before, after, hsplit, hset, -⟩ := exists_split h
  rw [hset, hsplit, results_append, results_append, results_cons, results_cons, hresult,
    Option.toList_none, List.nil_append]
  exact List.perm_append_comm_assoc _ _ _

theorem results_eraseIdx (h : recordings[k]? = some (work, progress)) :
    (progress.result.toList ++ results (recordings.eraseIdx k)).Perm (results recordings) := by
  obtain ⟨before, after, hsplit, -, herase⟩ := exists_split h
  rw [herase, hsplit, results_append, results_append, results_cons]
  exact List.perm_append_comm_assoc _ _ _

theorem results_eraseIdx_sublist : (results (recordings.eraseIdx k)).Sublist (results recordings) :=
  (List.eraseIdx_sublist recordings k).filterMap _

end Recordings

variable {s s' : Delivery}

theorem Authority.stay (h : Authority owner goalId s) (hledger : s'.ledger = s.ledger)
    (hread : s'.read = s.read) (happended : s'.appended = s.appended) (hbound : s'.bound = s.bound)
    (hclaimable : s'.claimable ⊆ s.claimable) (hunderway : s'.underway ⊆ s.underway)
    (hsettled : s'.settled.Subperm s.settled) : Authority owner goalId s' where
  rows := by
    rw [hledger, hread]
    exact h.rows.subperm hsettled
  trace := by
    refine ⟨?_, ?_, ?_, ?_, ?_⟩
    · rw [happended, hread]
      exact h.trace.appended
    · rw [happended]
      exact List.Subset.trans hclaimable h.trace.claimable
    · rw [hbound, happended]
      exact h.trace.newest
    · rw [hbound]
      exact List.Subset.trans hunderway h.trace.underway
    · rw [hbound]
      exact fun applied happlied => h.trace.settled applied (hsettled.subset happlied)

theorem Authority.advance (h : Authority owner goalId s) {l' : Ledger}
    (hadvance : Advance owner goalId s.ledger l') : Authority owner goalId { s with ledger := l' } where
  rows := h.rows.advance hadvance
  trace := ⟨h.trace.appended, h.trace.claimable, h.trace.newest, h.trace.underway, h.trace.settled⟩

theorem Authority.owned (h : Authority owner goalId s) {context : GoalTurnContext}
    (hcontext : context ∈ s.appended.map (·.context)) :
    context.goalId = goalId ∧ context.taskId = owner := by
  obtain ⟨update, hupdate, rfl⟩ := List.mem_map.1 hcontext
  obtain ⟨hid, howner, -⟩ := h.rows.bounded update (h.trace.appended hupdate)
  exact ⟨hid, howner⟩

/-! ### Steps -/

theorem Authority.answerClaim (h : Authority owner goalId s) {userTexts : List Str}
    {candidate : GoalObjectiveUpdate} (hbinding : s.binding = some ⟨userTexts, candidate, none⟩) :
    Authority owner goalId (s.answerClaim ⟨userTexts, candidate, none⟩) := by
  have hcandidate : candidate ∈ s.appended := by
    apply h.trace.claimable
    simp [Delivery.claimable, hbinding]
  have hmem := List.mem_map_of_mem (f := (·.context)) hcandidate
  obtain ⟨hid, howner⟩ := h.owned hmem
  have hadvance := advance_claim h.rows.consistent candidate
  unfold Delivery.answerClaim
  cases hclaim : s.ledger.claimGoalObjectiveUpdate candidate with
  | mk answer ledger =>
      rw [hclaim] at hadvance
      refine ⟨h.rows.advance hadvance, h.trace.appended, ?_, ?_, ?_, ?_⟩
      · simpa [Delivery.claimable, hbinding] using h.trace.claimable
      · intro b hb
        obtain hb | hb := List.mem_append.1 hb
        · exact h.trace.newest b hb
        · obtain ⟨update, hanswer, rfl⟩ := Option.map_eq_some_iff.1 (Option.mem_toList.1 hb)
          subst hanswer
          obtain ⟨hrecords, -⟩ := Ledger.claimGoalObjectiveUpdate_spec hclaim
          obtain ⟨goal, hgoal, hgrants⟩ := hrecords.granted
          refine ⟨hrecords.context ▸ hmem, fun other hother => ?_⟩
          rw [GoalObjectiveUpdate.revision.eq_def update, hrecords.context]
          exact h.rows.newest hgoal hgrants hid (h.trace.appended hother)
      · intro update hupdate
        rw [List.map_append]
        simp only [Delivery.underway, List.mem_append, Option.bind_some, Option.join_some,
          Option.mem_toList] at hupdate
        obtain (hclaimed | hanswer) | hrecording := hupdate
        · apply List.mem_append_left _ (h.trace.underway _)
          simp only [Delivery.underway, List.mem_append, Option.mem_toList]
          exact .inl (.inl hclaimed)
        · apply List.mem_append_right
          rw [hanswer]
          simp
        · apply List.mem_append_left _ (h.trace.underway _)
          simp only [Delivery.underway, List.mem_append]
          exact .inr hrecording
      · intro applied happlied
        obtain ⟨b, hb, hcontext⟩ := h.trace.settled applied happlied
        exact ⟨b, List.mem_append_left _ hb, hcontext⟩

theorem Authority.recordGoal (h : Authority owner goalId s) {k : Nat} {work : Recording}
    {update : GoalObjectiveUpdate} (hrecording : s.recordings[k]? = some (work, .goal))
    (hupdate : work.goalUpdate = some update) :
    Authority owner goalId (s.recordGoal k work update) := by
  have hbound : update ∈ s.bound.map (·.update) :=
    h.trace.underway (List.mem_append_right _ (mem_works hrecording hupdate))
  obtain ⟨b, hb, rfl⟩ := List.mem_map.1 hbound
  obtain ⟨hid, howner⟩ := h.owned (h.trace.newest b hb).1
  unfold Delivery.recordGoal
  cases happly : s.ledger.applyGoalObjectiveUpdate b.update with
  | mk result ledger =>
      have hresults := (results_set (.answered result) hrecording rfl).append_right
        s.reported
      have hunderway : ({ s with
          ledger := ledger
          recordings := s.recordings.set k (work, .answered result) } : Delivery).underway =
          s.underway := by
        simp only [Delivery.underway, works_set hrecording]
      cases result with
      | none =>
          rw [Ledger.applyGoalObjectiveUpdate_none happly]
          exact h.stay rfl rfl rfl rfl (List.Subset.refl _) (hunderway ▸ List.Subset.refl _)
            hresults.subperm
      | some result =>
          obtain ⟨hrecords, -⟩ := Ledger.applyGoalObjectiveUpdate_spec happly
          refine ⟨(h.rows.apply happly howner hid).subperm hresults.subperm, h.trace.appended,
            h.trace.claimable, h.trace.newest, hunderway ▸ h.trace.underway, ?_⟩
          intro applied happlied
          obtain rfl | hmem := List.mem_cons.1 (hresults.subset happlied)
          · exact ⟨b, hb, hrecords.context.symm, hrecords.stateRevision.symm⟩
          · exact h.trace.settled applied hmem

theorem underway_eraseIdx (k : Nat) :
    ({ s with recordings := s.recordings.eraseIdx k } : Delivery).underway ⊆ s.underway :=
  List.append_subset.2 ⟨List.subset_append_left _ _,
    List.Subset.trans works_eraseIdx_subset (List.subset_append_right _ _)⟩

theorem Authority.finishRecording (h : Authority owner goalId s) {k : Nat} {work : Recording}
    {result : Option GoalObjectiveUpdate}
    (hrecording : s.recordings[k]? = some (work, .answered result)) :
    Authority owner goalId (s.finishRecording k result) := by
  have hresults := (results_eraseIdx hrecording).append_right s.reported
  refine h.stay rfl rfl rfl rfl (List.Subset.refl _) (underway_eraseIdx k)
    (List.Perm.subperm (List.Perm.trans ?_ hresults))
  change (results (s.recordings.eraseIdx k) ++ (s.reported ++ result.toList)).Perm
    (result.toList ++ results (s.recordings.eraseIdx k) ++ s.reported)
  rw [← List.append_assoc, List.append_assoc result.toList]
  exact List.perm_append_comm

theorem Authority.failRecording (h : Authority owner goalId s) (k : Nat) :
    Authority owner goalId { s with recordings := s.recordings.eraseIdx k } :=
  h.stay rfl rfl rfl rfl (List.Subset.refl _) (underway_eraseIdx k)
    (results_eraseIdx_sublist.append_right s.reported).subperm

theorem Authority.markApplied (h : Authority owner goalId s) (iteration : Nat)
    (modelCallId : Str) : Authority owner goalId (s.markApplied iteration modelCallId) := by
  -- the claimed update goes into the returned work, or is dropped
  have hclaimed : s.provider.goalClaimed.toList ⊆ s.underway :=
    List.Subset.trans (List.subset_append_left _ _) (List.subset_append_left _ _)
  have hworks : works s.recordings ⊆ s.underway := List.subset_append_right _ _
  have hbinding : (s.binding.bind fun binding => binding.answer.join).toList ⊆ s.underway :=
    List.Subset.trans (List.subset_append_right _ _) (List.subset_append_left _ _)
  unfold Delivery.markApplied Provider.markApplied
  by_cases hnone : s.provider.claimed = [] ∧ s.provider.goalClaimed = none
  · simp only [hnone, and_self, if_true]
    refine h.stay rfl rfl rfl rfl (List.Subset.refl _) ?_ ?_
    · simpa [Delivery.underway] using And.intro hbinding hworks
    · simp [Delivery.settled, List.Subperm.refl]
  · simp only [hnone, if_false]
    split
    · refine h.stay rfl rfl rfl rfl (List.Subset.refl _) ?_ ?_
      · simpa [Delivery.underway] using And.intro hbinding hworks
      · simp [Delivery.settled, List.Subperm.refl]
    · refine h.stay rfl rfl rfl rfl (List.Subset.refl _) ?_ ?_
      · intro update hupdate
        simp only [Delivery.underway, works, Option.toList_none, List.nil_append, List.mem_append,
          List.filterMap_append, Option.map_some, Option.toList_some, List.mem_filterMap,
          List.mem_singleton, exists_eq_left] at hupdate
        obtain hanswer | hold | hnew := hupdate
        · exact hbinding hanswer
        · exact hworks (List.mem_filterMap.2 hold)
        · apply hclaimed
          split at hnew
          · exact Option.mem_toList.2 hnew
          · cases hnew
      · apply List.Perm.subperm
        unfold Delivery.settled
        dsimp only
        rw [results_append, Option.map_some, Option.toList_some, results_cons, result_start]
        exact List.Perm.of_eq (congrArg (· ++ s.reported) (List.append_nil _))

theorem Authority.appendGoalObjectiveUpdate (h : Authority owner goalId s)
    {update : GoalObjectiveUpdate} (hread : update ∈ s.read) :
    Authority owner goalId (s.appendGoalObjectiveUpdate update) := by
  have hold := h.trace.claimable
  refine ⟨?_, ?_, ?_, ?_, ?_, ?_⟩
  · exact h.rows.subperm (by
      unfold Delivery.appendGoalObjectiveUpdate Delivery.settled
      exact List.Subperm.refl _)
  · exact List.append_subset.2 ⟨h.trace.appended, List.cons_subset.2 ⟨hread, List.nil_subset _⟩⟩
  · simp only [Delivery.appendGoalObjectiveUpdate, Provider.appendGoalObjectiveUpdate]
    split
    · intro other hother
      simp only [Delivery.claimable, Option.toList_some, List.mem_append, List.mem_singleton]
        at hother ⊢
      obtain hnew | hbinding := hother
      · exact .inr hnew
      · exact .inl (hold (List.mem_append_right _ hbinding))
    · exact List.Subset.trans hold (List.subset_append_left _ _)
  · intro b hb
    obtain ⟨hcontext, hnewest⟩ := h.trace.newest b hb
    refine ⟨?_, hnewest⟩
    change b.update.context ∈ (s.appended ++ [update]).map _
    rw [List.map_append]
    exact List.mem_append_left _ hcontext
  · refine List.Subset.trans ?_ h.trace.underway
    simp only [Delivery.appendGoalObjectiveUpdate, Provider.appendGoalObjectiveUpdate]
    split <;> exact List.Subset.refl _
  · exact h.trace.settled

theorem Authority.enterClaim (h : Authority owner goalId s) (hfree : s.binding = none) (i : Nat)
    (userTexts : List Str) : Authority owner goalId (s.enterClaim i userTexts) := by
  unfold Delivery.enterClaim
  dsimp only
  split
  · exact h.stay rfl rfl rfl rfl (List.Subset.refl _) (List.Subset.refl _) (.refl _)
  · rename_i candidate hcandidate
    have hpending : candidate ∈ s.provider.goalPending.toList := by
      unfold Provider.candidate at hcandidate
      split at hcandidate
      · exact Option.mem_toList.2 hcandidate
      · cases hcandidate
    split
    · refine h.stay rfl rfl rfl rfl ?_ ?_ (.refl _)
      · refine List.append_subset.2 ⟨List.subset_append_left _ _, ?_⟩
        exact List.cons_subset.2 ⟨List.mem_append_left _ hpending, List.nil_subset _⟩
      · simp [Delivery.underway, hfree]
    · refine h.stay rfl rfl rfl rfl ?_ ?_ (.refl _)
      · simp only [Delivery.claimable, Provider.bind]
        split <;> simp
      · simp [Delivery.underway, Provider.bind]

theorem Authority.finishClaim (h : Authority owner goalId s) {binding : Binding}
    {answer : Option GoalObjectiveUpdate} (hbinding : s.binding = some binding)
    (hanswer : binding.answer = some answer) :
    Authority owner goalId (s.finishClaim binding answer) := by
  refine h.stay rfl rfl rfl rfl ?_ ?_ (.refl _)
  · simp only [Delivery.claimable, Delivery.finishClaim, Provider.bind]
    split <;> simp
  · simp only [Delivery.underway, Delivery.finishClaim, Provider.bind, hbinding]
    cases answer <;> simp [hanswer]

theorem Authority.readUpdate (h : Authority owner goalId s) {update : GoalObjectiveUpdate}
    (hupdate : s.ledger.pendingUpdate owner = some update) :
    Authority owner goalId { s with read := update :: s.read } where
  rows := h.rows.readUpdate hupdate
  trace := ⟨List.Subset.trans h.trace.appended (List.subset_cons_self _ _), h.trace.claimable,
    h.trace.newest, h.trace.underway, h.trace.settled⟩

theorem Authority.forget (h : Authority owner goalId s) (hledger : s'.ledger = s.ledger)
    (hread : s'.read = s.read) (happended : s'.appended = s.appended) (hbound : s'.bound = s.bound)
    (hpending : s'.provider.goalPending.toList ⊆ s.provider.goalPending.toList)
    (hclaimed : s'.provider.goalClaimed.toList ⊆ s.provider.goalClaimed.toList)
    (hbinding : s'.binding = s.binding ∨ s'.binding = none)
    (hrecordings : s'.recordings = s.recordings) (hreported : s'.reported = s.reported) :
    Authority owner goalId s' := by
  refine h.stay hledger hread happended hbound ?_ ?_ ?_
  · unfold Delivery.claimable
    obtain hsame | hnone := hbinding
    · rw [hsame]
      exact List.append_subset.2 ⟨List.Subset.trans hpending (List.subset_append_left _ _),
        List.subset_append_right _ _⟩
    · rw [hnone]
      simpa using List.Subset.trans hpending (List.subset_append_left _ _)
  · unfold Delivery.underway
    rw [hrecordings]
    have hleft := List.Subset.trans hclaimed (List.subset_append_left _
      (s.binding.bind fun binding => binding.answer.join).toList)
    refine List.append_subset.2 ⟨?_, List.subset_append_right _ _⟩
    refine List.Subset.trans ?_ (List.subset_append_left _ _)
    refine List.append_subset.2 ⟨hleft, ?_⟩
    obtain hsame | hnone := hbinding
    · rw [hsame]
      exact List.subset_append_right _ _
    · rw [hnone]
      exact List.nil_subset _
  · unfold Delivery.settled
    rw [hrecordings, hreported]

theorem Authority.clearGoalClaimed (h : Authority owner goalId s) {p : Provider}
    (hpending : p.goalPending = none ∨ p.goalPending = s.provider.goalPending)
    (hclaimed : p.goalClaimed = none) : Authority owner goalId { s with provider := p } := by
  refine h.forget rfl rfl rfl rfl ?_ ?_ (.inl rfl) rfl rfl
  · obtain hnone | hsame := hpending
    · rw [hnone]
      exact List.nil_subset _
    · rw [hsame]
      exact List.Subset.refl _
  · rw [hclaimed]
    exact List.nil_subset _

theorem step_authority {a : Action} (h : Authority owner goalId s)
    (hstep : step owner goalId s a = some s') : Authority owner goalId s' := by
  have hsame : ∀ {s' : Delivery}, s'.ledger = s.ledger → s'.read = s.read →
      s'.appended = s.appended → s'.bound = s.bound →
      s'.provider.goalPending = s.provider.goalPending →
      s'.provider.goalClaimed = s.provider.goalClaimed → s'.binding = s.binding →
      s'.recordings = s.recordings → s'.reported = s.reported → Authority owner goalId s' := by
    intro s' hledger hread happended hbound hpending hclaimed hbinding hrecordings hreported
    refine h.forget hledger hread happended hbound ?_ ?_ (.inl hbinding) hrecordings hreported
    · rw [hpending]
      exact List.Subset.refl _
    · rw [hclaimed]
      exact List.Subset.refl _
  have hdrain : s.drainPending.provider.goalPending = s.provider.goalPending ∧
      s.drainPending.provider.goalClaimed = s.provider.goalClaimed := by
    unfold Delivery.drainPending Provider.drainPending
    split <;> exact ⟨rfl, rfl⟩
  cases a with
  | setAppliedRecorder => exact Option.some.inj hstep ▸ hsame rfl rfl rfl rfl rfl rfl rfl rfl rfl
  | setGoalObjectiveRecorders =>
      exact Option.some.inj hstep ▸ hsame rfl rfl rfl rfl rfl rfl rfl rfl rfl
  | append text =>
      have hkept : (s.append text).provider.goalPending = s.provider.goalPending ∧
          (s.append text).provider.goalClaimed = s.provider.goalClaimed := by
        unfold Delivery.append Provider.append
        dsimp only
        split <;> exact ⟨rfl, rfl⟩
      exact Option.some.inj hstep ▸ hsame rfl rfl rfl rfl hkept.1 hkept.2 rfl rfl rfl
  | readUpdate =>
      obtain ⟨update, hupdate, rfl⟩ := Option.map_eq_some_iff.1 hstep
      exact h.readUpdate hupdate
  | appendGoalObjectiveUpdate update =>
      simp only [step] at hstep
      split at hstep
      · rename_i hcondition
        exact Option.some.inj hstep ▸ h.appendGoalObjectiveUpdate hcondition.2
      · cases hstep
  | drainPending =>
      exact Option.some.inj hstep ▸ hsame rfl rfl rfl rfl hdrain.1 hdrain.2 rfl rfl rfl
  | claimPending =>
      exact Option.some.inj hstep ▸ hsame rfl rfl rfl rfl hdrain.1 hdrain.2 rfl rfl rfl
  | enterClaim i =>
      simp only [step] at hstep
      split at hstep
      · cases hstep
      · rename_i hfree
        obtain ⟨userTexts, -, rfl⟩ := Option.map_eq_some_iff.1 hstep
        exact h.enterClaim hfree i userTexts
  | answerClaim =>
      simp only [step] at hstep
      split at hstep
      · rename_i hbinding
        exact Option.some.inj hstep ▸ h.answerClaim hbinding
      · cases hstep
  | finishClaim =>
      simp only [step] at hstep
      split at hstep
      · rename_i hbinding
        exact Option.some.inj hstep ▸ h.finishClaim hbinding rfl
      · cases hstep
  | failClaim =>
      obtain ⟨binding, -, rfl⟩ := Option.map_eq_some_iff.1 hstep
      exact h.forget rfl rfl rfl rfl (List.Subset.refl _) (List.Subset.refl _) (.inr rfl) rfl rfl
  | markApplied iteration modelCallId =>
      exact Option.some.inj hstep ▸ h.markApplied iteration modelCallId
  | recordInputs k tokens =>
      simp only [step] at hstep
      split at hstep
      · rename_i work hrecording
        obtain rfl := Option.some.inj hstep
        refine h.stay rfl rfl rfl rfl (List.Subset.refl _) ?_ ?_
        · have hworks : works (s.recordings.set k (work, .goal)) = works s.recordings :=
            works_set hrecording
          simp only [Delivery.underway, Delivery.recordInputs]
          rw [hworks]
          exact List.Subset.refl _
        · exact ((results_set .goal hrecording rfl).append_right s.reported).subperm
      · cases hstep
  | recordGoal k =>
      simp only [step] at hstep
      split at hstep
      · rename_i work hrecording
        obtain ⟨update, hupdate, rfl⟩ := Option.map_eq_some_iff.1 hstep
        exact h.recordGoal hrecording hupdate
      · cases hstep
  | finishRecording k =>
      simp only [step] at hstep
      split at hstep
      · rename_i hrecording
        exact Option.some.inj hstep ▸ h.finishRecording hrecording
      · cases hstep
  | failRecording k => exact Option.some.inj hstep ▸ h.failRecording k
  | takeAppliedGoalContext =>
      exact Option.some.inj hstep ▸ hsame rfl rfl rfl rfl rfl rfl rfl rfl rfl
  | acknowledgeApplied tokens =>
      exact Option.some.inj hstep ▸ hsame rfl rfl rfl rfl rfl rfl rfl rfl rfl
  | reclaimPending =>
      obtain rfl := Option.some.inj hstep
      exact (h.clearGoalClaimed (.inl rfl) rfl).forget rfl rfl rfl rfl (List.Subset.refl _)
        (List.Subset.refl _) (.inl rfl) rfl rfl
  | reclaimDrained =>
      exact Option.some.inj hstep ▸ hsame rfl rfl rfl rfl rfl rfl rfl rfl rfl
  | reclaimAll =>
      obtain rfl := Option.some.inj hstep
      exact (h.clearGoalClaimed (.inl rfl) rfl).forget rfl rfl rfl rfl (List.Subset.refl _)
        (List.Subset.refl _) (.inl rfl) rfl rfl
  | revokeGoalObjectiveUpdates =>
      simp only [step] at hstep
      split at hstep
      · exact Option.some.inj hstep ▸ h.clearGoalClaimed (.inl rfl) rfl
      · cases hstep
  | rejectClaimedGoalContext =>
      exact Option.some.inj hstep ▸ h.clearGoalClaimed (.inr rfl) rfl
  | editGoal id expected objective adoption now =>
      obtain ⟨ledger, hedit, rfl⟩ := Option.map_eq_some_iff.1 hstep
      exact h.advance (advance_edit h.rows.consistent hedit)
  | clearGoal id expected =>
      obtain ⟨ledger, hclear, rfl⟩ := Option.map_eq_some_iff.1 hstep
      exact h.advance (advance_clear h.rows.consistent hclear)
  | changeGoal id row =>
      simp only [step] at hstep
      split at hstep
      · rename_i hrow
        obtain rfl := Option.some.inj hstep
        exact h.advance (.of_follows h.rows.consistent
          (goal_update fun hid => hid ▸ hrow hid) same_task)
      · cases hstep
  | changeTask id row =>
      simp only [step] at hstep
      split at hstep
      · rename_i hrow
        obtain rfl := Option.some.inj hstep
        refine h.advance (.of_follows h.rows.consistent same_goal (follows_update ?_))
        intro hid task' htask'
        obtain ⟨task, htask, hcontext, heffective, hupdate⟩ := hrow hid task' htask'
        refine ⟨task, hid ▸ htask, hcontext, .inl heffective, ?_⟩
        rw [hupdate]
        exact (Follows.refl task).update
      · cases hstep

theorem authority_of_reach (h : Reach (initial owner goalId) (step owner goalId) anyStep s) :
    Authority owner goalId s := by
  induction h with
  | start hinitial =>
      obtain ⟨hconsistent, hs⟩ := hinitial
      rw [hs]
      refine ⟨⟨hconsistent, by simp, by simp [Delivery.settled, results], ?_⟩, ⟨by simp, ?_, by simp,
        ?_, by simp [Delivery.settled, results]⟩⟩
      · simp [Delivery.settled, results]
      · simp [Delivery.claimable, Provider.fresh]
      · simp [Delivery.underway, Provider.fresh, works]
  | next _ _ hstep ih => exact step_authority ih hstep

/-- In every interleaving: each accepted input is held exactly once, as pending, claimed, applied,
acknowledged or reclaimed; inputs are handed out in the order they were appended; what
`reclaim_pending` returned was not confirmed, and what was confirmed is listed as applied until it
is acknowledged or reclaimed; and an update that was reported as applied was bound, as the newest
that had been appended when it was claimed, and is reported once. -/
theorem steering_input_is_used_once
    (h : Reach (initial owner goalId) (step owner goalId) anyStep s) :
    ((s.inputs.held.map (·.original)).Perm s.accepted ∧
      (s.inputs.held.map (·.token)).Nodup) ∧
    s.batches.flatten.Sublist s.accepted ∧
    (∀ item ∈ s.reclaimedPending, item.token ∉ s.confirmed.map (·.token)) ∧
    (∀ item ∈ s.confirmed, item ∈ s.provider.pendingApplied ∨ item ∈ s.acknowledged ∨
      item ∈ s.reclaimedOtherwise) ∧
    (∀ applied ∈ s.reported, ∃ b ∈ s.bound, b.update.context = applied.context ∧
      b.update.stateRevision = applied.stateRevision ∧
      ∀ other ∈ b.seen, other.revision ≤ applied.revision) ∧
    (s.reported.map (·.revision)).Nodup := by
  have hcustody := custody_of_reach h
  have hauthority := authority_of_reach h
  have hreported : s.reported.Sublist s.settled := List.sublist_append_right _ _
  refine ⟨⟨hcustody.held, hcustody.nodup⟩, ?_, hcustody.reclaimed_not_confirmed,
    hcustody.confirmed, ?_, hauthority.rows.once.sublist (hreported.map _)⟩
  · exact (List.sublist_append_left _ _).trans hcustody.order
  · intro applied happlied
    obtain ⟨b, hb, hcontext, hrevision⟩ :=
      hauthority.trace.settled applied (hreported.subset happlied)
    refine ⟨b, hb, hcontext, hrevision, fun other hother => ?_⟩
    rw [GoalObjectiveUpdate.revision.eq_def applied, ← hcontext]
    exact (hauthority.trace.newest b hb).2 other hother

/-! ### An edit and an input of one turn -/

def running : Ledger where
  goals id :=
    if id = "goal".toList then
      some ⟨"main".toList, "session".toList, 0, "plan".toList, 1, 1, .active, some "task".toList⟩
    else none
  tasks id :=
    if id = "task".toList then
      some ⟨"main".toList, .running,
        some ⟨"session".toList, 0, "goal".toList, 1, "plan".toList, "task".toList, 0, true⟩,
        none, none⟩
    else none

def newTurn : Delivery := ⟨.fresh, running, [], none, [], [], [], [], [], [], [], [], [], [], [], []⟩

theorem initial_newTurn : initial "task".toList "goal".toList newTurn := by
  refine ⟨⟨?_, ?_⟩, rfl⟩
  · intro task htask context hcontext
    obtain rfl := Option.some.inj htask
    obtain hcontext | hcontext | ⟨update, hupdate, -⟩ := hcontext
    · exact Option.some.inj hcontext ▸ rfl
    · cases hcontext
    · cases hupdate
  · intro task htask update hupdate
    obtain rfl := Option.some.inj htask
    cases hupdate

def editedUpdate : GoalObjectiveUpdate :=
  ⟨⟨"session".toList, 0, "goal".toList, 2, "ship".toList, "task".toList, 0, true⟩, 2, 7, .pending⟩

def editedTurn : List Action :=
  [.setAppliedRecorder, .setGoalObjectiveRecorders, .append "hello".toList, .append "  ".toList,
    .editGoal "goal".toList 1 "ship".toList (some "task".toList) 7, .readUpdate,
    .appendGoalObjectiveUpdate editedUpdate, .claimPending, .enterClaim 0, .answerClaim,
    .finishClaim, .markApplied 1 "call".toList, .recordInputs 0 [0], .recordGoal 0,
    .finishRecording 0]

theorem edited_turn_is_reported :
    ∃ s, runActions (guardedStep (step "task".toList "goal".toList) anyStep) editedTurn newTurn =
        some s ∧
      (((s.inputs.held.map (·.original)).Perm s.accepted ∧
        (s.inputs.held.map (·.token)).Nodup) ∧
      s.batches.flatten.Sublist s.accepted ∧
      (∀ item ∈ s.reclaimedPending, item.token ∉ s.confirmed.map (·.token)) ∧
      (∀ item ∈ s.confirmed, item ∈ s.provider.pendingApplied ∨ item ∈ s.acknowledged ∨
        item ∈ s.reclaimedOtherwise) ∧
      (∀ applied ∈ s.reported, ∃ b ∈ s.bound, b.update.context = applied.context ∧
        b.update.stateRevision = applied.stateRevision ∧
        ∀ other ∈ b.seen, other.revision ≤ applied.revision) ∧
      (s.reported.map (·.revision)).Nodup) ∧
      s.reported.map (·.revision) = [2] ∧ s.acknowledged.map (·.token) = [0] := by
  obtain ⟨s, hs⟩ : ∃ s, runActions (guardedStep (step "task".toList "goal".toList) anyStep)
      editedTurn newTurn = some s := Option.isSome_iff_exists.mp (by decide +kernel)
  have hlogs : (runActions (guardedStep (step "task".toList "goal".toList) anyStep)
      editedTurn newTurn).map (fun s => (s.reported.map (·.revision), s.acknowledged.map (·.token))) =
        some ([2], [0]) := by
    decide +kernel
  rw [hs, Option.map_some, Option.some.injEq, Prod.mk.injEq] at hlogs
  exact ⟨s, hs, steering_input_is_used_once ((Reach.start initial_newTurn).actions hs), hlogs⟩

end OpenStarry.Steering
