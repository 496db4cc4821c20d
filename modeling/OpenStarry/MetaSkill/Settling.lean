import OpenStarry.MetaSkill.Resolution

/-!
# Where each step stands in a run without seeds

In a run that starts from nothing each step is waiting, running, parked, resolved or failed over
for as long as the loop runs (`Settling`), and the loop rests only when every step that still waits
is blocked (`Saturated`). `Reachable` is the other direction: what was started or resolved had
everything it waits for resolved before.
-/

namespace OpenStarry.MetaSkill

open OpenStarry.Lib

/-- `x` cannot be resolved before `y` is: a step waits for its dependencies, and a substitute is
neither started nor released before its primary came to an end. -/
def Awaits (steps : List MetaStep) (x y : String) : Prop :=
  (∃ st ∈ steps, st.id = x ∧ y ∈ st.dependsOn) ∨
    ∃ st ∈ steps, st.onFailure = x ∧ x ≠ "" ∧ st.id = y

structure Settling (cfg : Config) (s : State) : Prop where
  status : s.loop = .looping → ∀ st ∈ cfg.steps, st.id ∈ s.unstarted ∨ st.id ∈ s.running ∨
    st.id ∈ s.substituteOnly ∨ st.id ∈ s.succeeded ∨ st.id ∈ s.skipped ∨
      ∃ sub, s.failoverAliases sub = some st.id
  parkedPending : s.loop = .looping → ∀ sub ∈ s.substituteOnly, ∃ st ∈ cfg.steps,
    st.onFailure = sub ∧ sub ≠ "" ∧ (st.id ∈ s.unstarted ∨ st.id ∈ s.running)
  openUnresolved : ∀ id, id ∈ s.unstarted ∨ id ∈ s.running ∨ id ∈ s.substituteOnly →
    ¬ Resolved s id
  aliasRecovered : ∀ sub primary, s.failoverAliases sub = some primary →
    sub ∈ s.succeeded ∨ sub ∈ s.skipped → primary ∈ s.recovered
  recoveredFailed : ∀ id ∈ s.recovered, id ∈ s.failed
  skippedWhen : ∀ id ∈ s.skipped, id ∈ substituteIds cfg.steps ∨
    ∃ st ∈ cfg.steps, st.id = id ∧ st.when ≠ ""
  unstartedKnown : ∀ id ∈ s.unstarted, ∃ st ∈ cfg.steps, st.id = id

def Config.Seedless (cfg : Config) : Prop := ∀ id, cfg.initialOutputs id = none

theorem Config.Seedless.trusted {cfg : Config} (h : cfg.Seedless) (steps : List MetaStep) :
    cfg.trustedReplayAliases steps = [] := by
  simp [Config.trustedReplayAliases, h _]

theorem Config.Seedless.reusable {cfg : Config} (h : cfg.Seedless) (id : String) :
    cfg.reusable id = false := by
  simp [Config.reusable, h id]

namespace Settling

variable {cfg : Config} {s s' : State} {sid : String}

theorem init (hwf : WellFormed cfg.steps) (hseed : cfg.Seedless) :
    Settling cfg (initialState cfg cfg.steps) := by
  have hparked : ∀ id, id ∈ (initialState cfg cfg.steps).substituteOnly ↔
      id ∈ substituteIds cfg.steps := fun id => by
    simp [mem_initial_substituteOnly, hseed.trusted]
  have hunstarted : ∀ st ∈ cfg.steps, st.id ∉ substituteIds cfg.steps →
      st.id ∈ (initialState cfg cfg.steps).unstarted := fun st hst hnot =>
    mem_initial_unstarted.mpr ⟨mem_stepIds.mpr ⟨st, hst, rfl⟩, by rwa [hparked], hseed _⟩
  have hsucceeded : (initialState cfg cfg.steps).succeeded = ∅ := by
    simp [initialState, hseed.reusable]
  refine ⟨fun _ st hst => ?_, fun _ sub hsub => ?_, fun id _ hres => ?_, fun sub primary halias => ?_,
    by simp [initialState], by simp [initialState],
    fun id hid => mem_stepIds.mp (mem_initial_unstarted.mp hid).1⟩
  · by_cases hsub : st.id ∈ substituteIds cfg.steps
    · exact .inr (.inr (.inl ((hparked _).mpr hsub)))
    · exact .inl (hunstarted st hst hsub)
  · obtain ⟨st, hst, rfl, hne⟩ := mem_substituteIds.mp ((hparked _).mp hsub)
    refine ⟨st, hst, rfl, hne, .inl (hunstarted st hst fun hmem => ?_)⟩
    obtain ⟨p, hp, heq, -⟩ := mem_substituteIds.mp hmem
    exact hne (hwf.substitute_plain hp hst heq).1
  · simp [Resolved, hsucceeded] at hres
    simp [initialState] at hres
  · change (cfg.trustedReplayAliases cfg.steps).lookup sub = _ at halias
    simp [hseed.trusted] at halias

theorem spawn (h : Settling cfg s) (hsid : sid ∈ s.unstarted) : Settling cfg (s.spawn sid) := by
  have hstill : ∀ id, id ∈ s.unstarted ∨ id ∈ s.running →
      id ∈ (s.spawn sid).unstarted ∨ id ∈ (s.spawn sid).running := by
    intro id hid
    by_cases heq : id = sid
    · exact .inr (heq ▸ Finset.mem_insert_self _ _)
    · exact hid.imp (fun h => Finset.mem_erase.mpr ⟨heq, h⟩) (Finset.mem_insert_of_mem)
  refine ⟨fun hloop st hst => ?_, fun hloop sub hsub => ?_, fun id hid => ?_, h.aliasRecovered,
    h.recoveredFailed, h.skippedWhen, fun id hid => h.unstartedKnown id (Finset.mem_of_mem_erase hid)⟩
  · rw [← or_assoc]
    rcases h.status hloop st hst with hmem | hmem | hrest
    · exact .inl (hstill _ (.inl hmem))
    · exact .inl (hstill _ (.inr hmem))
    · exact .inr hrest
  · obtain ⟨st, hst, heq, hne, hactive⟩ := h.parkedPending hloop sub hsub
    exact ⟨st, hst, heq, hne, hstill _ hactive⟩
  · refine h.openUnresolved id ?_
    rcases hid with hid | hid | hid
    · exact .inl (Finset.mem_of_mem_erase hid)
    · rcases Finset.mem_insert.mp hid with rfl | hid
      · exact .inl hsid
      · exact .inr (.inl hid)
    · exact .inr (.inr hid)

theorem task (h : Settling cfg s) (he : TaskEffect cfg.steps s sid s') : Settling cfg s' := by
  have hres : ∀ id, Resolved s' id ↔ Resolved s id := fun id => by
    simp only [Resolved, he.succeeded, he.skipped, he.recovered]
  refine ⟨?_, ?_, ?_, ?_, fun id hid => ?_, ?_, he.unstarted ▸ h.unstartedKnown⟩
  · simpa only [he.loop, he.unstarted, he.running, he.substituteOnly, he.succeeded, he.skipped,
      he.failoverAliases] using h.status
  · simpa only [he.loop, he.unstarted, he.running, he.substituteOnly] using h.parkedPending
  · simpa only [hres, he.unstarted, he.running, he.substituteOnly] using h.openUnresolved
  · simpa only [he.failoverAliases, he.succeeded, he.skipped, he.recovered] using h.aliasRecovered
  · exact he.failedKept (h.recoveredFailed id (he.recovered ▸ hid))
  · simpa only [he.skipped] using h.skippedWhen

theorem quiet (h : Settling cfg s) (he : Quiet s s') : Settling cfg s' := by
  have hres : ∀ id, Resolved s' id ↔ Resolved s id := fun id => by
    simp only [Resolved, he.succeeded, he.skipped, he.recovered]
  refine ⟨fun hloop => ?_, fun hloop => ?_, fun id hid => ?_, ?_, ?_, ?_,
    he.unstarted ▸ h.unstartedKnown⟩
  · obtain ⟨hlooping, hrunning⟩ := he.looping hloop
    simpa only [hrunning, he.unstarted, he.substituteOnly, he.succeeded, he.skipped,
      he.failoverAliases] using h.status hlooping
  · obtain ⟨hlooping, hrunning⟩ := he.looping hloop
    simpa only [hrunning, he.unstarted, he.substituteOnly] using h.parkedPending hlooping
  · rw [hres]
    rw [he.unstarted, he.substituteOnly] at hid
    exact h.openUnresolved id (hid.imp_right fun h => h.imp_left fun h => he.runningSubset h)
  · simpa only [he.failoverAliases, he.succeeded, he.skipped, he.recovered] using h.aliasRecovered
  · simpa only [he.recovered, he.failed] using h.recoveredFailed
  · simpa only [he.skipped] using h.skippedWhen

theorem stepDone (hwf : WellFormed cfg.steps) (hseed : cfg.Seedless) (ht : Tables cfg s)
    (h : Settling cfg s) {text : String} {status : DoneStatus} {mirrored released : Option String}
    (hfinished : s.phase sid = .finished) (hrunning : sid ∈ s.running)
    (hsound : ItemSound cfg.steps s sid (.stepDone text status))
    (he : DoneEffect cfg.steps sid text status s mirrored released s') : Settling cfg s' := by
  have hnotFailed : sid ∉ s.failed := by
    cases status with
    | ok => exact hsound.2.2
    | skipped => exact hsound.2.2.1
  have hnotRecovered : sid ∉ s'.recovered := by
    rw [he.recovered, he.aliased, Option.mem_def]
    rintro (hold | halias)
    · exact hnotFailed (h.recoveredFailed _ hold)
    · exact (ht.aliasSound _ _ halias).2.2.1 hrunning
  have hmirroredFailed : ∀ id ∈ mirrored, id ∈ s.failed ∧ id ∉ s.unstarted ∧ id ∉ s.running := by
    intro id hid
    rw [he.aliased, Option.mem_def] at hid
    obtain ⟨-, hnotUnstarted, hnotRunning, hcause⟩ := ht.aliasSound _ _ hid
    refine ⟨hcause.resolve_right ?_, hnotUnstarted, hnotRunning⟩
    simp [hseed.trusted]
  have hdone : sid ∈ s'.succeeded ∨ sid ∈ s'.skipped := by
    rw [he.succeeded, he.skipped]
    cases status <;> simp
  have hrun : ∀ id, id ∈ s'.running ↔ id ≠ sid ∧ id ∈ s.running := fun id => by
    rw [he.running, Finset.mem_erase]
  refine ⟨fun hloop st hst => ?_, fun hloop sub hsub => ?_, fun id hid hres => ?_,
    fun sub primary halias hclosed => ?_, fun id hid => ?_, fun id hid => ?_,
    he.unstarted ▸ h.unstartedKnown⟩
  · rw [he.unstarted, he.failoverAliases]
    rcases h.status (he.loop ▸ hloop) st hst with hmem | hmem | hmem | hmem | hmem | hmem
    · exact .inl hmem
    · by_cases heq : st.id = sid
      · exact .inr (.inr (.inr (heq ▸ hdone.imp_right .inl)))
      · exact .inr (.inl ((hrun _).mpr ⟨heq, hmem⟩))
    · by_cases hreleased : st.id ∈ released
      · exact .inr (.inr (.inr (.inr (.inl ((he.skipped _).mpr (.inr (.inr hreleased)))))))
      · exact .inr (.inr (.inl ((he.substituteOnly _).mpr ⟨hmem, hreleased⟩)))
    · exact .inr (.inr (.inr (.inl ((he.succeeded _).mpr (.inl hmem)))))
    · exact .inr (.inr (.inr (.inr (.inl ((he.skipped _).mpr (.inl hmem))))))
    · exact .inr (.inr (.inr (.inr (.inr hmem))))
  · obtain ⟨hparked, hkept⟩ := (he.substituteOnly sub).mp hsub
    obtain ⟨st, hst, rfl, hne, hactive⟩ := h.parkedPending (he.loop ▸ hloop) sub hparked
    refine ⟨st, hst, rfl, hne, ?_⟩
    rw [he.unstarted]
    refine hactive.imp_right fun hmem => (hrun _).mpr ⟨fun heq => hkept ?_, hmem⟩
    exact he.releasedComplete st (heq ▸ hwf.stepById_eq hst) hnotRecovered hne hparked
  · have hopen : id ∈ s.unstarted ∨ id ∈ s.running ∨ id ∈ s.substituteOnly := by
      rw [he.unstarted, hrun, he.substituteOnly] at hid
      exact hid.imp_right (.imp And.right And.left)
    have hne : id ≠ sid := by
      rintro rfl
      rcases hid with hid | hid | hid
      · exact ht.running_not_unstarted hrunning (he.unstarted ▸ hid)
      · exact ((hrun _).mp hid).1 rfl
      · have := (ht.parkedIdle _ ((he.substituteOnly _).mp hid).1).1
        simp [hfinished] at this
    have hnotMirrored : id ∉ mirrored := fun hmem => by
      obtain ⟨hfailed, hnotUnstarted, hnotRunning⟩ := hmirroredFailed id hmem
      rcases hopen with hopen | hopen | hopen
      · exact hnotUnstarted hopen
      · exact hnotRunning hopen
      · have := (ht.parkedIdle _ hopen).1
        simp [ht.failedFinished id hfailed] at this
    have hnotReleased : id ∉ released := fun hmem => by
      obtain ⟨hparked, -⟩ := he.releasedSound id hmem
      obtain ⟨hidle, hnotUnstarted⟩ := ht.parkedIdle id hparked
      rcases hid with hid | hid | hid
      · exact hnotUnstarted (he.unstarted ▸ hid)
      · exact ht.runningStarted id ((hrun _).mp hid).2 hidle
      · exact ((he.substituteOnly _).mp hid).2 hmem
    refine h.openUnresolved id hopen ?_
    simp only [Resolved, he.succeeded, he.skipped, he.recovered] at hres ⊢
    tauto
  · rw [he.failoverAliases] at halias
    rw [he.recovered]
    by_cases heq : sub = sid
    · exact .inr (by rw [he.aliased, ← heq]; exact halias)
    · refine .inl (h.aliasRecovered sub primary halias ?_)
      rw [he.succeeded, he.skipped] at hclosed
      rcases hclosed with (hold | ⟨hsid, -⟩) | (hold | ⟨hsid, -⟩ | hreleased)
      · exact .inl hold
      · exact absurd hsid heq
      · exact .inr hold
      · exact absurd hsid heq
      · obtain ⟨-, -, st, hst, hid, hsub, hne⟩ := he.releasedSound sub hreleased
        obtain ⟨⟨p, hp, rfl, hpsub, -⟩, -, hnotRunning, -⟩ := ht.aliasSound _ _ halias
        have := hwf.primaryUnique st hst p hp (hsub ▸ hne) (hsub.trans hpsub.symm)
        exact absurd (hid ▸ hrunning) (this ▸ hnotRunning)
  · rw [he.failed]
    rcases (he.recovered id).mp hid with hold | hnew
    · exact h.recoveredFailed id hold
    · exact (hmirroredFailed id hnew).1
  · rcases (he.skipped id).mp hid with hold | ⟨rfl, rfl⟩ | hreleased
    · exact h.skippedWhen id hold
    · exact .inr hsound.2.2.2
    · obtain ⟨-, -, st, hst, -, rfl, hne⟩ := he.releasedSound id hreleased
      exact .inl (mem_substituteIds.mpr ⟨st, hst, rfl, hne⟩)

theorem failover (hwf : WellFormed cfg.steps) (htab : Tables cfg s) (h : Settling cfg s)
    {st : MetaStep} (he : FailoverEffect cfg.steps st s s') : Settling cfg s' := by
  obtain ⟨hst, hsub, hfailed, hrunning, hparked, hidle, -, -, hne, rfl⟩ := he
  have hopen := h.openUnresolved st.onFailure (.inr (.inr hparked))
  refine ⟨fun hloop t ht => ?_, fun hloop sub hmem => ?_, fun id hid => ?_,
    fun sub primary halias hclosed => ?_, h.recoveredFailed, h.skippedWhen, fun id hid => ?_⟩
  · by_cases hself : t.id = st.id
    · exact .inr (.inr (.inr (.inr (.inr ⟨st.onFailure, by simp [hself]⟩))))
    · by_cases hreleased : t.id = st.onFailure
      · exact .inl (Finset.mem_insert.mpr (.inl hreleased))
      · rcases h.status hloop t ht with hmem | hmem | hmem | hmem | hmem | ⟨sub, halias⟩
        · exact .inl (Finset.mem_insert_of_mem hmem)
        · exact .inr (.inl (Finset.mem_erase.mpr ⟨hself, hmem⟩))
        · exact .inr (.inr (.inl (Finset.mem_erase.mpr ⟨hreleased, hmem⟩)))
        · exact .inr (.inr (.inr (.inl hmem)))
        · exact .inr (.inr (.inr (.inr (.inl hmem))))
        · refine .inr (.inr (.inr (.inr (.inr ⟨sub, ?_⟩))))
          refine (Function.update_of_ne (fun heq => ?_) _ _).trans halias
          obtain ⟨⟨p, hp, hid, hpsub, hpne⟩, -⟩ := htab.aliasSound _ _ halias
          have := hwf.primaryUnique p hp st hst (hpsub ▸ hpne) (hpsub.trans heq)
          exact hself (this ▸ hid.symm)
  · obtain ⟨hother, hmem⟩ := Finset.mem_erase.mp hmem
    obtain ⟨t, ht, rfl, htne, hactive⟩ := h.parkedPending hloop sub hmem
    refine ⟨t, ht, rfl, htne, hactive.imp Finset.mem_insert_of_mem fun hmem => ?_⟩
    refine Finset.mem_erase.mpr ⟨fun heq => hother ?_, hmem⟩
    rw [hwf.eq_of_id ht hst heq]
  · rcases hid with hid | hid | hid
    · rcases Finset.mem_insert.mp hid with rfl | hid
      · exact hopen
      · exact h.openUnresolved id (.inl hid)
    · exact h.openUnresolved id (.inr (.inl (Finset.mem_of_mem_erase hid)))
    · exact h.openUnresolved id (.inr (.inr (Finset.mem_of_mem_erase hid)))
  · by_cases heq : sub = st.onFailure
    · exact absurd (hclosed.imp_right .inl) (heq ▸ hopen)
    · refine h.aliasRecovered sub primary ?_ hclosed
      simpa only [Function.update_of_ne heq] using halias
  · rcases Finset.mem_insert.mp hid with rfl | hid
    · obtain ⟨t, ht, heq, -⟩ := hwf.substitute st hst hsub
      exact ⟨t, ht, heq⟩
    · exact h.unstartedKnown id hid

theorem preserved (hwf : WellFormed cfg.steps) (hseed : cfg.Seedless) :
    Preserved cfg (fun _ => True) (Settling cfg) where
  init := init hwf hseed
  task := fun _ h _ he => task h he
  spawn := fun _ h hsid _ _ => spawn h hsid
  stepDone := fun ht h hfinished hrunning hsound he =>
    stepDone hwf hseed ht h hfinished hrunning hsound he
  failover := fun ht h _ he => failover hwf ht h he
  quiet := fun h he => quiet h he

end Settling

/-! ### The loop rests only when every waiting step is blocked -/

def Saturated (s : State) : Prop :=
  s.loop = .looping → s.running = ∅ → ∀ id ∈ s.unstarted, s.pendingDeps id ≠ ∅

theorem Saturated.quiet {s s' : State} (h : Saturated s) (he : Quiet s s') : Saturated s' := by
  intro hloop hrunning
  obtain ⟨hlooping, hsame⟩ := he.looping hloop
  rw [he.unstarted, he.pendingDeps]
  exact h hlooping (hsame ▸ hrunning)

theorem spawnReady_rests {cap : Option Int} (hcap : ∀ limit, cap = some limit → 1 ≤ limit)
    {order : List String} {s : State} (horder : order.toFinset = s.unstarted) :
    Saturated (spawnReady cap order s) := by
  intro _ hrunning id hid
  have hnot : capReached cap (spawnReady cap order s).running ≠ true := by
    rw [hrunning]
    cases cap with
    | none => simp [capReached]
    | some limit =>
        have hpositive : ¬ limit ≤ 0 := by
          have := hcap limit rfl
          omega
        simp [capReached, hpositive]
  have hblocked := (spawnReady_saturated cap order s).resolve_left hnot
  rw [(spawnReady_same cap order s).pendingDeps]
  refine hblocked id ?_ hid
  rw [← List.mem_toFinset, horder]
  exact spawnReady_unstarted_subset cap order s hid

theorem run_saturated {cfg : Config} (hwf : WellFormed cfg.steps)
    {guard : State → Action → Prop}
    (hcap : ∀ limit, cfg.maxParallelism = some limit → 1 ≤ limit) {s : State}
    (h : RunsTo cfg guard s) : Saturated s := by
  refine h.strengthen (fun _ => run_tables hwf) (fun s hs => ?_) fun s a s' ht hsat _ hstep => ?_
  · rcases starts_cases hs with ⟨events, result, rfl, -⟩ | ⟨-, order, t, -, horder, rfl, hs⟩
    · exact fun hloop => by simp [State.finish] at hloop
    · rcases hs with ⟨-, rfl⟩ | ⟨-, rfl⟩
      · exact fun hloop => by simp [State.finish] at hloop
      · exact spawnReady_rests hcap (by rw [horder]; rfl)
  · rcases step_move hstep with ⟨sid, hmove⟩ | hmove
    · have he := hmove.effect ht.failedFinished
      simpa only [Saturated, he.loop, he.running, he.unstarted, he.pendingDeps] using hsat
    · cases hmove with
      | showEvent order sid ev rest hloop hqueue => exact hsat.quiet (.of_yielded rest _ _ rfl)
      | stepDone order sid text status rest hloop hqueue hnodup horder =>
          exact spawnReady_rests hcap horder
      | failover order sid failedId substituteId error rest hloop hqueue hnodup horder =>
          exact spawnReady_rests hcap horder
      | paused order sid stepId rest hloop hqueue =>
          exact fun hlooping => by simp [onPaused] at hlooping
      | exception order sid error rest hloop hqueue =>
          exact fun hlooping => by simp [onException] at hlooping
      | conclude hloop hrunning hqueue => exact fun hlooping => by simp [State.finish] at hlooping
      | drain failedStepId error hloop hdone => exact fun hlooping => by simp [State.finish] at hlooping
      | endPause hloop hdone => exact fun hlooping => by simp [State.finish] at hlooping

/-! ### What was started or resolved awaited nothing unresolved -/

/-- The steps outside every cycle of `Awaits`. -/
abbrev Grounded (steps : List MetaStep) : String → Prop := Acc fun y x => Awaits steps x y

theorem grounded_of_substitute {cfg : Config} (hwf : WellFormed cfg.steps) {st : MetaStep}
    (hst : st ∈ cfg.steps) (hsub : st.onFailure ≠ "") (h : Grounded cfg.steps st.id) :
    Grounded cfg.steps st.onFailure := by
  refine .intro _ fun y hy => ?_
  rcases hy with ⟨t, ht, hid, hdep⟩ | ⟨p, hp, heq, -, rfl⟩
  · rw [(hwf.substitute_plain hst ht hid.symm).2] at hdep
    simp at hdep
  · rwa [hwf.primaryUnique p hp st hst (heq ▸ hsub) heq]

def ResolvedGrounded (cfg : Config) (s : State) : Prop :=
  ∀ id, s.phase id ≠ .idle ∨ Resolved s id → Grounded cfg.steps id

theorem resolvedGrounded_preserved {cfg : Config} (hwf : WellFormed cfg.steps)
    (hseed : cfg.Seedless) :
    Preserved cfg (fun _ => True) fun s => Resolution cfg s ∧ ResolvedGrounded cfg s where
  init := by
    refine ⟨Resolution.init hwf, fun id hid => ?_⟩
    simp [Resolved, initialState, hseed.reusable] at hid
  task := fun {s s' sid a} ht h hmove he => by
    refine ⟨h.1.task he, fun id hid => h.2 id ?_⟩
    obtain ⟨ph, -, hphase⟩ := he.phase
    simp only [Resolved, he.succeeded, he.skipped, he.recovered] at hid
    refine hid.imp_left fun hne heq => ?_
    by_cases hself : id = sid
    · exact he.notIdle (hself ▸ heq)
    · rw [hphase, Function.update_of_ne hself] at hne
      exact hne heq
  spawn := fun {s sid} ht h hsid hready _ => by
    refine ⟨h.1.spawn ht hsid hready, fun id hid => ?_⟩
    by_cases hself : id = sid
    · subst hself
      refine .intro _ fun y hy => h.2 y ?_
      rcases hy with ⟨st, hst, rfl, hdep⟩ | ⟨st, hst, rfl, hne, rfl⟩
      · exact .inr (h.1.droppedResolved st hst y hdep (by simp [hready]))
      · have halias := ht.substituteAliased st hst hne (.inl hsid)
        have hfailed := (ht.aliasSound _ _ halias).2.2.2.resolve_right (by simp [hseed.trusted])
        exact .inl (by simp [ht.failedFinished _ hfailed])
    · exact h.2 id (hid.imp_left fun hne => by simpa [State.spawn, hself] using hne)
  stepDone := fun {s s' sid text status mirrored released} ht h hfinished hrunning hsound he => by
    refine ⟨h.1.stepDone hwf ht hfinished hrunning hsound he, fun id hid => ?_⟩
    have hsid : Grounded cfg.steps sid := h.2 sid (.inl (by simp [hfinished]))
    have hmirrored : id ∈ mirrored → Grounded cfg.steps id := fun hmem => by
      rw [he.aliased, Option.mem_def] at hmem
      have hfailed := (ht.aliasSound _ _ hmem).2.2.2.resolve_right (by simp [hseed.trusted])
      exact h.2 id (.inl (by simp [ht.failedFinished _ hfailed]))
    have hreleased : id ∈ released → Grounded cfg.steps id := fun hmem => by
      obtain ⟨-, -, st, hst, heq, rfl, hne⟩ := he.releasedSound id hmem
      exact grounded_of_substitute hwf hst hne (heq ▸ hsid)
    simp only [Resolved, he.phase, he.succeeded, he.skipped, he.recovered] at hid
    rcases hid with hid | (hid | ⟨rfl, -⟩) | (hid | ⟨rfl, -⟩ | hid) | hid | hid
    · exact h.2 id (.inl hid)
    · exact h.2 id (.inr (.inl hid))
    · exact hsid
    · exact h.2 id (.inr (.inr (.inl hid)))
    · exact hsid
    · exact hreleased hid
    · exact h.2 id (.inr (.inr (.inr hid)))
    · exact hmirrored hid
  failover := fun ht h _ he => by
    refine ⟨h.1.failover hwf he, ?_⟩
    obtain ⟨-, -, -, -, -, -, -, -, -, rfl⟩ := he
    exact h.2
  quiet := fun h he => by
    refine ⟨h.1.quiet he, fun id hid => h.2 id ?_⟩
    simpa only [Resolved, he.phase, he.succeeded, he.skipped, he.recovered] using hid

end OpenStarry.MetaSkill
