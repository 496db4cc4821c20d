import OpenStarry.MetaSkill.Dispatch
import OpenStarry.MetaSkill.Settling

/-!
# Runs that end ok

A run that ends with `ok=True` has settled every step exactly when no step awaits itself. Waiting
through a substitute counts: a step that depends on the substitute of a primary that depends on it
in turn is left behind together with that primary.
-/

namespace OpenStarry.MetaSkill

open OpenStarry.Lib

/-- The step succeeded, was skipped by its `when` expression or was recovered by its substitute. -/
def Settled (s : State) (st : MetaStep) : Prop :=
  st.id ∈ s.succeeded ∨ (st.id ∈ s.skipped ∧ st.when ≠ "") ∨ (st.id ∈ s.failed ∧ st.id ∈ s.recovered)

def Completed (steps : List MetaStep) (s : State) : Prop :=
  (∀ st ∈ steps, st.id ∉ substituteIds steps → Settled s st) ∧ s.unstarted = ∅

section

variable {cfg : Config} {s : State}

theorem recovered_of_rest (hwf : WellFormed cfg.steps) (ht : Tables cfg s) (hr : Resolution cfg s)
    (hs : Settling cfg s) (hsat : Saturated s) (hloop : s.loop = .looping) (hrunning : s.running = ∅)
    {sub primary : String} (halias : s.failoverAliases sub = some primary) :
    primary ∈ s.recovered := by
  obtain ⟨⟨p, hp, rfl, rfl, hne⟩, hnotUnstarted, hnotRunning, -⟩ := ht.aliasSound sub primary halias
  obtain ⟨t, hmem, hid, hplain, hdeps⟩ := hwf.substitute p hp hne
  rw [← hid] at halias
  rcases hs.status hloop t hmem with h | h | h | h | h | ⟨sub, h⟩
  · obtain ⟨dep, hdep⟩ := Finset.nonempty_iff_ne_empty.mpr (hsat hloop hrunning _ h)
    have := hr.pendingDeclared t hmem dep hdep
    simp [hdeps] at this
  · simp [hrunning] at h
  · obtain ⟨q, hq, heq, -, hactive⟩ := hs.parkedPending hloop _ h
    rw [hwf.primaryUnique q hq p hp (heq.trans hid ▸ hne) (heq.trans hid)] at hactive
    exact absurd hactive (by simp [hnotUnstarted, hnotRunning])
  · exact hs.aliasRecovered _ _ halias (.inl h)
  · exact hs.aliasRecovered _ _ halias (.inr h)
  · obtain ⟨⟨q, hq, hqid, hqsub, hqne⟩, -⟩ := ht.aliasSound sub _ h
    obtain rfl := hwf.eq_of_id hq hmem hqid
    exact absurd (hqsub ▸ hplain) hqne

theorem resolved_of_rest (hwf : WellFormed cfg.steps) (ht : Tables cfg s) (hr : Resolution cfg s)
    (hs : Settling cfg s) (hsat : Saturated s) (hloop : s.loop = .looping) (hrunning : s.running = ∅)
    {id : String} (h : Grounded cfg.steps id) : ∀ st ∈ cfg.steps, st.id = id → Resolved s id := by
  induction h with
  | intro id _ ih =>
      rintro st hst rfl
      rcases hs.status hloop st hst with h | h | h | h | h | ⟨sub, h⟩
      · obtain ⟨dep, hdep⟩ := Finset.nonempty_iff_ne_empty.mpr (hsat hloop hrunning _ h)
        have hdeclared := hr.pendingDeclared st hst dep hdep
        obtain ⟨t, hmem, hid⟩ := hwf.depsDefined st hst dep hdeclared
        exact absurd (ih dep (.inl ⟨st, hst, rfl, hdeclared⟩) t hmem hid)
          (hr.pendingUnresolved _ dep hdep)
      · simp [hrunning] at h
      · obtain ⟨p, hp, heq, hne, hactive⟩ := hs.parkedPending hloop _ h
        have hunstarted := hactive.resolve_right (by simp [hrunning])
        exact absurd (ih p.id (.inr ⟨p, hp, heq, hne, rfl⟩) p hp rfl)
          (hs.openUnresolved _ (.inl hunstarted))
      · exact .inl h
      · exact .inr (.inl h)
      · exact .inr (.inr (recovered_of_rest hwf ht hr hs hsat hloop hrunning h))

theorem completed_of_rest (hwf : WellFormed cfg.steps) (ht : Tables cfg s) (hr : Resolution cfg s)
    (hs : Settling cfg s) (hsat : Saturated s) (hloop : s.loop = .looping) (hrunning : s.running = ∅)
    (h : ∀ id, Grounded cfg.steps id) : Completed cfg.steps s := by
  have hresolved : ∀ st ∈ cfg.steps, Resolved s st.id := fun st hst =>
    resolved_of_rest hwf ht hr hs hsat hloop hrunning (h st.id) st hst rfl
  refine ⟨fun st hst hnot => ?_, Finset.eq_empty_of_forall_notMem fun id hid => ?_⟩
  · rcases hresolved st hst with hsucceeded | hskipped | hrecovered
    · exact .inl hsucceeded
    · obtain ⟨t, hmem, hid, hwhen⟩ := (hs.skippedWhen _ hskipped).resolve_left hnot
      exact .inr (.inl ⟨hskipped, hwf.eq_of_id hmem hst hid ▸ hwhen⟩)
    · exact .inr (.inr ⟨hs.recoveredFailed _ hrecovered, hrecovered⟩)
  · obtain ⟨st, hst, rfl⟩ := hs.unstartedKnown id hid
    exact hs.openUnresolved _ (.inl hid) (hresolved st hst)

theorem grounded_of_completed (hwf : WellFormed cfg.steps) (hg : ResolvedGrounded cfg s)
    (h : Completed cfg.steps s) (id : String) : Grounded cfg.steps id := by
  have hsettled : ∀ st ∈ cfg.steps, st.id ∉ substituteIds cfg.steps → Grounded cfg.steps st.id := by
    intro st hst hnot
    refine hg st.id (.inr ?_)
    rcases h.1 st hst hnot with h | h | h
    · exact .inl h
    · exact .inr (.inl h.1)
    · exact .inr (.inr h.2)
  have hprimary : ∀ p ∈ cfg.steps, p.onFailure ≠ "" → Grounded cfg.steps p.id := by
    intro p hp hne
    refine hsettled p hp fun hsub => ?_
    obtain ⟨q, hq, heq, -⟩ := mem_substituteIds.mp hsub
    exact hne (hwf.substitute_plain hq hp heq).1
  refine .intro _ fun y hy => ?_
  have hall : ∀ t ∈ cfg.steps, Grounded cfg.steps t.id := by
    intro t ht
    by_cases hsub : t.id ∈ substituteIds cfg.steps
    · obtain ⟨p, hp, heq, hne⟩ := mem_substituteIds.mp hsub
      exact heq ▸ grounded_of_substitute hwf hp (heq ▸ hne) (hprimary p hp (heq ▸ hne))
    · exact hsettled t ht hsub
  rcases hy with ⟨st, hst, -, hdep⟩ | ⟨p, hp, -, -, rfl⟩
  · obtain ⟨t, ht, rfl⟩ := hwf.depsDefined st hst y hdep
    exact hall t ht
  · exact hall p hp

end

theorem spawnReady_loop (cap : Option Int) (order : List String) (s : State) :
    (spawnReady cap order s).loop = s.loop := (spawnReady_same cap order s).loop

theorem onFailover_loop (steps : List MetaStep) (failedId substituteId : String) (s : State) :
    (onFailover steps failedId substituteId s).loop = s.loop := by
  simp only [onFailover, State.put]
  split_ifs <;> rfl

/-- Only `conclude` ends a run with `ok=True`, and only in a state at rest. -/
theorem rest_of_ended_ok {cfg : Config} (hnonempty : cfg.steps ≠ []) (hwf : WellFormed cfg.steps)
    {s : State} (hrun : RunsTo cfg anyStep s) {result : MetaResult}
    (hend : s.loop = .ended result) (hok : result.ok = true) :
    ∃ t, RunsTo cfg anyStep t ∧ t.loop = .looping ∧ t.running = ∅ ∧ Quiet t s := by
  cases hrun with
  | start hs =>
      rcases starts_cases hs with ⟨events, early, rfl, hearly, -⟩ | ⟨-, order, t, -, -, rfl, hs⟩
      · obtain rfl : early = result := by simpa [State.finish] using hend
        exact absurd (hearly hok) hnonempty
      · rcases hs with ⟨-, rfl⟩ | ⟨-, rfl⟩
        · obtain rfl : _ = result := by simpa [State.finish] using hend
          simp [failedResult] at hok
        · rw [spawnReady_loop] at hend
          simp [State.yield, initialState] at hend
  | @next t _ _ hreach _ hstep =>
      rcases step_move hstep with ⟨sid, hmove⟩ | hmove
      · have he := hmove.effect (run_tables hwf hreach).failedFinished
        exact absurd (he.loop ▸ hend) (hmove.not_ended result)
      · cases hmove with
        | showEvent order sid ev rest hloop hqueue =>
            simp [onEvent, State.yield, hloop] at hend
        | stepDone order sid text status rest hloop hqueue hnodup horder =>
            obtain ⟨_, _, he⟩ := onStepDone_effect cfg.steps sid text status
              { t with queue := rest }
            rw [spawnReady_loop, he.loop] at hend
            simp [hloop] at hend
        | failover order sid failedId substituteId error rest hloop hqueue hnodup horder =>
            rw [spawnReady_loop, onFailover_loop] at hend
            simp [hloop] at hend
        | paused order sid stepId rest hloop hqueue => simp [onPaused] at hend
        | exception order sid error rest hloop hqueue => simp [onException] at hend
        | conclude hloop hrunning hqueue =>
            exact ⟨t, hreach, hloop, hrunning, (quiet_yield _ _).trans (quiet_finish _ _)⟩
        | drain failedStepId error hloop hdone =>
            obtain rfl : _ = result := by simpa [State.finish] using hend
            simp at hok
        | endPause hloop hdone =>
            obtain rfl : _ = result := by simpa [State.finish] using hend
            simp at hok

/-! ### Waiting in a circle -/

theorem grounded_iff_no_cycle {steps : List MetaStep} :
    (∀ id, Grounded steps id) ↔ ∀ id, ¬ Relation.TransGen (Awaits steps) id id := by
  have hsupport : ∀ y x, Awaits steps x y →
      y ∈ stepIds steps ∪ (steps.flatMap (·.dependsOn)).toFinset := by
    rintro y x (⟨st, hst, -, hdep⟩ | ⟨st, hst, -, -, rfl⟩)
    · refine Finset.mem_union_right _ (List.mem_toFinset.mpr ?_)
      exact List.mem_flatMap.mpr ⟨st, hst, hdep⟩
    · exact Finset.mem_union_left _ (mem_stepIds.mpr ⟨st, hst, rfl⟩)
  have hswap : ∀ id, Relation.TransGen (fun y x => Awaits steps x y) id id ↔
      Relation.TransGen (Awaits steps) id id := fun _ => Relation.transGen_swap
  rw [acc_iff_no_cycle _ hsupport]
  simp only [hswap]

theorem awaits_congr {steps steps' : List MetaStep} (h : ∀ st, st ∈ steps ↔ st ∈ steps') :
    Awaits steps = Awaits steps' := by
  funext x y
  simp only [Awaits, h]

/-- A run without seeds that ends with `ok=True` has settled every step that is no substitute and
left none unstarted if and only if no step awaits itself. -/
theorem ended_ok_completed_iff {pyStr : Raw → String} {spec : SkillSpec} {cfg : Config}
    (hparse : parseMetaPlan pyStr spec = .ok (some cfg.plan))
    (hseed : cfg.seedOutputs = fun _ => none)
    (hcap : ∀ limit, cfg.maxParallelism = some limit → 1 ≤ limit) {s : State}
    (hrun : RunsTo cfg anyStep s) {result : MetaResult} (hend : s.loop = .ended result)
    (hok : result.ok = true) :
    Completed cfg.plan.steps s ↔
      ∀ id, ¬ Relation.TransGen (Awaits cfg.plan.steps) id id := by
  have haccepted := parseMetaPlan_accepted hparse
  have hwf := haccepted.wellFormed
  have hmem : ∀ st, st ∈ cfg.plan.steps ↔ st ∈ cfg.steps := fun _ => haccepted.mem_steps.symm
  have hseedless : cfg.Seedless := fun id => by simp [Config.initialOutputs, hseed]
  have hnonempty : cfg.steps ≠ [] := fun hnil => haccepted.nonempty
    (List.eq_nil_iff_forall_not_mem.mpr fun st hst => by simpa [hnil] using (hmem st).mp hst)
  obtain ⟨t, hreach, hloop, hrunning, hquiet⟩ := rest_of_ended_ok hnonempty hwf hrun hend hok
  have hsettling := (Settling.preserved hwf hseedless).run_any hwf hreach
  have hgrounded := ((resolvedGrounded_preserved hwf hseedless).run_any hwf hreach).2
  have hcompleted : Completed cfg.plan.steps s ↔ Completed cfg.steps t := by
    have hsubs : substituteIds cfg.plan.steps = substituteIds cfg.steps := by
      ext id
      simp only [mem_substituteIds, hmem]
    simp only [Completed, Settled, hmem, hsubs, hquiet.succeeded, hquiet.skipped, hquiet.failed,
      hquiet.recovered, hquiet.unstarted]
  rw [hcompleted, awaits_congr hmem, ← grounded_iff_no_cycle]
  constructor
  · exact grounded_of_completed hwf hgrounded
  · exact completed_of_rest hwf (run_tables hwf hreach) (run_resolution hwf hreach) hsettling
      (run_saturated hwf hcap hreach) hloop hrunning

/-! ### A primary that waits for its own substitute -/

def endedOk (s : State) : Bool :=
  match s.loop with
  | .ended result => result.ok
  | _ => false

theorem endedOk_result {s : State} (h : endedOk s = true) :
    ∃ result, s.loop = .ended result ∧ result.ok = true := by
  unfold endedOk at h
  split at h
  · rename_i result hloop
    exact ⟨result, hloop, h⟩
  · simp at h

/-- `outline` waits for the substitute of `draft`, and `draft` for `outline`. -/
def circularSpec : SkillSpec :=
  metaSpec [rawStep "collect" [] [], rawStep "backup" [] [], rawStep "outline" ["backup"] [],
    rawStep "draft" ["outline"] [("on_failure", .str "backup")]]

def circularConfig : Config where
  plan :=
    { name := "report"
      steps := [chatStep "collect", chatStep "backup",
        { chatStep "outline" with dependsOn := ["backup"] },
        { chatStep "draft" with dependsOn := ["outline"], onFailure := "backup" }] }

theorem circular_run_drops_steps :
    parseMetaPlan (fun _ => "") circularSpec = .ok (some circularConfig.plan) ∧
      ∃ s result, RunsTo circularConfig anyStep s ∧ s.loop = .ended result ∧ result.ok = true ∧
        ¬ Completed circularConfig.plan.steps s ∧ "outline" ∈ s.unstarted ∧ "draft" ∈ s.unstarted := by
  refine ⟨by rfl, ?_⟩
  obtain ⟨s, hrun, hs⟩ : ∃ s, RunsTo circularConfig anyStep s ∧ (endedOk s &&
      (decide ("outline" ∈ s.unstarted) && decide ("draft" ∈ s.unstarted))) = true :=
    exists_run (by rfl) ["collect", "outline", "draft"]
      [.evaluate "collect" .proceed, .dispatch "collect", .finish "collect" "notes", .handle [],
        .handle [], .handle [], .handle [], .handle ["outline", "draft"], .conclude] (by decide)
  simp only [Bool.and_eq_true, decide_eq_true_eq] at hs
  obtain ⟨result, hend, hok⟩ := endedOk_result hs.1
  refine ⟨s, result, hrun, hend, hok, fun hcompleted => ?_, hs.2.1, hs.2.2⟩
  simpa [hcompleted.2] using hs.2.1

theorem fallback_ended_ok_completed_iff :
    ∃ s, RunsTo fallbackConfig anyStep s ∧ (Completed fallbackConfig.plan.steps s ↔
      ∀ id, ¬ Relation.TransGen (Awaits fallbackConfig.plan.steps) id id) := by
  obtain ⟨s, hrun, hs⟩ : ∃ s, RunsTo fallbackConfig anyStep s ∧ endedOk s = true :=
    exists_run (by rfl) ["draft", "polish"]
      (draftSucceeds ++ [.evaluate "polish" .proceed, .dispatch "polish", .finish "polish" "done",
        .handle [], .handle [], .handle [], .handle [], .handle [], .conclude]) (by decide)
  obtain ⟨result, hend, hok⟩ := endedOk_result hs
  exact ⟨s, hrun, ended_ok_completed_iff fallbackSpec_accepted rfl (by simp [fallbackConfig]) hrun
    hend hok⟩

end OpenStarry.MetaSkill
