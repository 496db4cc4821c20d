import OpenStarry.MetaSkill.Resolution

/-!
# What a step finds of its dependencies

When a step's `when` expression is evaluated and when its body is dispatched, each dependency has
its entry in the shared outputs. The one exception is by design: a substitute that did not have to
fire is resolved as skipped without an output.
-/

namespace OpenStarry.MetaSkill

open OpenStarry.Lib

def ReadsOutputs (sid : String) (a : Action) : Prop :=
  (∃ outcome, a = .evaluate sid outcome) ∨ a = .dispatch sid

theorem readsOutputs_started {cfg : Config} {s s' : State} {sid : String} {a : Action}
    (ha : ReadsOutputs sid a) (hstep : cfg.step s a = some s') : s.phase sid ≠ .idle := by
  rcases ha with ⟨outcome, rfl⟩ | rfl
  · rcases step_move hstep with ⟨_, hmove⟩ | hmove
    · cases hmove <;> simp_all
    · cases hmove
  · rcases step_move hstep with ⟨_, hmove⟩ | hmove
    · cases hmove
      simp_all
    · cases hmove

/-- Each dependency of a step that is evaluated or dispatched has an entry, with a text that its own
body returned, that was reused, that stands for a skipped step or that its substitute delivered,
unless the dependency is a substitute whose primary completed without failing. -/
theorem dependency_entry {pyStr : Raw → String} {spec : SkillSpec} {cfg : Config}
    (hparse : parseMetaPlan pyStr spec = .ok (some cfg.plan)) {s s' : State}
    (hrun : RunsTo cfg anyStep s) {st : MetaStep} (hst : st ∈ cfg.plan.steps) {a : Action}
    (ha : ReadsOutputs st.id a) (hstep : cfg.step s a = some s') {dep : String}
    (hdep : dep ∈ st.dependsOn) :
    (∃ text, s.outputs dep = some text ∧ EntrySource cfg s dep text) ∨ Unfired cfg s dep := by
  have haccepted := parseMetaPlan_accepted hparse
  have hresolution := run_resolution haccepted.wellFormed hrun
  have hentry : (s.outputs dep).isSome →
      ∃ text, s.outputs dep = some text ∧ EntrySource cfg s dep text := fun h => by
    obtain ⟨text, htext⟩ := Option.isSome_iff_exists.mp h
    exact ⟨text, htext, hresolution.entrySource dep text htext⟩
  have hstarted := readsOutputs_started ha hstep
  rcases hresolution.startedReady st (haccepted.mem_steps.mpr hst) hstarted dep hdep with
    hsucceeded | hskipped | hrecovered
  · exact .inl (hentry (hresolution.succeededEntry dep hsucceeded))
  · exact (hresolution.skippedEntry dep hskipped).imp_left hentry
  · exact .inl (hentry (hresolution.recoveredEntry dep hrecovered))

/-! ### A substitute that did not have to fire -/

def rawStep (id : String) (dependsOn : List String) (fields : List (String × Raw)) : Raw :=
  .dict ([("id", .str id), ("kind", .str "llm_chat"),
    ("depends_on", .list (dependsOn.map .str))] ++ fields)

def metaSpec (steps : List Raw) : SkillSpec :=
  { name := "report", kind := "meta", compositionRaw := .dict [("steps", .list steps)] }

/-- `polish` waits for the substitute of `draft`. -/
def fallbackSpec : SkillSpec :=
  metaSpec [rawStep "draft" [] [("on_failure", .str "draft_fallback")],
    rawStep "draft_fallback" [] [], rawStep "polish" ["draft_fallback"] []]

def chatStep (id : String) : MetaStep := { id, skill := id, kind := .llmChat }

def fallbackConfig : Config where
  plan :=
    { name := "report"
      steps := [{ chatStep "draft" with onFailure := "draft_fallback" }, chatStep "draft_fallback",
        { chatStep "polish" with dependsOn := ["draft_fallback"] }] }

theorem fallbackSpec_accepted :
    parseMetaPlan (fun _ => "") fallbackSpec = .ok (some fallbackConfig.plan) := by rfl

/-- `draft` succeeds and `polish` is started. -/
def draftSucceeds : List Action :=
  [.evaluate "draft" .proceed, .dispatch "draft", .finish "draft" "text", .handle [], .handle [],
    .handle [], .handle [], .handle ["polish"]]

theorem fallback_run : ∃ s, RunsTo fallbackConfig anyStep s ∧
    ((fallbackConfig.step s (.evaluate "polish" .proceed)).isSome &&
      (s.outputs "draft_fallback").isNone) = true :=
  exists_run (by rfl) ["draft", "polish"] draftSucceeds (by decide)

theorem fallback_polish_reads_missing_entry :
    parseMetaPlan (fun _ => "") fallbackSpec = .ok (some fallbackConfig.plan) ∧
      ∃ s s', RunsTo fallbackConfig anyStep s ∧
        ∃ st ∈ fallbackConfig.plan.steps, "draft_fallback" ∈ st.dependsOn ∧
          fallbackConfig.step s (.evaluate st.id .proceed) = some s' ∧
          s.outputs "draft_fallback" = none := by
  obtain ⟨s, hrun, hs⟩ := fallback_run
  rw [Bool.and_eq_true, Option.isNone_iff_eq_none] at hs
  obtain ⟨s', hs'⟩ := Option.isSome_iff_exists.mp hs.1
  exact ⟨fallbackSpec_accepted, s, s', hrun, { chatStep "polish" with
    dependsOn := ["draft_fallback"] }, by simp [fallbackConfig], by simp, hs', hs.2⟩

theorem fallback_polish_entry : ∃ s, RunsTo fallbackConfig anyStep s ∧
    ((∃ text, s.outputs "draft_fallback" = some text ∧
        EntrySource fallbackConfig s "draft_fallback" text) ∨
      Unfired fallbackConfig s "draft_fallback") := by
  obtain ⟨s, hrun, hs⟩ := fallback_run
  rw [Bool.and_eq_true] at hs
  obtain ⟨s', hs'⟩ := Option.isSome_iff_exists.mp hs.1
  have hmem : { chatStep "polish" with dependsOn := ["draft_fallback"] } ∈
      fallbackConfig.plan.steps := by
    simp [fallbackConfig]
  exact ⟨s, hrun, dependency_entry fallbackSpec_accepted hrun hmem (.inl ⟨.proceed, rfl⟩) hs'
    (by simp)⟩

/-!
## What is handed to the step bodies

Each step is dispatched at most once, a substitute only after its primary failed or as a trusted
replay alias, and the running table stays within the cap. A seeded step is never dispatched either,
as long as no failover goes to a seeded substitute: the initial scan leaves seeded steps out, but a
failover puts its substitute back among the unstarted steps without looking at the seeds.
-/

def failoverUnseeded (cfg : Config) (s : State) : Action → Bool
  | .handle _ =>
      match s.queue with
      | (_, .failoverTriggered _ substituteId _) :: _ => (cfg.seedOutputs substituteId).isNone
      | _ => true
  | _ => true

structure DispatchSafe (cfg : Config) (s : State) : Prop where
  once : s.dispatched.Nodup
  unseeded : ∀ sid ∈ s.dispatched, cfg.seedOutputs sid = none
  substituteCalled : ∀ st ∈ cfg.plan.steps, st.onFailure ≠ "" → st.onFailure ∈ s.dispatched →
    st.id ∈ s.failed ∨ (st.onFailure, st.id) ∈ cfg.trustedReplayAliases cfg.steps
  capped : ∀ limit, cfg.maxParallelism = some limit → s.running.card ≤ limit.toNat

structure Dispatching (cfg : Config) (s : State) : Prop where
  once : s.dispatched.Nodup
  started : ∀ sid ∈ s.dispatched, s.phase sid = .dispatched ∨ s.phase sid = .finished
  fresh : ∀ sid, sid ∈ s.unstarted ∨ s.phase sid ≠ .idle →
    sid ∈ stepIds cfg.steps ∧ cfg.initialOutputs sid = none
  capped : ∀ limit, cfg.maxParallelism = some limit → s.running.card ≤ limit.toNat

theorem TaskMove.dispatched_cases {steps : List MetaStep} {s s' : State} {sid : String} {a : Action}
    (h : TaskMove steps s sid a s') :
    (s'.dispatched = s.dispatched ∧
      (s.phase sid = .created ∨ s'.phase sid = s.phase sid ∨ s'.phase sid = .finished)) ∨
    (s.phase sid = .opened ∧ s'.phase sid = .dispatched ∧
      s'.dispatched = s.dispatched ++ [sid]) := by
  cases h with
  | openCard st hmem hloop hphase => exact .inl ⟨rfl, .inl hphase⟩
  | skip st hmem hloop hphase hwhen => exact .inl ⟨rfl, .inl hphase⟩
  | whenRaised st error hmem hloop hphase => exact .inl ⟨rfl, .inl hphase⟩
  | dispatch sid hloop hphase => exact .inr ⟨hphase, by simp [State.setPhase], rfl⟩
  | emit sid ev hloop hphase => exact .inl ⟨rfl, .inr (.inl rfl)⟩
  | finish sid text hloop hphase =>
      exact .inl ⟨rfl, .inr (.inr (by simp [finishTask, State.put, State.setPhase]))⟩
  | raise st error hmem hloop hphase =>
      exact .inl ⟨rfl, .inr (.inr (by simp [failTask, State.put, State.setPhase]))⟩
  | pause sid hloop hphase =>
      exact .inl ⟨rfl, .inr (.inr (by simp [pauseTask, State.put, State.setPhase]))⟩
  | cancelled sid hloop hidle hfinished =>
      exact .inl ⟨rfl, .inr (.inr (by simp [State.setPhase]))⟩

namespace Dispatching

variable {cfg : Config} {s s' : State} {sid : String}

theorem init : Dispatching cfg (initialState cfg cfg.steps) := by
  refine ⟨List.nodup_nil, by simp [initialState], fun sid hsid => ?_, by simp [initialState]⟩
  obtain ⟨hknown, -, hfresh⟩ := mem_initial_unstarted.mp (hsid.resolve_right fun hne => hne rfl)
  exact ⟨hknown, hfresh⟩

theorem task (h : Dispatching cfg s) {a : Action} (hmove : TaskMove cfg.steps s sid a s')
    (he : TaskEffect cfg.steps s sid s') : Dispatching cfg s' := by
  obtain ⟨ph, -, hphase⟩ := he.phase
  have hother : ∀ id, id ≠ sid → s'.phase id = s.phase id := fun id hid => by
    rw [hphase, Function.update_of_ne hid]
  have hfresh : ∀ id, id ∈ s'.unstarted ∨ s'.phase id ≠ .idle →
      id ∈ stepIds cfg.steps ∧ cfg.initialOutputs id = none := by
    intro id hid
    by_cases hself : id = sid
    · exact h.fresh id (.inr (hself ▸ he.notIdle))
    · rw [hother id hself, he.unstarted] at hid
      exact h.fresh id hid
  have hcapped : ∀ limit, cfg.maxParallelism = some limit → s'.running.card ≤ limit.toNat :=
    he.running ▸ h.capped
  rcases hmove.dispatched_cases with ⟨hsame, hstay⟩ | ⟨hopened, hnow, hadded⟩
  · refine ⟨hsame ▸ h.once, fun id hid => ?_, hfresh, hcapped⟩
    have hbefore := h.started id (hsame ▸ hid)
    by_cases hself : id = sid
    · subst hself
      rcases hstay with hcreated | hkept | hfinished
      · simp [hcreated] at hbefore
      · rwa [hkept]
      · exact .inr hfinished
    · rwa [hother id hself]
  · have hnew : sid ∉ s.dispatched := fun hmem => by simpa [hopened] using h.started sid hmem
    refine ⟨?_, fun id hid => ?_, hfresh, hcapped⟩
    · rw [hadded]
      exact h.once.append (List.nodup_singleton sid) (List.disjoint_singleton.mpr hnew)
    · rw [hadded] at hid
      by_cases hself : id = sid
      · exact hself ▸ .inl hnow
      · rw [hother id hself]
        exact h.started id ((List.mem_append.mp hid).resolve_right (by simpa using hself))

theorem spawn (ht : Tables cfg s) (h : Dispatching cfg s) (hsid : sid ∈ s.unstarted)
    (hcap : capReached cfg.maxParallelism s.running = false) : Dispatching cfg (s.spawn sid) := by
  have hidle := ht.unstartedIdle sid hsid
  refine ⟨h.once, fun id hid => ?_, fun id hid => ?_, fun limit hlimit => ?_⟩
  · have hbefore := h.started id hid
    have hne : id ≠ sid := fun heq => by simp [heq, hidle] at hbefore
    simpa [State.spawn, hne] using hbefore
  · by_cases hself : id = sid
    · exact h.fresh id (.inl (hself ▸ hsid))
    · refine h.fresh id (hid.imp Finset.mem_of_mem_erase fun hne => ?_)
      simpa [State.spawn, hself] using hne
  · have hnew : sid ∉ s.running := fun hmem => ht.runningStarted sid hmem hidle
    simp only [hlimit, capReached, decide_eq_false_iff_not] at hcap
    simp only [State.spawn, Finset.card_insert_of_notMem hnew]
    omega

theorem stepDone (h : Dispatching cfg s) {text : String} {status : DoneStatus}
    {mirrored released : Option String}
    (he : DoneEffect cfg.steps sid text status s mirrored released s') : Dispatching cfg s' := by
  refine ⟨he.dispatched ▸ h.once, ?_, ?_, fun limit hlimit => ?_⟩
  · rw [he.dispatched, he.phase]
    exact h.started
  · rw [he.unstarted, he.phase]
    exact h.fresh
  · rw [he.running]
    exact (Finset.card_le_card (Finset.erase_subset _ _)).trans (h.capped limit hlimit)

theorem failover (hwf : WellFormed cfg.steps) (h : Dispatching cfg s) {st : MetaStep}
    (hallowed : cfg.seedOutputs st.onFailure = none)
    (he : FailoverEffect cfg.steps st s s') : Dispatching cfg s' := by
  obtain ⟨hst, hsub, -, -, -, -, -, -, -, rfl⟩ := he
  refine ⟨h.once, h.started, fun id hid => ?_, fun limit hlimit => ?_⟩
  · by_cases hself : id = st.onFailure
    · obtain ⟨t, ht, hknown, -⟩ := hwf.substitute st hst hsub
      refine ⟨mem_stepIds.mpr ⟨t, ht, hknown.trans hself.symm⟩, ?_⟩
      simp [Config.initialOutputs, hself, hallowed]
    · exact h.fresh id (hid.imp_left fun hmem => (Finset.mem_insert.mp hmem).resolve_left hself)
  · exact (Finset.card_le_card (Finset.erase_subset _ _)).trans (h.capped limit hlimit)

theorem quiet (h : Dispatching cfg s) (he : Quiet s s') : Dispatching cfg s' := by
  refine ⟨he.dispatched ▸ h.once, ?_, ?_, fun limit hlimit => ?_⟩
  · rw [he.dispatched, he.phase]
    exact h.started
  · rw [he.unstarted, he.phase]
    exact h.fresh
  · exact (Finset.card_le_card he.runningSubset).trans (h.capped limit hlimit)

theorem preserved (hwf : WellFormed cfg.steps) :
    Preserved cfg (fun sub => cfg.seedOutputs sub = none) (Dispatching cfg) where
  init := init
  task := fun _ h hmove he => task h hmove he
  spawn := fun ht h hsid _ hcap => spawn ht h hsid hcap
  stepDone := fun _ h _ _ _ he => stepDone h he
  failover := fun _ h hallowed he => failover hwf h hallowed he
  quiet := fun h he => quiet h he

end Dispatching

def ReservedRefused (cfg : Config) (s : State) : Prop :=
  (∀ st ∈ cfg.steps, st.id ∉ privateMachineOutputKeys) ∨
    s.dispatched = [] ∧ ∃ result, s.loop = .ended result

theorem run_reservedRefused {cfg : Config} (hwf : WellFormed cfg.steps)
    {guard : State → Action → Prop} {s : State} (h : RunsTo cfg guard s) :
    ReservedRefused cfg s := by
  refine h.strengthen (fun _ => run_tables hwf) (fun s hs => ?_) fun s a s' ht hI _ hstep => ?_
  · rcases starts_cases hs with ⟨events, result, rfl, -⟩ | ⟨hreserved, -⟩
    · exact .inr ⟨rfl, result, rfl⟩
    · exact .inl hreserved
  · refine hI.imp_right fun ⟨_, result, hended⟩ => ?_
    rcases step_move hstep with ⟨sid, hmove⟩ | hmove
    · exact absurd hended (hmove.not_ended result)
    · exact absurd hended (hmove.not_ended result)

/-- In a run that hands no failover to a seeded substitute, what is dispatched is safe. -/
theorem dispatch_safe {pyStr : Raw → String} {spec : SkillSpec} {cfg : Config}
    (hparse : parseMetaPlan pyStr spec = .ok (some cfg.plan)) {s : State}
    (hrun : RunsTo cfg (fun s a => failoverUnseeded cfg s a = true) s) : DispatchSafe cfg s := by
  have haccepted := parseMetaPlan_accepted hparse
  have hwf := haccepted.wellFormed
  have htables := run_tables hwf hrun
  have h : Dispatching cfg s := by
    refine (Dispatching.preserved hwf).run hwf ?_ hrun
    intro s order sid failedId substituteId error rest hguard hqueue
    simpa [failoverUnseeded, hqueue] using hguard
  refine ⟨h.once, fun sid hsid => ?_, fun st hst hsub hsid => ?_, h.capped⟩
  · have hstarted : s.phase sid ≠ .idle := by
      rcases h.started sid hsid with hphase | hphase <;> simp [hphase]
    obtain ⟨hknown, hfresh⟩ := h.fresh sid (.inr hstarted)
    obtain ⟨st, hst, rfl⟩ := mem_stepIds.mp hknown
    have hreserved := (run_reservedRefused hwf hrun).resolve_right fun hnone => by
      simp [hnone.1] at hsid
    simpa [Config.initialOutputs, hreserved st hst] using hfresh
  · have hstarted : s.phase st.onFailure ≠ .idle := by
      rcases h.started _ hsid with hphase | hphase <;> simp [hphase]
    have halias := htables.substituteAliased st (haccepted.mem_steps.mpr hst) hsub (.inr hstarted)
    exact (htables.aliasSound _ _ halias).2.2.2

/-! ### A failover to a seeded substitute -/

def seededFallbackConfig : Config :=
  { fallbackConfig with
    seedOutputs := fun id => if id = "draft_fallback" then some "earlier text" else none }

/-- `draft` fails and its substitute is dispatched, with `unstarted` as it is after the failover. -/
def draftFails (unstarted : List String) : List Action :=
  [.evaluate "draft" .proceed, .dispatch "draft", .raise "draft" "timeout", .handle [], .handle [],
    .handle [], .handle [], .handle unstarted, .evaluate "draft_fallback" .proceed,
    .dispatch "draft_fallback"]

theorem seeded_substitute_dispatched :
    parseMetaPlan (fun _ => "") fallbackSpec = .ok (some seededFallbackConfig.plan) ∧
      (seededFallbackConfig.seedOutputs "draft_fallback").isSome ∧
      ∃ s, RunsTo seededFallbackConfig anyStep s ∧ "draft_fallback" ∈ s.dispatched ∧
        ¬ DispatchSafe seededFallbackConfig s := by
  refine ⟨by rfl, by rfl, ?_⟩
  obtain ⟨s, hrun, hs⟩ : ∃ s, RunsTo seededFallbackConfig anyStep s ∧
      decide ("draft_fallback" ∈ s.dispatched) = true :=
    exists_run (by rfl) ["draft", "polish"] (draftFails ["draft_fallback"]) (by decide)
  rw [decide_eq_true_eq] at hs
  refine ⟨s, hrun, hs, fun hsafe => ?_⟩
  simpa [seededFallbackConfig] using hsafe.unseeded _ hs

theorem fallback_dispatch_safe : ∃ s, RunsTo fallbackConfig
    (fun s a => failoverUnseeded fallbackConfig s a = true) s ∧
      "draft_fallback" ∈ s.dispatched ∧ DispatchSafe fallbackConfig s := by
  obtain ⟨s, hrun, hs⟩ : ∃ s, RunsTo fallbackConfig
      (fun s a => failoverUnseeded fallbackConfig s a = true) s ∧
        decide ("draft_fallback" ∈ s.dispatched) = true :=
    exists_run (by rfl) ["draft", "polish"] (draftFails ["polish", "draft_fallback"]) (by decide)
  exact ⟨s, hrun, of_decide_eq_true hs, dispatch_safe fallbackSpec_accepted hrun⟩

end OpenStarry.MetaSkill
