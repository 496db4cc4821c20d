import OpenStarry.MetaSkill.SchedulerRules

/-!
# Resolved dependencies and the outputs they leave

`pending_deps` and `outputs` are written in different branches of the loop. `Resolution` ties both
to the terminal sets: a dependency is dropped exactly when its step succeeded, was skipped or was
recovered, and each of these leaves an entry, except for a substitute that did not have to fire.
-/

namespace OpenStarry.MetaSkill

open OpenStarry.Lib

def Resolved (s : State) (id : String) : Prop := id ∈ s.succeeded ∨ id ∈ s.skipped ∨ id ∈ s.recovered

/-- Where the output of a step came from. -/
inductive EntrySource (cfg : Config) (s : State) (id text : String) : Prop
  | own (h : s.returned id = some text)
  | reused (h : cfg.initialOutputs id = some text)
  | skipped (st : MetaStep) (hst : st ∈ cfg.steps) (hid : st.id = id) (hwhen : st.when ≠ "")
      (h : text = "")
  | mirrored (sub : String) (halias : s.failoverAliases sub = some id)
      (h : s.outputs sub = some text) (hfinished : s.phase sub = .finished)

def Unfired (cfg : Config) (s : State) (id : String) : Prop :=
  s.phase id = .idle ∧ s.failoverAliases id = none ∧ ∃ st ∈ cfg.steps, st.onFailure = id ∧
    id ≠ "" ∧ s.phase st.id = .finished ∧ st.id ∉ s.failed ∧
    (st.id ∈ s.succeeded ∨ st.id ∈ s.skipped)

structure Resolution (cfg : Config) (s : State) : Prop where
  pendingDeclared : ∀ st ∈ cfg.steps, ∀ dep ∈ s.pendingDeps st.id, dep ∈ st.dependsOn
  pendingUnresolved : ∀ id, ∀ dep ∈ s.pendingDeps id, ¬ Resolved s dep
  droppedResolved : ∀ st ∈ cfg.steps, ∀ dep ∈ st.dependsOn, dep ∉ s.pendingDeps st.id →
    Resolved s dep
  startedReady : ∀ st ∈ cfg.steps, s.phase st.id ≠ .idle → ∀ dep ∈ st.dependsOn, Resolved s dep
  entrySource : ∀ id text, s.outputs id = some text → EntrySource cfg s id text
  succeededEntry : ∀ id ∈ s.succeeded, (s.outputs id).isSome
  skippedEntry : ∀ id ∈ s.skipped, (s.outputs id).isSome ∨ Unfired cfg s id
  recoveredEntry : ∀ id ∈ s.recovered, (s.outputs id).isSome

namespace Resolution

variable {cfg : Config} {s s' : State} {sid : String}

theorem init (hwf : WellFormed cfg.steps) : Resolution cfg (initialState cfg cfg.steps) := by
  have hpending : ∀ st ∈ cfg.steps, (initialState cfg cfg.steps).pendingDeps st.id =
      if st.id ∈ (cfg.trustedReplayAliases cfg.steps).map (·.1) then ∅
      else (st.dependsOn.filter fun dep => !cfg.reusable dep).toFinset := by
    intro st hst
    simp only [initialState, hwf.stepById_eq hst]
  have hresolved : ∀ id, Resolved (initialState cfg cfg.steps) id ↔
      id ∈ stepIds cfg.steps ∧ cfg.reusable id = true := fun id => by
    simp [Resolved, initialState]
  refine ⟨fun st hst dep hdep => ?_, fun id dep hdep hres => ?_, fun st hst dep hdep hnot => ?_,
    fun st _ hne => absurd rfl hne, fun id text hout => .reused hout, fun id hid => ?_,
    by simp [initialState], by simp [initialState]⟩
  · rw [hpending st hst] at hdep
    split_ifs at hdep
    · simp at hdep
    · exact (List.mem_filter.mp (List.mem_toFinset.mp hdep)).1
  · have hreusable := ((hresolved dep).mp hres).2
    simp only [initialState] at hdep
    split_ifs at hdep
    · simp at hdep
    · split at hdep
      · simp [hreusable] at hdep
      · simp at hdep
  · rw [hpending st hst] at hnot
    split_ifs at hnot with htrusted
    · obtain ⟨⟨sub, primary⟩, hmem, hid⟩ := List.mem_map.mp htrusted
      obtain ⟨-, -, t, ht, -, hsame, -⟩ := trustedReplayAliases_sound hwf hmem
      rw [(hwf.substitute_plain ht hst (hsame.trans hid)).2] at hdep
      simp at hdep
    · obtain ⟨t, ht, rfl⟩ := hwf.depsDefined st hst dep hdep
      refine (hresolved t.id).mpr ⟨mem_stepIds.mpr ⟨t, ht, rfl⟩, ?_⟩
      by_contra hfresh
      exact hnot (List.mem_toFinset.mpr (List.mem_filter.mpr ⟨hdep, by simpa using hfresh⟩))
  · have hreusable := ((hresolved id).mp (.inl hid)).2
    simp only [Config.reusable, Bool.and_eq_true] at hreusable
    exact hreusable.1

theorem task (h : Resolution cfg s) (he : TaskEffect cfg.steps s sid s') :
    Resolution cfg s' := by
  obtain ⟨ph, hph, hphase⟩ := he.phase
  have hother : ∀ id, id ≠ sid → s'.phase id = s.phase id := fun id hid => by
    rw [hphase, Function.update_of_ne hid]
  have hfinished : ∀ id, s.phase id = .finished → s'.phase id = .finished := fun id hid => by
    rw [hother id fun heq => he.notFinished (heq ▸ hid), hid]
  have hres : ∀ id, Resolved s' id ↔ Resolved s id := fun id => by
    simp only [Resolved, he.succeeded, he.skipped, he.recovered]
  refine ⟨?_, ?_, ?_, fun st hst hne dep hdep => ?_, fun id text hout => ?_, fun id hid => ?_,
    fun id hid => ?_, fun id hid => ?_⟩
  · simpa only [he.pendingDeps] using h.pendingDeclared
  · simpa only [he.pendingDeps, hres] using h.pendingUnresolved
  · simpa only [he.pendingDeps, hres] using h.droppedResolved
  · refine (hres dep).mpr (h.startedReady st hst ?_ dep hdep)
    by_cases heq : st.id = sid
    · exact heq ▸ he.notIdle
    · rwa [hother _ heq] at hne
  · have hold : s.outputs id = some text → s'.returned id = s.returned id →
        EntrySource cfg s' id text := by
      intro hout hsame
      cases h.entrySource id text hout with
      | own hret => exact .own (hsame ▸ hret)
      | reused hseed => exact .reused hseed
      | skipped st hst hid hwhen htext => exact .skipped st hst hid hwhen htext
      | mirrored sub halias hsub hdone =>
          have hne : sub ≠ sid := fun heq => he.notFinished (heq ▸ hdone)
          exact .mirrored sub (he.failoverAliases ▸ halias) (he.outputs sub hne ▸ hsub)
            (hfinished sub hdone)
    by_cases heq : id = sid
    · subst heq
      rcases he.entry with ⟨hsame, hret⟩ | ⟨text', hown, hret⟩ | ⟨hskip, st, hst, hid, hwhen⟩
      · exact hold (hsame ▸ hout) hret
      · rw [hown, Option.some.injEq] at hout
        exact .own (hout ▸ hret)
      · rw [hskip, Option.some.injEq] at hout
        exact .skipped st hst hid hwhen hout.symm
    · exact hold (he.outputs id heq ▸ hout) (he.returned id heq)
  · exact he.outputsKept id (h.succeededEntry id (he.succeeded ▸ hid))
  · refine (h.skippedEntry id (he.skipped ▸ hid)).imp (he.outputsKept id) ?_
    rintro ⟨hidle, halias, st, hst, hsub, hne, hdone, hnot, hclosed⟩
    refine ⟨by rw [hother id fun heq => he.notIdle (heq ▸ hidle), hidle],
      he.failoverAliases ▸ halias, st, hst, hsub, hne, hfinished _ hdone, fun hmem => ?_, by rwa [he.succeeded, he.skipped]⟩
    exact (he.failedNew _ hmem).elim hnot fun hnew => he.notFinished (hnew.1 ▸ hdone)
  · exact he.outputsKept id (h.recoveredEntry id (he.recovered ▸ hid))

theorem spawn (ht : Tables cfg s) (h : Resolution cfg s) (hsid : sid ∈ s.unstarted)
    (hready : s.pendingDeps sid = ∅) : Resolution cfg (s.spawn sid) := by
  have hidle := ht.unstartedIdle sid hsid
  have hother : ∀ id, id ≠ sid → (s.spawn sid).phase id = s.phase id := fun id hid => by
    simp [State.spawn, hid]
  have hkept : ∀ id, s.phase id ≠ .idle → (s.spawn sid).phase id = s.phase id := fun id hid =>
    hother id fun heq => hid (heq ▸ hidle)
  refine ⟨h.pendingDeclared, h.pendingUnresolved, h.droppedResolved, fun st hst hne dep hdep => ?_,
    fun id text hout => ?_, h.succeededEntry, fun id hid => ?_, h.recoveredEntry⟩
  · by_cases heq : st.id = sid
    · exact h.droppedResolved st hst dep hdep (by simp [heq, hready])
    · exact h.startedReady st hst (hother _ heq ▸ hne) dep hdep
  · cases h.entrySource id text hout with
    | own hret => exact .own hret
    | reused hseed => exact .reused hseed
    | skipped st hst hid hwhen htext => exact .skipped st hst hid hwhen htext
    | mirrored sub halias hsub hdone =>
        exact .mirrored sub halias hsub (by rw [hkept sub (by simp [hdone]), hdone])
  · refine (h.skippedEntry id hid).imp_right ?_
    rintro ⟨hfree, halias, st, hst, hsub, hne, hdone, hrest⟩
    have hnot : id ≠ sid := by
      rintro rfl
      rw [← hsub, ht.substituteAliased st hst (hsub ▸ hne) (.inl (hsub ▸ hsid))] at halias
      simp at halias
    exact ⟨hother id hnot ▸ hfree, halias, st, hst, hsub, hne,
      by rw [hkept _ (by simp [hdone]), hdone], hrest⟩

theorem stepDone (hwf : WellFormed cfg.steps) (ht : Tables cfg s) (h : Resolution cfg s)
    {text : String} {status : DoneStatus} {mirrored released : Option String}
    (hfinished : s.phase sid = .finished) (hrunning : sid ∈ s.running)
    (hsound : ItemSound cfg.steps s sid (.stepDone text status))
    (he : DoneEffect cfg.steps sid text status s mirrored released s') : Resolution cfg s' := by
  have hout : s.outputs sid = some text := by cases status <;> exact hsound.1
  have hnotFailed : sid ∉ s.failed := by
    cases status with
    | ok => exact hsound.2.2
    | skipped => exact hsound.2.2.1
  have hself : sid ∉ mirrored := fun hmem => by
    rw [he.aliased, Option.mem_def] at hmem
    exact (ht.aliasSound _ _ hmem).2.2.1 hrunning
  have hkept : ∀ id, (s.outputs id).isSome → (s'.outputs id).isSome := fun id hid => by
    by_cases hmem : id ∈ mirrored
    · simp [he.outputsMirrored id hmem]
    · rwa [he.outputs id hmem]
  have hdone : sid ∈ s'.succeeded ∨ sid ∈ s'.skipped := by
    rw [he.succeeded, he.skipped]
    cases status <;> simp
  have hres : ∀ id, Resolved s' id ↔
      Resolved s id ∨ id = sid ∨ id ∈ mirrored ∨ id ∈ released := fun id => by
    simp only [Resolved, he.succeeded, he.skipped, he.recovered]
    cases status <;> simp <;> tauto
  refine ⟨fun st hst dep hdep => ?_, fun id dep hdep hresolved => ?_, fun st hst dep hdep hnot => ?_,
    fun st hst hne dep hdep => ?_, fun id text' hout' => ?_, fun id hid => ?_, fun id hid => ?_,
    fun id hid => ?_⟩
  · exact h.pendingDeclared st hst dep ((he.pendingDeps _ _).mp hdep).1
  · obtain ⟨hpending, hne, hmirrored, hreleased⟩ := (he.pendingDeps _ _).mp hdep
    rcases (hres dep).mp hresolved with hold | rfl | hold | hold
    · exact h.pendingUnresolved id dep hpending hold
    · exact hne rfl
    · exact hmirrored hold
    · exact hreleased hold
  · rw [he.pendingDeps] at hnot
    by_cases hpending : dep ∈ s.pendingDeps st.id
    · refine (hres dep).mpr (.inr ?_)
      by_contra hother
      exact hnot ⟨hpending, by tauto⟩
    · exact (hres dep).mpr (.inl (h.droppedResolved st hst dep hdep hpending))
  · exact (hres dep).mpr (.inl (h.startedReady st hst (he.phase ▸ hne) dep hdep))
  · by_cases hmem : id ∈ mirrored
    · rw [he.outputsMirrored id hmem, Option.some.injEq] at hout'
      subst hout'
      refine .mirrored sid ?_ (he.outputs sid hself ▸ hout) (he.phase ▸ hfinished)
      rw [he.failoverAliases, ← he.aliased]
      exact hmem
    · cases h.entrySource id text' (he.outputs id hmem ▸ hout') with
      | own hret => exact .own (he.returned ▸ hret)
      | reused hseed => exact .reused hseed
      | skipped st hst hid hwhen htext => exact .skipped st hst hid hwhen htext
      | mirrored sub halias hsub hdone =>
          refine .mirrored sub (he.failoverAliases ▸ halias) ?_ (he.phase ▸ hdone)
          refine (he.outputs sub fun hmirrored => ?_).trans hsub
          -- a substitute has no substitute that could complete for it
          rw [he.aliased, Option.mem_def] at hmirrored
          obtain ⟨p, hp, -, hpsub, -⟩ := (ht.aliasSound _ _ halias).1
          obtain ⟨q, hq, hqid, hqsub, hqne⟩ := (ht.aliasSound _ _ hmirrored).1
          exact hqne (hqsub ▸ (hwf.substitute_plain hp hq (hpsub.trans hqid.symm)).1)
  · rcases (he.succeeded id).mp hid with hold | ⟨rfl, -⟩
    · exact hkept id (h.succeededEntry id hold)
    · exact hkept id (by simp [hout])
  · rcases (he.skipped id).mp hid with hold | ⟨rfl, -⟩ | hreleased
    · refine (h.skippedEntry id hold).imp (hkept id) ?_
      rintro ⟨hidle, halias, st, hst, hsub, hne, hdone, hnot, hclosed⟩
      refine ⟨he.phase ▸ hidle, he.failoverAliases ▸ halias, st, hst, hsub, hne,
        he.phase ▸ hdone, he.failed ▸ hnot, hclosed.imp (fun h => (he.succeeded _).mpr (.inl h))
          fun h => (he.skipped _).mpr (.inl h)⟩
    · exact .inl (hkept id (by simp [hout]))
    · obtain ⟨hparked, -, st, hst, rfl, hsub, hne⟩ := he.releasedSound id hreleased
      refine .inr ⟨he.phase ▸ (ht.parkedIdle id hparked).1, ?_, st, hst, hsub, hne,
        he.phase ▸ hfinished, he.failed ▸ hnotFailed, hdone⟩
      rw [he.failoverAliases]
      cases halias : s.failoverAliases id with
      | none => rfl
      | some primary =>
          obtain ⟨⟨p, hp, rfl, hpsub, -⟩, -, hnotRunning, -⟩ := ht.aliasSound _ _ halias
          have heq := hwf.primaryUnique st hst p hp (hsub ▸ hne) (hsub.trans hpsub.symm)
          exact absurd hrunning (heq ▸ hnotRunning)
  · rcases (he.recovered id).mp hid with hold | hold
    · exact hkept id (h.recoveredEntry id hold)
    · simp [he.outputsMirrored id hold]

theorem failover (hwf : WellFormed cfg.steps) (h : Resolution cfg s) {st : MetaStep}
    (he : FailoverEffect cfg.steps st s s') : Resolution cfg s' := by
  obtain ⟨hst, hsub, hfailed, hrunning, hparked, hidle, -, -, hne, rfl⟩ := he
  have hpending : ∀ t ∈ cfg.steps, ∀ dep ∈ t.dependsOn,
      Function.update s.pendingDeps st.onFailure ∅ t.id = s.pendingDeps t.id := by
    intro t ht dep hdep
    refine Function.update_of_ne (fun heq => ?_) _ _
    rw [(hwf.substitute_plain hst ht heq.symm).2] at hdep
    simp at hdep
  have hsubset : ∀ id, Function.update s.pendingDeps st.onFailure ∅ id ⊆ s.pendingDeps id := by
    intro id
    by_cases heq : id = st.onFailure
    · simp [heq]
    · rw [Function.update_of_ne heq]
  refine ⟨fun t ht dep hdep => h.pendingDeclared t ht dep (hsubset _ hdep),
    fun id dep hdep => h.pendingUnresolved id dep (hsubset _ hdep),
    fun t ht dep hdep hnot => h.droppedResolved t ht dep hdep (hpending t ht dep hdep ▸ hnot),
    h.startedReady, fun id text hout => ?_, h.succeededEntry, fun id hid => ?_, h.recoveredEntry⟩
  · cases h.entrySource id text hout with
    | own hret => exact .own hret
    | reused hseed => exact .reused hseed
    | skipped t ht hid hwhen htext => exact .skipped t ht hid hwhen htext
    | mirrored sub halias hout hdone =>
        refine .mirrored sub ?_ hout hdone
        have hsubne : sub ≠ st.onFailure := fun heq => by simp [heq, hidle] at hdone
        exact (Function.update_of_ne hsubne _ _).trans halias
  · refine (h.skippedEntry id hid).imp_right ?_
    rintro ⟨hfree, halias, t, ht, htsub, htne, hdone, hnot, hclosed⟩
    refine ⟨hfree, ?_, t, ht, htsub, htne, hdone, hnot, hclosed⟩
    refine (Function.update_of_ne (fun heq => ?_) _ _).trans halias
    have := hwf.primaryUnique t ht st hst (htsub ▸ htne) (htsub.trans heq)
    exact hnot (this ▸ hfailed)

theorem quiet (h : Resolution cfg s) (he : Quiet s s') : Resolution cfg s' := by
  have hres : ∀ id, Resolved s' id ↔ Resolved s id := fun id => by
    simp only [Resolved, he.succeeded, he.skipped, he.recovered]
  refine ⟨?_, ?_, ?_, ?_, fun id text hout => ?_, ?_, fun id hid => ?_, ?_⟩
  · simpa only [he.pendingDeps] using h.pendingDeclared
  · simpa only [he.pendingDeps, hres] using h.pendingUnresolved
  · simpa only [he.pendingDeps, hres] using h.droppedResolved
  · simpa only [he.phase, hres] using h.startedReady
  · cases h.entrySource id text (he.outputs ▸ hout) with
    | own hret => exact .own (he.returned ▸ hret)
    | reused hseed => exact .reused hseed
    | skipped st hst hid hwhen htext => exact .skipped st hst hid hwhen htext
    | mirrored sub halias hsub hfinished =>
        exact .mirrored sub (he.failoverAliases ▸ halias) (he.outputs ▸ hsub)
          (he.phase ▸ hfinished)
  · simpa only [he.succeeded, he.outputs] using h.succeededEntry
  · simpa only [Unfired, he.outputs, he.phase, he.failoverAliases, he.failed, he.succeeded,
      he.skipped] using h.skippedEntry id (he.skipped ▸ hid)
  · simpa only [he.recovered, he.outputs] using h.recoveredEntry

theorem preserved (hwf : WellFormed cfg.steps) :
    Preserved cfg (fun _ => True) (Resolution cfg) where
  init := init hwf
  task := fun _ h _ he => task h he
  spawn := fun ht h hsid hready _ => spawn ht h hsid hready
  stepDone := fun ht h hfinished hrunning hsound he =>
    stepDone hwf ht h hfinished hrunning hsound he
  failover := fun _ h _ he => failover hwf h he
  quiet := fun h he => quiet h he

end Resolution

theorem run_resolution {cfg : Config} (hwf : WellFormed cfg.steps)
    {guard : State → Action → Prop} {s : State} (h : RunsTo cfg guard s) : Resolution cfg s :=
  (Resolution.preserved hwf).run_any hwf h

end OpenStarry.MetaSkill
