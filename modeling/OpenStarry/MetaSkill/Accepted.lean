import OpenStarry.MetaSkill.Plan
import Mathlib.Data.List.Pairwise

/-!
# What an accepted plan satisfies

`parseMetaPlan_accepted` reads off the checks of the parser: ids are non-empty and distinct,
dependencies name steps of the plan, a substitute has neither dependencies nor a substitute of its
own and serves one primary, and the topological order lists each step once.
-/

namespace OpenStarry.MetaSkill

open OpenStarry.Lib

/-! ### The sorter lists each node once -/

theorem mem_predecessors {graph : Graph} {node pred : String} :
    pred ∈ predecessors graph node ↔ ∃ preds, (node, preds) ∈ graph ∧ pred ∈ preds := by
  simp only [predecessors, List.mem_flatMap, List.mem_filter, beq_iff_eq, Prod.exists]
  constructor
  · rintro ⟨n, preds, ⟨hmem, rfl⟩, hpred⟩
    exact ⟨preds, hmem, hpred⟩
  · rintro ⟨preds, hmem, hpred⟩
    exact ⟨node, preds, ⟨hmem, rfl⟩, hpred⟩

theorem mem_successors {graph : Graph} {node succ : String} :
    succ ∈ successors graph node ↔ node ∈ predecessors graph succ := by
  rw [mem_predecessors]
  simp only [successors, List.mem_flatMap, List.mem_map, List.mem_filter, beq_iff_eq, Prod.exists]
  constructor
  · rintro ⟨n, preds, hmem, pred, ⟨hpred, rfl⟩, rfl⟩
    exact ⟨preds, hmem, hpred⟩
  · rintro ⟨preds, hmem, hpred⟩
    exact ⟨succ, preds, hmem, node, ⟨hpred, rfl⟩, rfl⟩

theorem mem_graphNodes {graph : Graph} {node : String} :
    node ∈ graphNodes graph ↔ ∃ preds, (node, preds) ∈ graph ∨
      ∃ n, (n, preds) ∈ graph ∧ node ∈ preds := by
  simp only [graphNodes, List.mem_eraseDups, List.mem_flatMap, List.mem_cons, Prod.exists]
  constructor
  · rintro ⟨n, preds, hmem, rfl | hnode⟩
    · exact ⟨preds, .inl hmem⟩
    · exact ⟨preds, .inr ⟨n, hmem, hnode⟩⟩
  · rintro ⟨preds, hmem | ⟨n, hmem, hnode⟩⟩
    · exact ⟨node, preds, hmem, .inl rfl⟩
    · exact ⟨n, preds, hmem, .inr hnode⟩

theorem mem_nextReady {graph : Graph} {done group : List String} {node : String} :
    node ∈ nextReady graph done group ↔
      (∃ pred ∈ group, pred ∈ predecessors graph node) ∧
        ∀ pred ∈ predecessors graph node, pred ∈ done ∨ pred ∈ group := by
  simp only [nextReady, List.mem_filter, List.mem_dedup, List.mem_flatMap, mem_successors,
    List.all_eq_true, List.mem_append, decide_eq_true_eq]

/-- The state of the sorter between two groups: everything listed waited for listed nodes only,
and the group now ready waits for listed nodes only. -/
structure SorterInv (graph : Graph) (done group : List String) : Prop where
  nodup : (done ++ group).Nodup
  donePreds : ∀ node ∈ done, ∀ pred ∈ predecessors graph node, pred ∈ done
  groupPreds : ∀ node ∈ group, ∀ pred ∈ predecessors graph node, pred ∈ done

theorem SorterInv.next {graph : Graph} {done group : List String}
    (h : SorterInv graph done group) :
    SorterInv graph (done ++ group) (nextReady graph done group) := by
  have hpreds : ∀ node ∈ done ++ group, ∀ pred ∈ predecessors graph node, pred ∈ done := by
    intro node hnode
    rcases List.mem_append.mp hnode with hdone | hgroup
    · exact h.donePreds node hdone
    · exact h.groupPreds node hgroup
  refine ⟨List.nodup_append'.mpr ⟨h.nodup, ?_, ?_⟩, ?_, ?_⟩
  · exact (List.nodup_dedup _).filter _
  · intro node hnode hready
    obtain ⟨⟨pred, hgroup, hpred⟩, -⟩ := mem_nextReady.mp hready
    exact (List.nodup_append'.mp h.nodup).2.2 (hpreds node hnode pred hpred) hgroup
  · intro node hnode pred hpred
    exact List.mem_append_left _ (hpreds node hnode pred hpred)
  · intro node hnode pred hpred
    exact List.mem_append.mpr ((mem_nextReady.mp hnode).2 pred hpred)

theorem staticOrderFrom_nodup {graph : Graph} (fuel : Nat) {done group : List String}
    (h : SorterInv graph done group) :
    (done ++ staticOrderFrom graph fuel done group).Nodup := by
  induction fuel generalizing done group with
  | zero => simpa [staticOrderFrom] using (List.nodup_append'.mp h.nodup).1
  | succ fuel ih =>
      rw [staticOrderFrom]
      split
      · simpa using (List.nodup_append'.mp h.nodup).1
      · rw [← List.append_assoc]
        exact ih h.next

theorem staticOrderFrom_subset {graph : Graph} (fuel : Nat) {done group : List String}
    (h : ∀ node ∈ group, node ∈ graphNodes graph) :
    ∀ node ∈ staticOrderFrom graph fuel done group, node ∈ graphNodes graph := by
  induction fuel generalizing done group with
  | zero => simp [staticOrderFrom]
  | succ fuel ih =>
      intro node hnode
      rw [staticOrderFrom] at hnode
      split at hnode
      · simp at hnode
      · rcases List.mem_append.mp hnode with hgroup | hlater
        · exact h node hgroup
        · refine ih (fun next hnext => ?_) node hlater
          obtain ⟨⟨pred, -, hpred⟩, -⟩ := mem_nextReady.mp hnext
          obtain ⟨preds, hmem, -⟩ := mem_predecessors.mp hpred
          exact mem_graphNodes.mpr ⟨preds, .inl hmem⟩

theorem nodup_eraseDups (l : List String) : l.eraseDups.Nodup := by
  induction hn : l.length using Nat.strong_induction_on generalizing l with
  | _ n ih =>
    cases l with
    | nil => simp
    | cons a rest =>
        rw [List.eraseDups_cons]
        refine List.nodup_cons.mpr ⟨?_, ih _ ?_ _ rfl⟩
        · simp [List.mem_eraseDups]
        · have := List.length_filter_le (fun b => !b == a) rest
          simp only [List.length_cons] at hn
          omega

theorem staticOrder_perm {graph : Graph} {order : List String}
    (h : staticOrder graph = some order) : order.Perm (graphNodes graph) := by
  simp only [staticOrder] at h
  split at h
  · rename_i hlength
    rw [Option.some.injEq] at h
    subst h
    have hinv : SorterInv graph []
        ((graphNodes graph).filter fun node => predecessors graph node = []) := by
      refine ⟨?_, by simp, ?_⟩
      · rw [List.nil_append]
        exact (nodup_eraseDups _).filter _
      · intro node hnode pred hpred
        rw [List.mem_filter, decide_eq_true_eq] at hnode
        rw [hnode.2] at hpred
        simp at hpred
    refine (List.subperm_of_subset ?_ ?_).perm_of_length_le (le_of_eq hlength.symm)
    · simpa using staticOrderFrom_nodup (graphNodes graph).length hinv
    · exact staticOrderFrom_subset _ fun node hnode => (List.mem_filter.mp hnode).1
  · simp at h

/-! ### Looking steps up by id -/

theorem stepById_some {steps : List MetaStep} {sid : String} {s : MetaStep}
    (h : stepById steps sid = some s) : s ∈ steps ∧ s.id = sid := by
  refine ⟨List.mem_reverse.mp (List.mem_of_find?_eq_some h), ?_⟩
  simpa using List.find?_some h

theorem stepById_of_mem {steps : List MetaStep} (hnodup : (steps.map (·.id)).Nodup)
    {s : MetaStep} (hs : s ∈ steps) : stepById steps s.id = some s := by
  cases hfind : stepById steps s.id with
  | none =>
      have := List.find?_eq_none.mp hfind s (List.mem_reverse.mpr hs)
      simp at this
  | some t =>
      obtain ⟨ht, hid⟩ := stepById_some hfind
      rw [List.inj_on_of_nodup_map hnodup ht hs hid]

theorem orderSteps_ok {steps : List MetaStep} {order : List String} {ordered : List MetaStep}
    (h : orderSteps steps order = .ok ordered) :
    ordered.map (·.id) = order ∧ ∀ s ∈ ordered, s ∈ steps := by
  induction order generalizing ordered with
  | nil =>
      simp only [orderSteps, Except.ok.injEq] at h
      subst h
      simp
  | cons sid rest ih =>
      simp only [orderSteps] at h
      split at h
      · rename_i s hs
        cases hrest : orderSteps steps rest with
        | error e => simp [hrest, Except.map] at h
        | ok later =>
            simp only [hrest, Except.map, Except.ok.injEq] at h
            subst h
            obtain ⟨hids, hmem⟩ := ih hrest
            obtain ⟨hsteps, hid⟩ := stepById_some hs
            refine ⟨by simp [hids, hid], fun t ht => ?_⟩
            rcases List.mem_cons.mp ht with rfl | ht
            · exact hsteps
            · exact hmem t ht
      · simp at h

theorem orderSteps_total {steps : List MetaStep} {order : List String}
    (h : ∀ sid ∈ order, ∃ st ∈ steps, st.id = sid) :
    ∃ ordered, orderSteps steps order = .ok ordered := by
  induction order with
  | nil => exact ⟨[], rfl⟩
  | cons sid rest ih =>
      obtain ⟨later, hlater⟩ := ih fun id hid => h id (List.mem_cons_of_mem _ hid)
      obtain ⟨st, hst, hid⟩ := h sid List.mem_cons_self
      have hfound : (stepById steps sid).isSome := by
        rw [stepById, List.find?_isSome]
        exact ⟨st, List.mem_reverse.mpr hst, by simpa using hid⟩
      obtain ⟨found, hfound⟩ := Option.isSome_iff_exists.mp hfound
      exact ⟨found :: later, by simp [orderSteps, hfound, hlater, Except.map]⟩

/-- A plan as the parser returns it. -/
structure Accepted (steps : List MetaStep) : Prop where
  nonempty : steps ≠ []
  idsNodup : (steps.map (·.id)).Nodup
  idNonempty : ∀ s ∈ steps, s.id ≠ ""
  depsDefined : ∀ s ∈ steps, ∀ dep ∈ s.dependsOn, ∃ t ∈ steps, t.id = dep
  acyclic : ∃ order, staticOrder (dependencyGraph steps) = some order
  substitute : ∀ s ∈ steps, s.onFailure ≠ "" → s.onFailure ≠ s.id ∧
    ∃ t ∈ steps, t.id = s.onFailure ∧ t.onFailure = "" ∧ t.dependsOn = []
  primaryUnique : ∀ s ∈ steps, ∀ t ∈ steps, s.onFailure ≠ "" → s.onFailure = t.onFailure → s = t

namespace Accepted

variable {steps : List MetaStep}

theorem eq_of_id (h : Accepted steps) {s t : MetaStep} (hs : s ∈ steps) (ht : t ∈ steps)
    (hid : s.id = t.id) : s = t :=
  List.inj_on_of_nodup_map h.idsNodup hs ht hid

theorem topologicalOrder_mem (h : Accepted steps) {ordered : List MetaStep}
    (hordered : topologicalOrder steps = .ok ordered) {s : MetaStep} :
    s ∈ ordered ↔ s ∈ steps := by
  obtain ⟨order, horder⟩ := h.acyclic
  rw [topologicalOrder, horder] at hordered
  obtain ⟨hids, hmem⟩ := orderSteps_ok hordered
  refine ⟨hmem s, fun hs => ?_⟩
  have hnode : s.id ∈ graphNodes (dependencyGraph steps) :=
    mem_graphNodes.mpr ⟨s.dependsOn, .inl (List.mem_map.mpr ⟨s, hs, rfl⟩)⟩
  have hlisted : s.id ∈ ordered.map (·.id) := by
    rw [hids]
    exact (staticOrder_perm horder).mem_iff.mpr hnode
  obtain ⟨t, ht, hid⟩ := List.mem_map.mp hlisted
  exact h.eq_of_id (hmem t ht) hs hid ▸ ht

theorem topologicalOrder_ok (h : Accepted steps) :
    ∃ ordered, topologicalOrder steps = .ok ordered := by
  obtain ⟨order, horder⟩ := h.acyclic
  rw [topologicalOrder, horder]
  refine orderSteps_total fun sid hsid => ?_
  obtain ⟨deps, hnode⟩ := mem_graphNodes.mp ((staticOrder_perm horder).mem_iff.mp hsid)
  simp only [dependencyGraph, List.mem_map, Prod.mk.injEq] at hnode
  rcases hnode with ⟨st, hst, hid, -⟩ | ⟨-, ⟨st, hst, -, rfl⟩, hdep⟩
  · exact ⟨st, hst, hid⟩
  · exact h.depsDefined st hst sid hdep

end Accepted

/-! ### The parser's checks -/

theorem parseStepId_ok {seenIds : List String} {index : Nat} {entries : List (String × Raw)}
    {stepId : String} (h : parseStepId seenIds index entries = .ok stepId) :
    stepId ≠ "" ∧ stepId ∉ seenIds := by
  unfold parseStepId at h
  split at h
  · split_ifs at h with hempty hseen
    rw [Except.ok.injEq] at h
    exact h ▸ ⟨hempty, hseen⟩
  · simp at h

theorem parseStep_ok {pyStr : Raw → String} {seenIds : List String} {index : Nat} {raw : Raw}
    {s : MetaStep} (h : parseStep pyStr seenIds index raw = .ok s) :
    s.id ≠ "" ∧ s.id ∉ seenIds := by
  cases raw with
  | dict entries =>
      simp only [parseStep, bind, Except.bind] at h
      split at h
      · simp at h
      · rename_i stepId hid
        repeat' split at h
        all_goals first
          | (simp only [pure, Except.pure, Except.ok.injEq] at h; subst h; exact parseStepId_ok hid)
          | simp at h
  | _ => simp [parseStep] at h

theorem parseSteps_ok {pyStr : Raw → String} {seenIds : List String} {index : Nat}
    {raws : List Raw} {steps : List MetaStep} (h : parseSteps pyStr seenIds index raws = .ok steps) :
    (steps.map (·.id)).Nodup ∧ (∀ s ∈ steps, s.id ≠ "" ∧ s.id ∉ seenIds) ∧
      steps.length = raws.length := by
  induction raws generalizing seenIds index steps with
  | nil =>
      simp only [parseSteps, Except.ok.injEq] at h
      subst h
      simp
  | cons raw rest ih =>
      simp only [parseSteps] at h
      split at h
      · simp at h
      · rename_i s hs
        cases hrest : parseSteps pyStr (s.id :: seenIds) (index + 1) rest with
        | error e => simp [hrest, Except.map] at h
        | ok later =>
            simp only [hrest, Except.map, Except.ok.injEq] at h
            subst h
            obtain ⟨hnodup, hlater, hlength⟩ := ih hrest
            refine ⟨List.nodup_cons.mpr ⟨fun hmem => ?_, hnodup⟩, fun t ht => ?_, by simp [hlength]⟩
            · obtain ⟨t, ht, hid⟩ := List.mem_map.mp hmem
              exact (hlater t ht).2 (hid ▸ List.mem_cons_self)
            · rcases List.mem_cons.mp ht with rfl | ht
              · exact parseStep_ok hs
              · exact ⟨(hlater t ht).1, fun hseen => (hlater t ht).2 (List.mem_cons_of_mem _ hseen)⟩

theorem ensureAcyclic_ok {steps : List MetaStep} (h : ensureAcyclic steps = .ok ()) :
    (∀ s ∈ steps, ∀ dep ∈ s.dependsOn, ∃ t ∈ steps, t.id = dep) ∧
      ∃ order, staticOrder (dependencyGraph steps) = some order := by
  unfold ensureAcyclic at h
  split at h
  · simp at h
  · rename_i hdefined
    split at h
    · rename_i order horder
      refine ⟨fun s hs dep hdep => ?_, order, horder⟩
      have hnone := List.findSome?_eq_none_iff.mp hdefined s hs
      rw [Option.map_eq_none_iff, List.find?_eq_none] at hnone
      simpa using hnone dep hdep
    · simp at h

theorem checkOnFailure_ok {steps : List MetaStep} {designatedBy : List (String × String)}
    {s : MetaStep} (h : checkOnFailure steps designatedBy s = .ok ()) :
    s.onFailure ≠ s.id ∧ (∃ t ∈ steps, t.id = s.onFailure ∧ t.onFailure = "" ∧ t.dependsOn = []) ∧
      ∀ entry ∈ designatedBy, entry.1 ≠ s.onFailure := by
  unfold checkOnFailure at h
  split_ifs at h with hself
  split at h
  · simp at h
  · rename_i t ht
    split_ifs at h with hnested hdeps
    split at h
    · simp at h
    · rename_i hprior
      obtain ⟨hmem, hid⟩ := stepById_some ht
      refine ⟨hself, ⟨t, hmem, hid, not_not.mp hnested, not_not.mp hdeps⟩, fun entry hentry => ?_⟩
      simpa using List.find?_eq_none.mp hprior entry hentry

theorem ensureOnFailureFrom_ok {steps rest : List MetaStep} {designatedBy : List (String × String)}
    (h : ensureOnFailureFrom steps designatedBy rest = .ok ()) :
    (∀ s ∈ rest, s.onFailure ≠ "" → s.onFailure ≠ s.id ∧
      (∃ t ∈ steps, t.id = s.onFailure ∧ t.onFailure = "" ∧ t.dependsOn = []) ∧
      ∀ entry ∈ designatedBy, entry.1 ≠ s.onFailure) ∧
    rest.Pairwise fun s t => s.onFailure ≠ "" → s.onFailure ≠ t.onFailure := by
  induction rest generalizing designatedBy with
  | nil => simp
  | cons s rest ih =>
      simp only [ensureOnFailureFrom] at h
      split at h
      · rename_i hempty
        obtain ⟨hrest, hpair⟩ := ih h
        refine ⟨fun t ht hne => ?_, List.pairwise_cons.mpr ⟨fun t _ hne => absurd hempty hne, hpair⟩⟩
        rcases List.mem_cons.mp ht with rfl | ht
        · exact absurd hempty hne
        · exact hrest t ht hne
      · rename_i hne
        split at h
        · simp at h
        · rename_i hcheck
          obtain ⟨hrest, hpair⟩ := ih h
          refine ⟨fun t ht htne => ?_, List.pairwise_cons.mpr ⟨fun t ht _ heq => ?_, hpair⟩⟩
          · rcases List.mem_cons.mp ht with rfl | ht
            · exact checkOnFailure_ok hcheck
            · obtain ⟨hself, hsub, hprior⟩ := hrest t ht htne
              exact ⟨hself, hsub, fun entry hentry => hprior entry (List.mem_cons_of_mem _ hentry)⟩
          · exact (hrest t ht (heq ▸ hne)).2.2 (s.onFailure, s.id) List.mem_cons_self heq

theorem ensureOnFailureValid_primaryUnique {steps : List MetaStep}
    (h : ensureOnFailureValid steps = .ok ()) {s t : MetaStep} (hs : s ∈ steps) (ht : t ∈ steps)
    (hne : s.onFailure ≠ "") (heq : s.onFailure = t.onFailure) : s = t := by
  obtain ⟨-, hpair⟩ := ensureOnFailureFrom_ok h
  have : Std.Symm fun s t : MetaStep => s.onFailure ≠ "" → s.onFailure ≠ t.onFailure :=
    ⟨fun a b hab hb heq => hab (heq ▸ hb) heq.symm⟩
  by_contra hdiff
  exact hpair.forall hs ht hdiff hne heq

theorem parseMetaPlan_accepted {pyStr : Raw → String} {spec : SkillSpec} {plan : MetaPlan}
    (h : parseMetaPlan pyStr spec = .ok (some plan)) : Accepted plan.steps := by
  unfold parseMetaPlan at h
  split at h
  · simp at h
  · split at h
    · split at h
      · rename_i raw raws _
        simp only [bind, Except.bind] at h
        split at h
        · simp at h
        · rename_i steps hsteps
          split at h
          · simp at h
          · rename_i hacyclic
            split at h
            · simp at h
            · rename_i hvalid
              simp only [pure, Except.pure, Except.ok.injEq, Option.some.injEq] at h
              subst h
              obtain ⟨hnodup, hids, hlength⟩ := parseSteps_ok hsteps
              obtain ⟨hdeps, hcycle⟩ := ensureAcyclic_ok hacyclic
              refine ⟨fun hnil => ?_, hnodup, fun s hs => (hids s hs).1, hdeps, hcycle, ?_, ?_⟩
              · rw [show steps = [] from hnil] at hlength
                simp at hlength
              · intro s hs hne
                obtain ⟨hself, hsub, -⟩ := (ensureOnFailureFrom_ok hvalid).1 s hs hne
                exact ⟨hself, hsub⟩
              · exact fun s hs t ht => ensureOnFailureValid_primaryUnique hvalid hs ht
      · simp at h
    · simp at h

end OpenStarry.MetaSkill
