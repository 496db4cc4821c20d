import Mathlib.Data.Fintype.EquivFin
import Mathlib.Order.WellFounded

/-!
# Runs of a partial step function

A system is given by its initial states and a partial step function: `step s a = none` says that
the action `a` is not enabled in `s`. A run may be restricted by a guard on the action and on the
state it is taken in, which is how a result is stated for exactly those runs that stay away from
some branch of the program. Safety is proved once per invariant, by `Reach.invariant` or, where
the invariant needs facts already known of every reachable state, by `Reach.strengthen`.
-/

namespace OpenStarry.Lib

universe u v

variable {σ : Type u} {α : Type v}

/-- The states reached from `init` by steps that all meet `guard`. -/
inductive Reach (init : σ → Prop) (step : σ → α → Option σ) (guard : σ → α → Prop) : σ → Prop
  | start {s : σ} (h : init s) : Reach init step guard s
  | next {s s' : σ} {a : α} (hreach : Reach init step guard s) (hguard : guard s a)
      (hstep : step s a = some s') : Reach init step guard s'

def anyStep (_ : σ) (_ : α) : Prop := True

namespace Reach

variable {init : σ → Prop} {step : σ → α → Option σ} {guard guard' : σ → α → Prop}

theorem invariant {I : σ → Prop} (hinit : ∀ s, init s → I s)
    (hstep : ∀ s a s', I s → guard s a → step s a = some s' → I s')
    {s : σ} (h : Reach init step guard s) : I s := by
  induction h with
  | start h => exact hinit _ h
  | next _ hguard hs ih => exact hstep _ _ _ ih hguard hs

/-- The invariant rule relative to a property `J` already proved of every reached state. -/
theorem strengthen {I J : σ → Prop} (hJ : ∀ s, Reach init step guard s → J s)
    (hinit : ∀ s, init s → I s)
    (hstep : ∀ s a s', J s → I s → guard s a → step s a = some s' → I s')
    {s : σ} (h : Reach init step guard s) : I s := by
  induction h with
  | start h => exact hinit _ h
  | next hreach hguard hs ih => exact hstep _ _ _ (hJ _ hreach) ih hguard hs

theorem trans {s t : σ} (h : Reach init step guard s) (hrest : Reach (· = s) step guard t) :
    Reach init step guard t := by
  induction hrest with
  | start heq => exact heq ▸ h
  | next _ hguard hs ih => exact ih.next hguard hs

end Reach

def runActions (step : σ → α → Option σ) : List α → σ → Option σ
  | [], s => some s
  | a :: rest, s => (step s a).bind (runActions step rest)

variable {init : σ → Prop} {step : σ → α → Option σ} {guard : σ → α → Prop}

@[simp] theorem runActions_nil (s : σ) : runActions step [] s = some s := rfl

theorem runActions_cons (a : α) (rest : List α) (s : σ) :
    runActions step (a :: rest) s = (step s a).bind (runActions step rest) := rfl

theorem runActions_append (first second : List α) (s : σ) :
    runActions step (first ++ second) s =
      (runActions step first s).bind (runActions step second) := by
  induction first generalizing s with
  | nil => rfl
  | cons a rest ih =>
      rw [List.cons_append, runActions_cons, runActions_cons]
      cases hs : step s a with
      | none => rfl
      | some s' => simpa using ih s'

def guardedStep (step : σ → α → Option σ) (guard : σ → α → Prop) [∀ s a, Decidable (guard s a)] :
    σ → α → Option σ :=
  fun s a => if guard s a then step s a else none

instance (s : σ) (a : α) : Decidable (anyStep s a) := .isTrue trivial

theorem Reach.actions [∀ s a, Decidable (guard s a)] {s s' : σ} {actions : List α}
    (h : Reach init step guard s) (hrun : runActions (guardedStep step guard) actions s = some s') :
    Reach init step guard s' := by
  induction actions generalizing s with
  | nil =>
      rw [runActions_nil, Option.some.injEq] at hrun
      exact hrun ▸ h
  | cons a rest ih =>
      rw [runActions_cons, Option.bind_eq_some_iff] at hrun
      obtain ⟨middle, hs, hrest⟩ := hrun
      unfold guardedStep at hs
      split_ifs at hs with hguard
      exact ih (h.next hguard hs) hrest

end OpenStarry.Lib

/-!
# Cycles and well-foundedness

For a relation with finitely many predecessors in all, every element is accessible exactly when no
element reaches itself.
-/

namespace OpenStarry.Lib

universe u

variable {α : Type u} {r : α → α → Prop}

theorem no_cycle_of_acc (h : ∀ a, Acc r a) (a : α) : ¬ Relation.TransGen r a a := by
  have hwf : WellFounded (Relation.TransGen r) := (WellFounded.intro h).transGen
  exact fun hcycle => hwf.irrefl.irrefl a hcycle

theorem acc_of_no_cycle (support : Finset α) (hsupport : ∀ a b, r a b → a ∈ support)
    (h : ∀ a, ¬ Relation.TransGen r a a) (a : α) : Acc r a := by
  let reaches : support → support → Prop := fun x y => Relation.TransGen r x y
  have : IsTrans support reaches := ⟨fun _ _ _ hab hbc => Relation.TransGen.trans hab hbc⟩
  have : Std.Irrefl reaches := ⟨fun x => h x⟩
  have hwf : WellFounded reaches := Finite.wellFounded_of_trans_of_irrefl reaches
  have hacc : ∀ x : support, Acc r x := fun x => by
    induction x using hwf.induction with
    | _ x ih => exact .intro _ fun y hy => ih ⟨y, hsupport y x hy⟩ (.single hy)
  exact .intro a fun b hb => hacc ⟨b, hsupport b a hb⟩

theorem acc_iff_no_cycle (support : Finset α) (hsupport : ∀ a b, r a b → a ∈ support) :
    (∀ a, Acc r a) ↔ ∀ a, ¬ Relation.TransGen r a a :=
  ⟨no_cycle_of_acc, acc_of_no_cycle support hsupport⟩

end OpenStarry.Lib
