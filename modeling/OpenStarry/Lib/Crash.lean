import Mathlib.Data.List.Basic

/-!
# Programs that may be cut off

A program changes a durable state by one atomic operation at a time and may be cut off after any of
them. Its trace keeps the states it may be cut off in, next to the last state and the result. A
recovery program is run on what is left, and may itself be cut off and run again.
-/

namespace OpenStarry.Lib

universe u

/-- The states after each operation, and how the program ends. -/
structure Trace (σ ε : Type) (α : Type u) where
  cuts : List σ
  state : σ
  result : Except ε α

namespace Trace

variable {σ ε : Type} {α : Type u}

def after (cuts : List σ) (t : Trace σ ε α) : Trace σ ε α := { t with cuts := cuts ++ t.cuts }

@[simp] theorem after_nil (t : Trace σ ε α) : t.after [] = t := rfl

@[simp] theorem after_after (first second : List σ) (t : Trace σ ε α) :
    (t.after second).after first = t.after (first ++ second) := by
  rw [after, after, after, List.append_assoc]

theorem cuts_after (cuts : List σ) (t : Trace σ ε α) : (t.after cuts).cuts = cuts ++ t.cuts := rfl

end Trace

/-- A program over the durable state `σ` that may raise `ε`. -/
def Prog (σ ε : Type) (α : Type u) := σ → Trace σ ε α

namespace Prog

variable {σ ε : Type} {α β : Type}

protected def pure (a : α) : Prog σ ε α := fun s => ⟨[], s, .ok a⟩

protected def bind (p : Prog σ ε α) (f : α → Prog σ ε β) : Prog σ ε β := fun s =>
  match (p s).result with
  | .ok a => (f a (p s).state).after (p s).cuts
  | .error e => ⟨(p s).cuts, (p s).state, .error e⟩

instance : Monad (Prog σ ε) where
  pure := Prog.pure
  bind := Prog.bind

def raise (e : ε) : Prog σ ε α := fun s => ⟨[], s, .error e⟩

def read (f : σ → α) : Prog σ ε α := fun s => ⟨[], s, .ok (f s)⟩

def operate (f : σ → Except ε σ) : Prog σ ε Unit := fun s =>
  match f s with
  | .ok s' => ⟨[s'], s', .ok ()⟩
  | .error e => ⟨[], s, .error e⟩

def require (holds : σ → Bool) (e : ε) : Prog σ ε Unit := fun s =>
  ⟨[], s, if holds s then .ok () else .error e⟩

/-- When the program raises, `cleanup` is run before the error goes on. -/
def onError (p : Prog σ ε α) (cleanup : Prog σ ε Unit) : Prog σ ε α := fun s =>
  match (p s).result with
  | .ok _ => p s
  | .error e =>
      ⟨(p s).cuts ++ (cleanup (p s).state).cuts, (cleanup (p s).state).state, .error e⟩

/-! ### Running a program -/

variable {p : Prog σ ε α} {f : α → Prog σ ε β} {s s' : σ} {cuts : List σ} {a : α} {e : ε}

theorem pure_apply (a : α) (s : σ) : (pure a : Prog σ ε α) s = ⟨[], s, .ok a⟩ := rfl

theorem bind_ok (h : p s = ⟨cuts, s', .ok a⟩) : (p >>= f) s = (f a s').after cuts := by
  show Prog.bind p f s = _
  rw [Prog.bind, h]

theorem bind_error (h : p s = ⟨cuts, s', .error e⟩) : (p >>= f) s = ⟨cuts, s', .error e⟩ := by
  show Prog.bind p f s = _
  rw [Prog.bind, h]

theorem bind_read (g : σ → α) : (read g >>= f) s = f (g s) s := by
  rw [bind_ok (f := f) (show read g s = ⟨[], s, .ok (g s)⟩ from rfl), Trace.after_nil]

theorem bind_require {g : Unit → Prog σ ε β} {holds : σ → Bool} (h : holds s = true) :
    (require holds e >>= g) s = g () s := by
  rw [bind_ok (f := g) (show require holds e s = ⟨[], s, .ok ()⟩ by rw [require, if_pos h]),
    Trace.after_nil]

theorem bind_require_error {g : Unit → Prog σ ε β} {holds : σ → Bool} (h : holds s = false) :
    (require holds e >>= g) s = ⟨[], s, .error e⟩ := by
  refine bind_error ?_
  rw [require, h]
  rfl

theorem operate_ok {op : σ → Except ε σ} (h : op s = .ok s') :
    operate op s = ⟨[s'], s', .ok ()⟩ := by
  rw [operate, h]

theorem onError_ok {cleanup : Prog σ ε Unit} (h : p s = ⟨cuts, s', .ok a⟩) :
    p.onError cleanup s = ⟨cuts, s', .ok a⟩ := by
  rw [onError, h]

/-! ### Recovery -/

/-- The states that may be found when `recovery` was run on `s` and cut off, any number of times. -/
inductive Cut (recovery : Prog σ ε α) (s : σ) : σ → Prop where
  | here : Cut recovery s s
  | again {c c' : σ} (hcut : Cut recovery s c) (hmem : c' ∈ (recovery c).cuts) : Cut recovery s c'

theorem Cut.invariant {recovery : Prog σ ε α} {I : σ → Prop} {c : σ} (hcut : Cut recovery s c)
    (hs : I s) (hkeep : ∀ s, I s → ∀ c ∈ (recovery s).cuts, I c) : I c := by
  induction hcut with
  | here => exact hs
  | again _ hmem ih => exact hkeep _ ih _ hmem

end Prog

end OpenStarry.Lib
