import Mathlib.Data.List.Forall2

/-!
# Computations that may raise

How a computation in `Except` can have ended with a value: every part of it has.
-/

namespace OpenStarry.Lib

variable {ε α β : Type}

theorem bind_eq_ok {x : Except ε α} {f : α → Except ε β} {b : β} :
    (x >>= f) = .ok b ↔ ∃ a, x = .ok a ∧ f a = .ok b := by
  cases x <;> simp [bind, Except.bind]

@[simp] theorem ok_bind {a : α} {f : α → Except ε β} : (Except.ok a >>= f) = f a := rfl

@[simp] theorem error_bind {e : ε} {f : α → Except ε β} : (Except.error e >>= f) = .error e := rfl

theorem map_eq_ok {x : Except ε α} {f : α → β} {b : β} :
    x.map f = .ok b ↔ ∃ a, x = .ok a ∧ f a = b := by
  cases x <;> simp [Except.map]

theorem pure_eq_ok {a b : α} : (pure a : Except ε α) = .ok b ↔ a = b := by
  simp [pure, Except.pure]

theorem mapError_eq_ok {ε' : Type} {x : Except ε α} {f : ε → ε'} {a : α} :
    x.mapError f = .ok a ↔ x = .ok a := by
  cases x <;> simp [Except.mapError]

theorem throw_ne_ok {e : ε} {a : α} : (throw e : Except ε α) ≠ .ok a := by
  simp [throw, throwThe, MonadExceptOf.throw]

theorem ite_error_eq_ok {p : Prop} [Decidable p] {e : ε} {x : Except ε α} {a : α} :
    (if p then .error e else x) = .ok a ↔ ¬p ∧ x = .ok a := by
  split
  · simp_all
  · simp_all

theorem toOption_eq_some {x : Except ε α} {a : α} : x.toOption = some a ↔ x = .ok a := by
  cases x <;> simp [Except.toOption]

theorem toOption_bind (x : Except ε α) (f : α → Except ε β) :
    (x >>= f).toOption = x.toOption.bind fun a => (f a).toOption := by
  cases x <;> rfl

theorem toOption_map (x : Except ε α) (f : α → β) : (x.map f).toOption = x.toOption.map f := by
  cases x <;> rfl

theorem exists_of_isOk {x : Except ε α} (h : x.isOk = true) : ∃ a, x = .ok a := by
  cases x with
  | ok a => exact ⟨a, rfl⟩
  | error _ => cases h

theorem forM_eq_ok {f : α → Except ε Unit} {l : List α} :
    l.forM f = .ok () ↔ ∀ x ∈ l, f x = .ok () := by
  induction l with
  | nil => exact iff_of_true rfl fun x hx => absurd hx List.not_mem_nil
  | cons x rest ih =>
      have hcons : (x :: rest).forM f = (f x >>= fun _ => rest.forM f) := rfl
      rw [hcons, bind_eq_ok, List.forall_mem_cons, ← ih]
      exact ⟨fun ⟨⟨⟩, hx, hrest⟩ => ⟨hx, hrest⟩, fun ⟨hx, hrest⟩ => ⟨(), hx, hrest⟩⟩

/-- `if not p: raise e`. -/
def require (p : Prop) [Decidable p] (e : ε) : Except ε Unit := if p then .ok () else .error e

theorem require_of {p : Prop} [Decidable p] {e : ε} (hp : p) : require p e = .ok () := if_pos hp

theorem require_eq_ok {p : Prop} [Decidable p] {e : ε} {a : Unit} :
    require p e = .ok a ↔ p := by
  rw [require]
  split_ifs with hp <;> simp [hp]

def demand (x : Option α) (e : ε) : Except ε α := x.elim (.error e) .ok

@[simp] theorem demand_some {a : α} {e : ε} : demand (some a) e = .ok a := rfl

theorem demand_eq_ok {x : Option α} {e : ε} {a : α} : demand x e = .ok a ↔ x = some a := by
  cases x <;> simp [demand]

/-! ### Lists related item by item -/

section

variable {R : α → β → Prop} {l : List α} {ys : List β}

theorem exists_of_forall₂_left (h : List.Forall₂ R l ys) : ∀ x ∈ l, ∃ y ∈ ys, R x y := by
  induction h with
  | nil => exact nofun
  | cons hxy hrest ih =>
      rw [List.forall_mem_cons]
      refine ⟨⟨_, List.mem_cons_self, hxy⟩, fun x hx => ?_⟩
      obtain ⟨y, hy, hrel⟩ := ih x hx
      exact ⟨y, List.mem_cons_of_mem _ hy, hrel⟩

theorem exists_of_forall₂_right (h : List.Forall₂ R l ys) : ∀ y ∈ ys, ∃ x ∈ l, R x y :=
  exists_of_forall₂_left h.flip

theorem exists_forall₂ (h : ∀ x ∈ l, ∃ y, R x y) : ∃ ys, List.Forall₂ R l ys := by
  induction l with
  | nil => exact ⟨[], .nil⟩
  | cons x rest ih =>
      rw [List.forall_mem_cons] at h
      obtain ⟨y, hy⟩ := h.1
      obtain ⟨ys, hys⟩ := ih h.2
      exact ⟨y :: ys, .cons hy hys⟩

end

theorem mapM_eq_ok_iff_forall₂ {f : α → Except ε β} {l : List α} {ys : List β} :
    l.mapM f = .ok ys ↔ List.Forall₂ (fun x y => f x = .ok y) l ys := by
  induction l generalizing ys with
  | nil => rw [List.mapM_nil, pure_eq_ok, List.forall₂_nil_left_iff, eq_comm]
  | cons x rest ih =>
      rw [List.mapM_cons, bind_eq_ok, List.forall₂_cons_left_iff]
      simp only [bind_eq_ok, pure_eq_ok, ih]
      constructor
      · intro ⟨y, hy, zs, hzs, hys⟩
        exact ⟨y, zs, hy, hzs, hys.symm⟩
      · intro ⟨y, zs, hy, hzs, hys⟩
        exact ⟨y, hy, zs, hzs, hys.symm⟩

/-! ### Whether a computation returns -/

def Returns (x : Except ε α) : Prop := ∃ a, x = .ok a

theorem returns_pure (a : α) : Returns (pure a : Except ε α) := ⟨a, rfl⟩

theorem not_returns_throw (e : ε) : ¬Returns (throw e : Except ε α) := fun ⟨_, h⟩ => throw_ne_ok h

theorem returns_map {x : Except ε α} {f : α → β} : Returns (x.map f) ↔ Returns x := by
  constructor
  · intro ⟨b, hb⟩
    obtain ⟨a, ha, -⟩ := map_eq_ok.mp hb
    exact ⟨a, ha⟩
  · intro ⟨a, ha⟩
    exact ⟨f a, map_eq_ok.mpr ⟨a, ha, rfl⟩⟩

theorem returns_bind {x : Except ε α} {f : α → Except ε β} :
    Returns (x >>= f) ↔ ∃ a, x = .ok a ∧ Returns (f a) := by
  constructor
  · intro ⟨b, hb⟩
    obtain ⟨a, ha, hfa⟩ := bind_eq_ok.mp hb
    exact ⟨a, ha, b, hfa⟩
  · intro ⟨a, ha, b, hfa⟩
    exact ⟨b, bind_eq_ok.mpr ⟨a, ha, hfa⟩⟩

theorem returns_bind_of {x : Except ε α} {f : α → Except ε β} (hf : ∀ a, Returns (f a)) :
    Returns (x >>= f) ↔ Returns x := by
  rw [returns_bind]
  exact ⟨fun ⟨a, ha, _⟩ => ⟨a, ha⟩, fun ⟨a, ha⟩ => ⟨a, ha, hf a⟩⟩

theorem returns_mapM {f : α → Except ε β} {l : List α} :
    Returns (l.mapM f) ↔ ∀ x ∈ l, Returns (f x) := by
  constructor
  · intro ⟨ys, hys⟩ x hx
    obtain ⟨y, -, hy⟩ := exists_of_forall₂_left (mapM_eq_ok_iff_forall₂.mp hys) x hx
    exact ⟨y, hy⟩
  · intro h
    obtain ⟨ys, hys⟩ := exists_forall₂ h
    exact ⟨ys, mapM_eq_ok_iff_forall₂.mpr hys⟩

theorem mapM_eq_ok {f : α → Except ε β} {p : α → Prop} {g : α → β} {l : List α}
    (hf : ∀ x ∈ l, ∀ y, f x = .ok y ↔ p x ∧ y = g x) {ys : List β} :
    l.mapM f = .ok ys ↔ (∀ x ∈ l, p x) ∧ ys = l.map g := by
  induction l generalizing ys with
  | nil => rw [List.mapM_nil, pure_eq_ok, List.map_nil, eq_comm]; simp
  | cons x rest ih =>
      rw [List.mapM_cons, bind_eq_ok]
      simp only [bind_eq_ok, pure_eq_ok, hf x List.mem_cons_self,
        ih fun z hz => hf z (List.mem_cons_of_mem x hz), List.forall_mem_cons, List.map_cons]
      constructor
      · rintro ⟨y, ⟨hx, rfl⟩, zs, ⟨hrest, rfl⟩, rfl⟩
        exact ⟨⟨hx, hrest⟩, rfl⟩
      · rintro ⟨⟨hx, hrest⟩, rfl⟩
        exact ⟨_, ⟨hx, rfl⟩, _, ⟨hrest, rfl⟩, rfl⟩

end OpenStarry.Lib
