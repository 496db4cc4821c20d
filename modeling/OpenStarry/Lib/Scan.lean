import Mathlib.Tactic.Common

/-!
# Scanning a sequence in pieces

A scanner reads one item after another and stops at the first thing it finds. A reader that is fed
the sequence in pieces and agrees with the scanner on each piece finds the same thing behind the same
items, however the sequence is cut.
-/

namespace OpenStarry.Lib

variable {σ τ α β ε : Type}

/-- The items up to the one where something was found, and what was found. -/
structure Scanned (σ α β : Type) where
  state : σ
  taken : List α
  found : Option β

def scan (step : σ → α → Except ε (σ × Option β)) : σ → List α → Except ε (Scanned σ α β)
  | s, [] => .ok ⟨s, [], none⟩
  | s, x :: rest =>
      match step s x with
      | .error e => .error e
      | .ok (s', some found) => .ok ⟨s', [x], some found⟩
      | .ok (s', none) =>
          (scan step s' rest).map fun after => ⟨after.state, x :: after.taken, after.found⟩

def feedAll (feed : τ → List α → Except ε (Scanned τ α β)) : τ → List (List α) → Except ε (Scanned τ α β)
  | t, [] => .ok ⟨t, [], none⟩
  | t, piece :: rest =>
      match feed t piece with
      | .error e => .error e
      | .ok ⟨t', taken, some found⟩ => .ok ⟨t', taken, some found⟩
      | .ok ⟨t', taken, none⟩ =>
          (feedAll feed t' rest).map fun after => ⟨after.state, taken ++ after.taken, after.found⟩

def Agrees (R : τ → σ → Prop) : Except ε (Scanned τ α β) → Except ε (Scanned σ α β) → Prop
  | .ok a, .ok b => a.taken = b.taken ∧ a.found = b.found ∧ R a.state b.state
  | .error e, .error e' => e = e'
  | _, _ => False

variable {step : σ → α → Except ε (σ × Option β)}

theorem scan_append (s : σ) (first second : List α) :
    scan step s (first ++ second) =
      match scan step s first with
      | .error e => .error e
      | .ok ⟨s', taken, some found⟩ => .ok ⟨s', taken, some found⟩
      | .ok ⟨s', taken, none⟩ =>
          (scan step s' second).map fun after => ⟨after.state, taken ++ after.taken, after.found⟩ := by
  induction first generalizing s with
  | nil =>
      rw [List.nil_append, scan]
      cases hsecond : scan step s second <;> simp [Except.map, hsecond]
  | cons x rest ih =>
      rw [List.cons_append, scan, scan]
      match step s x with
      | .error e => rfl
      | .ok (s', some found) => rfl
      | .ok (s', none) =>
          dsimp only
          rw [ih s']
          match scan step s' rest with
          | .error e => rfl
          | .ok ⟨s'', taken, some found⟩ => rfl
          | .ok ⟨s'', taken, none⟩ =>
              cases hsecond : scan step s'' second <;> simp [Except.map, hsecond]

theorem agrees_feedAll {R : τ → σ → Prop} {feed : τ → List α → Except ε (Scanned τ α β)}
    (hfeed : ∀ t s piece, R t s → Agrees R (feed t piece) (scan step s piece))
    {t : τ} {s : σ} (hR : R t s) (pieces : List (List α)) :
    Agrees R (feedAll feed t pieces) (scan step s pieces.flatten) := by
  induction pieces generalizing t s with
  | nil => exact ⟨rfl, rfl, hR⟩
  | cons piece rest ih =>
      have hpiece := hfeed t s piece hR
      rw [feedAll, List.flatten_cons, scan_append]
      match feed t piece, scan step s piece, hpiece with
      | .error e, .error _, rfl => exact rfl
      | .ok ⟨t', taken, some found⟩, .ok ⟨s', _, _⟩, ⟨rfl, rfl, hstate⟩ =>
          exact ⟨rfl, rfl, hstate⟩
      | .ok ⟨t', taken, none⟩, .ok ⟨s', _, _⟩, ⟨rfl, rfl, hstate⟩ =>
          have hrest := ih hstate
          dsimp only
          match feedAll feed t' rest, scan step s' rest.flatten, hrest with
          | .error e, .error _, rfl => exact rfl
          | .ok a, .ok b, ⟨htaken, hfound, hstate⟩ =>
              exact ⟨congrArg (taken ++ ·) htaken, hfound, hstate⟩

end OpenStarry.Lib
