import Mathlib.Data.List.Nodup
import Mathlib.Data.Option.Basic
import OpenStarry.Lib.Keyed

/-!
# A table with a primary key

The rows of a table in the order they were inserted, no two with one key. A conditional update
changes the rows that meet its condition and leaves the keys alone, so what it does to the table is
what it does to each row.
-/

namespace OpenStarry.Lib

/-- The rows by their keys. -/
structure Table (κ ρ : Type) where
  entries : List (κ × ρ)
  nodup : (entries.map Prod.fst).Nodup

namespace Table

variable {κ ρ : Type} [DecidableEq κ]

def empty : Table κ ρ := ⟨[], List.nodup_nil⟩

/-- `SELECT … WHERE key = ?`. -/
def get? (t : Table κ ρ) (key : κ) : Option ρ := t.entries.lookup key

/-- `INSERT`: refused when the key is taken. -/
def insert? (t : Table κ ρ) (key : κ) (row : ρ) : Option (Table κ ρ) :=
  if hkey : key ∈ t.entries.map Prod.fst then none
  else some ⟨t.entries ++ [(key, row)], by
    rw [List.map_append, List.map_singleton]
    exact List.nodup_append_comm.mp (List.nodup_cons.mpr ⟨hkey, t.nodup⟩)⟩

/-- `UPDATE … WHERE condition`. -/
def update (t : Table κ ρ) (condition : κ → ρ → Bool) (f : ρ → ρ) : Table κ ρ :=
  ⟨t.entries.map fun e => if condition e.1 e.2 then (e.1, f e.2) else e, by
    have hkeys : (t.entries.map fun e => if condition e.1 e.2 then (e.1, f e.2) else e).map
        Prod.fst = t.entries.map Prod.fst := by
      rw [List.map_map]
      apply List.map_congr_left
      intro e _
      simp only [Function.comp_apply]
      split_ifs <;> rfl
    rw [hkeys]
    exact t.nodup⟩

def rowcount (t : Table κ ρ) (condition : κ → ρ → Bool) : Nat :=
  t.entries.countP fun e => condition e.1 e.2

def atKey (key : κ) (condition : ρ → Bool) : κ → ρ → Bool := fun k row => decide (k = key) && condition row

variable {t t' : Table κ ρ} {key other : κ} {row : ρ} {condition : κ → ρ → Bool} {f : ρ → ρ}

@[simp] theorem get?_empty : (empty : Table κ ρ).get? key = none := rfl

theorem get?_update : (t.update condition f).get? key =
    (t.get? key).map fun row => if condition key row then f row else row := by
  obtain ⟨entries, hnodup⟩ := t
  change (entries.map fun e => if condition e.1 e.2 then (e.1, f e.2) else e).lookup key =
    (entries.lookup key).map fun row => if condition key row then f row else row
  clear hnodup
  induction entries with
  | nil => rfl
  | cons e rest ih =>
      obtain ⟨k, r⟩ := e
      by_cases hkey : key = k
      · subst hkey
        by_cases hcondition : condition key r = true <;> simp [hcondition]
      · have hne : (key == k) = false := by simpa using hkey
        by_cases hcondition : condition k r = true <;>
          simp [hcondition, List.lookup_cons, hne, ih]

theorem get?_of_insert? (other : κ) (hinsert : t.insert? key row = some t') :
    t.get? key = none ∧ t'.get? other = if other = key then some row else t.get? other := by
  rw [insert?] at hinsert
  split_ifs at hinsert with hkey
  rw [Option.some.injEq] at hinsert
  have hnone : t.get? key = none := Keyed.lookup_eq_none_iff.mpr hkey
  refine ⟨hnone, ?_⟩
  rw [← hinsert, get?, List.lookup_append]
  by_cases hother : other = key
  · rw [if_pos hother, hother, show t.entries.lookup key = none from hnone]
    simp
  · have hne : (other == key) = false := by simpa using hother
    rw [if_neg hother, List.lookup_cons, hne]
    simp [get?]

theorem get?_of_mem (hmem : (key, row) ∈ t.entries) : t.get? key = some row := by
  obtain ⟨entries, hnodup⟩ := t
  change entries.lookup key = some row
  induction entries with
  | nil => exact absurd hmem List.not_mem_nil
  | cons e rest ih =>
      obtain ⟨k, r⟩ := e
      rw [List.map_cons, List.nodup_cons] at hnodup
      by_cases hkey : key = k
      · subst hkey
        rcases List.mem_cons.mp hmem with heq | hrest
        · rw [Prod.mk.injEq] at heq
          simp [heq.2]
        · exact absurd (List.mem_map_of_mem hrest) hnodup.1
      · have hne : (key == k) = false := by simpa using hkey
        rw [List.lookup_cons, hne]
        apply ih hnodup.2
        exact (List.mem_cons.mp hmem).resolve_left fun heq => hkey (congrArg Prod.fst heq)

def Related (R : κ → ρ → ρ → Prop) (t t' : Table κ ρ) : Prop :=
  ∀ key, Option.Rel (R key) (t.get? key) (t'.get? key)

namespace Related

variable {R S : κ → ρ → ρ → Prop} {t'' : Table κ ρ}

theorem refl (hrefl : ∀ key row, R key row row) (t : Table κ ρ) : Related R t t := by
  intro key
  cases t.get? key with
  | none => exact .none
  | some row => exact .some (hrefl key row)

theorem mono (hweaker : ∀ key row row', R key row row' → S key row row')
    (h : Related R t t') : Related S t t' := by
  intro key
  have h := h key
  generalize t.get? key = before at h ⊢
  generalize t'.get? key = after at h ⊢
  cases h with
  | none => exact .none
  | some hrow => exact .some (hweaker key _ _ hrow)

theorem comp (hfirst : Related R t t') (hsecond : Related S t' t'') :
    Related (fun key row row'' => ∃ row', R key row row' ∧ S key row' row'') t t'' := by
  intro key
  have hfirst := hfirst key
  have hsecond := hsecond key
  generalize t.get? key = before at hfirst
  generalize t'.get? key = middle at hfirst hsecond
  generalize t''.get? key = after at hsecond
  cases hfirst with
  | none =>
      cases hsecond
      exact .none
  | some hrow =>
      cases hsecond with
      | some hrow' => exact .some ⟨_, hrow, hrow'⟩

theorem update (hstay : ∀ key row, R key row row)
    (hchange : ∀ key row, t.get? key = some row → condition key row = true → R key row (f row)) :
    Related R t (t.update condition f) := by
  intro key
  rw [get?_update]
  cases hrow : t.get? key with
  | none => exact .none
  | some row =>
      rw [Option.map_some]
      apply Option.Rel.some
      split_ifs with hcondition
      · exact hchange key row hrow hcondition
      · exact hstay key row

theorem of_some (h : Related R t t') (hrow : t.get? key = some row) :
    ∃ row', t'.get? key = some row' ∧ R key row row' := by
  have h := h key
  rw [hrow] at h
  generalize t'.get? key = after at h
  cases h with
  | some hrow => exact ⟨_, rfl, hrow⟩

theorem of_none (h : Related R t t') (hnone : t.get? key = none) : t'.get? key = none := by
  have h := h key
  rw [hnone] at h
  generalize t'.get? key = after at h
  cases h
  rfl

end Related

theorem rowcount_atKey (condition : ρ → Bool) :
    t.rowcount (atKey key condition) = if (t.get? key).any condition then 1 else 0 := by
  obtain ⟨entries, hnodup⟩ := t
  change entries.countP (fun e => atKey key condition e.1 e.2) =
    if (entries.lookup key).any condition then 1 else 0
  induction entries with
  | nil => rfl
  | cons e rest ih =>
      obtain ⟨k, r⟩ := e
      rw [List.map_cons, List.nodup_cons] at hnodup
      rw [List.countP_cons, ih hnodup.2]
      by_cases hkey : key = k
      · subst hkey
        have hrest : rest.lookup key = none := Keyed.lookup_eq_none_iff.mpr hnodup.1
        simp [hrest, atKey]
      · have hne : (key == k) = false := by simpa using hkey
        have hne' : decide (k = key) = false := decide_eq_false fun h => hkey h.symm
        simp [List.lookup_cons, hne, atKey, hne']

end Table

/-!
## A table with a partial unique index

Some rows have an index value, and no two rows have the same one. A write that would break this is
refused, so the index is a fact about every table that can be built.
-/

namespace Table

variable {κ ρ ι : Type} [DecidableEq κ]

def Unique (index : ρ → Option ι) (t : Table κ ρ) : Prop :=
  t.entries.Pairwise fun e e' => index e.2 = none ∨ index e.2 ≠ index e'.2

instance [DecidableEq ι] (index : ρ → Option ι) (t : Table κ ρ) : Decidable (Unique index t) := by
  unfold Unique
  infer_instance

theorem Unique.key_eq {index : ρ → Option ι} {t : Table κ ρ} (h : Unique index t) {key key' : κ}
    {row row' : ρ} (hrow : t.get? key = some row) (hrow' : t.get? key' = some row')
    (hsome : index row ≠ none) (heq : index row = index row') : key = key' := by
  obtain ⟨i, hi, hrow⟩ := List.getElem_of_mem (Keyed.mem_of_lookup hrow)
  obtain ⟨j, hj, hrow'⟩ := List.getElem_of_mem (Keyed.mem_of_lookup hrow')
  have hpair := List.pairwise_iff_getElem.mp h
  rcases Nat.lt_trichotomy i j with hlt | rfl | hlt
  · have hdistinct := hpair i j hi hj hlt
    rw [hrow, hrow'] at hdistinct
    exact absurd heq (hdistinct.resolve_left hsome)
  · exact congrArg Prod.fst (hrow.symm.trans hrow')
  · have hdistinct := hpair j i hj hi hlt
    rw [hrow, hrow'] at hdistinct
    exact absurd heq.symm (hdistinct.resolve_left (heq ▸ hsome))

theorem Unique.update {index : ρ → Option ι} {t : Table κ ρ} (h : Unique index t)
    {condition : κ → ρ → Bool} {f : ρ → ρ} (hout : ∀ row, index (f row) = none) :
    Unique index (t.update condition f) := by
  change (t.entries.map _).Pairwise _
  rw [List.pairwise_map]
  apply List.Pairwise.imp ?_ h
  intro e e' hdistinct
  split_ifs
  · exact .inl (hout _)
  · exact .inl (hout _)
  · by_cases hnone : index e.2 = none
    · exact .inl hnone
    · right
      rw [hout]
      exact hnone
  · exact hdistinct

end Table

structure IndexedTable (κ ρ ι : Type) [DecidableEq κ] (index : ρ → Option ι) extends Table κ ρ where
  unique : toTable.Unique index

namespace IndexedTable

variable {κ ρ ι : Type} [DecidableEq κ] [DecidableEq ι] {index : ρ → Option ι}

def empty : IndexedTable κ ρ ι index := ⟨Table.empty, List.Pairwise.nil⟩

def check? (t : Table κ ρ) : Option (IndexedTable κ ρ ι index) :=
  if hunique : t.Unique index then some ⟨t, hunique⟩ else none

def insert? (t : IndexedTable κ ρ ι index) (key : κ) (row : ρ) : Option (IndexedTable κ ρ ι index) :=
  (t.toTable.insert? key row).bind check?

def update? (t : IndexedTable κ ρ ι index) (condition : κ → ρ → Bool) (f : ρ → ρ) :
    Option (IndexedTable κ ρ ι index) :=
  check? (t.toTable.update condition f)

variable {t t' : IndexedTable κ ρ ι index} {key : κ} {row : ρ} {condition : κ → ρ → Bool} {f : ρ → ρ}

theorem toTable_of_check? {u : Table κ ρ} (h : check? u = some t) : t.toTable = u := by
  rw [check?] at h
  split_ifs at h with hunique
  rw [← Option.some.inj h]

theorem toTable_of_update? (h : t.update? condition f = some t') :
    t'.toTable = t.toTable.update condition f := toTable_of_check? h

theorem exists_update? (t : IndexedTable κ ρ ι index) (condition : κ → ρ → Bool)
    (hout : ∀ row, index (f row) = none) : ∃ t', t.update? condition f = some t' := by
  rw [update?, check?, dif_pos (t.unique.update hout)]
  exact ⟨_, rfl⟩

theorem toTable_of_insert? (h : t.insert? key row = some t') :
    t.toTable.insert? key row = some t'.toTable := by
  rw [insert?, Option.bind_eq_some_iff] at h
  obtain ⟨u, hu, hcheck⟩ := h
  rw [hu, toTable_of_check? hcheck]

end IndexedTable

end OpenStarry.Lib
