import Mathlib.Algebra.Ring.Int.Defs
import Mathlib.Data.List.Nodup
import Mathlib.Data.List.Perm.Subperm
import Mathlib.Data.List.Range
import Mathlib.Order.Lattice
import OpenStarry.Lib.Text

/-!
# The credential pool

A pool hands out the credential that was handed out least often among those that are not parked, and
turns round among equal ones. A credential is parked when its provider refuses a call. A later report
overwrites an earlier one, so it may end the parking early.
-/

namespace OpenStarry.Provider

open Lib

structure Credential (T : Type) where
  credId : Str
  acquisitions : Int
  parkedUntil : T

structure CredentialPool (T : Type) where
  creds : List (Credential T)
  cursor : Nat
  cursor_lt : cursor < creds.length

inductive PoolError where
  | noCredentialsAvailable
  | negativeCooldown
  | unknownCredential
  deriving DecidableEq

inductive PoolCall (T : Type) where
  | acquire
  | report429 (credId : Str) (cooldown : T)

namespace CredentialPool

variable {T : Type}

/-! ### The operations -/

section

variable (p : CredentialPool T)

def place (offset : Nat) : Nat := (p.cursor + offset) % p.creds.length

theorem place_lt (offset : Nat) : p.place offset < p.creds.length :=
  Nat.mod_lt _ (Nat.lt_of_le_of_lt (Nat.zero_le _) p.cursor_lt)

theorem exists_place {i : Nat} (hi : i < p.creds.length) :
    ∃ offset < p.creds.length, p.place offset = i := by
  have hcursor := p.cursor_lt
  unfold place
  by_cases hle : p.cursor ≤ i
  · refine ⟨i - p.cursor, by omega, ?_⟩
    rw [Nat.add_sub_cancel' hle, Nat.mod_eq_of_lt hi]
  · refine ⟨i + p.creds.length - p.cursor, by omega, ?_⟩
    rw [Nat.add_sub_cancel' (by omega), Nat.add_mod_right, Nat.mod_eq_of_lt hi]

def credAt (offset : Nat) : Credential T := p.creds.get ⟨p.place offset, p.place_lt offset⟩

end

def used (cred : Credential T) : Credential T := { cred with acquisitions := cred.acquisitions + 1 }

def count (p : CredentialPool T) (i : Nat) : Option Int := p.creds[i]?.map (·.acquisitions)

theorem eq_of_credId {p : CredentialPool T} (hids : (p.creds.map (·.credId)).Nodup) {a b : Credential T} (ha : a ∈ p.creds)
    (hb : b ∈ p.creds) (hid : a.credId = b.credId) : a = b :=
  List.inj_on_of_nodup_map hids ha hb hid

theorem map_modify_same {α β : Type} {g : α → β} {f : α → α} (hf : ∀ a, g (f a) = g a) (i : Nat)
    (l : List α) : (l.modify i f).map g = l.map g := by
  apply List.ext_getElem?
  intro k
  rw [List.getElem?_map, List.getElem?_map, List.getElem?_modify]
  cases l[k]? with
  | none => rfl
  | some a =>
      show some (g (if i = k then f a else a)) = some (g a)
      split_ifs
      · rw [hf]
      · rfl

theorem count_modify_used {p : CredentialPool T} {creds : List (Credential T)} {k : Nat} (hcreds : creds = p.creds.modify k used)
    (i : Nat) : (creds[i]?.map (·.acquisitions)) =
      (count p i).map fun c => if k = i then c + 1 else c := by
  rw [hcreds, List.getElem?_modify, count]
  cases p.creds[i]? with
  | none => rfl
  | some cred =>
      show some (if k = i then used cred else cred).acquisitions = _
      split_ifs
      · rfl
      · rfl

theorem exists_credAt {p : CredentialPool T} {cred : Credential T} (h : cred ∈ p.creds) :
    ∃ offset < p.creds.length, p.credAt offset = cred := by
  obtain ⟨i, hi, rfl⟩ := List.getElem_of_mem h
  obtain ⟨offset, hoffset, hplace⟩ := p.exists_place hi
  refine ⟨offset, hoffset, ?_⟩
  unfold credAt
  simp only [hplace, List.get_eq_getElem]

theorem getElem?_place (p : CredentialPool T) (offset : Nat) : p.creds[p.place offset]? = some (p.credAt offset) := by
  rw [List.getElem?_eq_getElem (p.place_lt offset)]
  rfl

section

variable [LinearOrder T] (p : CredentialPool T) (now : T)

def ordered : List Nat :=
  (List.range p.creds.length).filter fun offset => (p.credAt offset).parkedUntil ≤ now

def chosenOffset : Option Nat :=
  ((p.ordered now).map fun offset => (p.credAt offset).acquisitions).min?.bind fun minHits =>
    (p.ordered now).find? fun offset => (p.credAt offset).acquisitions = minHits

/-- `acquire` when the clock shows `now`. -/
def acquire : CredentialPool T × Except PoolError (Credential T) :=
  match p.chosenOffset now with
  | none => (p, .error .noCredentialsAvailable)
  | some offset =>
      (⟨p.creds.modify (p.place offset) used, p.place (offset + 1), by
          rw [List.length_modify]
          exact p.place_lt (offset + 1)⟩,
        .ok (used (p.credAt offset)))

variable [Add T] [Zero T]

/-- `report_429` when the clock shows `now`. -/
def report429 (credId : Str) (cooldown : T) : CredentialPool T × Except PoolError Unit :=
  if cooldown < 0 then (p, .error .negativeCooldown)
  else
    match p.creds.findIdx? (·.credId = credId) with
    | none => (p, .error .unknownCredential)
    | some i =>
        (⟨p.creds.modify i fun cred => { cred with parkedUntil := now + cooldown }, p.cursor, by
            rw [List.length_modify]
            exact p.cursor_lt⟩,
          .ok ())

end

def create (creds : List (Credential T)) (hne : creds ≠ []) : CredentialPool T :=
  ⟨creds, 0, List.length_pos_of_ne_nil hne⟩

variable [LinearOrder T]

section

variable [Add T] [Zero T]

def perform (p : CredentialPool T) : T × PoolCall T → CredentialPool T × Option (Credential T)
  | (now, .acquire) => ((p.acquire now).1, (p.acquire now).2.toOption)
  | (now, .report429 credId cooldown) => ((p.report429 now credId cooldown).1, none)

def after (p : CredentialPool T) (calls : List (T × PoolCall T)) : CredentialPool T :=
  calls.foldl (fun p call => (p.perform call).1) p

def acquired : CredentialPool T → List (T × PoolCall T) → List Str
  | _, [] => []
  | p, call :: rest => ((p.perform call).2.map (·.credId)).toList ++ acquired (p.perform call).1 rest

/-! ### What is promised of a pool -/

section

variable (p : CredentialPool T) (calls : List (T × PoolCall T))

def Parked (credId : Str) (now : T) : Prop :=
  (∃ cred ∈ p.creds, cred.credId = credId ∧ now < cred.parkedUntil) ∨
    ∃ t cooldown, (t, PoolCall.report429 credId cooldown) ∈ calls ∧ 0 ≤ cooldown ∧ now < t + cooldown

/-- What an acquisition behind the calls hands out is not parked, and was handed out least often. -/
structure HandsOutLeastUsed (now : T) : Prop where
  error : ((p.after calls).acquire now).2 = .error .noCredentialsAvailable ↔
    ∀ other ∈ (p.after calls).creds, p.Parked calls other.credId now
  ok : ∀ cred, ((p.after calls).acquire now).2 = .ok cred → ¬ p.Parked calls cred.credId now ∧
    ∃ before ∈ (p.after calls).creds, cred = used before ∧
      ∀ other ∈ (p.after calls).creds, ¬ p.Parked calls other.credId now →
        before.acquisitions ≤ other.acquisitions

/-- At every acquisition of `next` behind the calls, the credential is not parked. -/
def StaysFree (next : List (T × PoolCall T)) (credId : Str) : Prop :=
  ∀ front now rest, next = front ++ (now, .acquire) :: rest → ¬ p.Parked (calls ++ front) credId now

/-- What holds of all runs of a pool. -/
structure Keeps : Prop where
  hands : ∀ front now rest, calls = front ++ (now, .acquire) :: rest → p.HandsOutLeastUsed front now
  even : ∀ front next rest, calls = front ++ next ++ rest →
    ∀ i j a b, p.creds[i]? = some a → p.creds[j]? = some b → count (p.after front) i = count (p.after front) j →
      p.StaysFree front next a.credId → p.StaysFree front next b.credId →
        ∀ c d, count (p.after (front ++ next)) i = some c → count (p.after (front ++ next)) j = some d →
          c ≤ d + 1
  round : ∀ front now next rest, calls = front ++ next ++ rest →
    next.length = p.creds.length → (∀ call ∈ next, call.2 = .acquire ∧ now ≤ call.1) →
    (∀ cred ∈ (p.after front).creds, ∀ other ∈ (p.after front).creds,
      cred.acquisitions = other.acquisitions) →
    (∀ cred ∈ p.creds, ¬ p.Parked front cred.credId now) →
      ((p.after front).acquired next).Perm (p.creds.map (·.credId))

def NeverShortens : Prop :=
  ∀ front t credId cooldown rest, calls = front ++ (t, .report429 credId cooldown) :: rest →
    0 ≤ cooldown → ∀ cred ∈ (p.after front).creds, cred.credId = credId →
      cred.parkedUntil ≤ t + cooldown

end

end

/-! ### One call -/

variable {p : CredentialPool T} {now : T}

theorem mem_ordered {offset : Nat} : offset ∈ p.ordered now ↔
    offset < p.creds.length ∧ (p.credAt offset).parkedUntil ≤ now := by
  rw [ordered, List.mem_filter, List.mem_range, decide_eq_true_eq]

theorem acquire_cases (p : CredentialPool T) (now : T) :
    (p.acquire now = (p, .error .noCredentialsAvailable) ∧ ∀ cred ∈ p.creds, now < cred.parkedUntil) ∨
      ∃ i cred, p.creds[i]? = some cred ∧ cred.parkedUntil ≤ now ∧
        (∀ other ∈ p.creds, other.parkedUntil ≤ now → cred.acquisitions ≤ other.acquisitions) ∧
        (p.acquire now).1.creds = p.creds.modify i used ∧ (p.acquire now).2 = .ok (used cred) := by
  cases hmin : ((p.ordered now).map fun offset => (p.credAt offset).acquisitions).min? with
  | none =>
      left
      rw [List.min?_eq_none_iff, List.map_eq_nil_iff] at hmin
      constructor
      · rw [acquire, chosenOffset, hmin]
        rfl
      · intro cred hcred
        obtain ⟨offset, hoffset, rfl⟩ := exists_credAt hcred
        by_contra hfree
        have hmem : offset ∈ p.ordered now := mem_ordered.2 ⟨hoffset, not_lt.1 hfree⟩
        rw [hmin] at hmem
        exact absurd hmem List.not_mem_nil
  | some minHits =>
      right
      obtain ⟨hmem, hleast⟩ := List.min?_eq_some_iff.1 hmin
      obtain ⟨found, hfound, hhits⟩ := List.mem_map.1 hmem
      cases hfind : (p.ordered now).find? fun offset => (p.credAt offset).acquisitions = minHits with
      | none =>
          rw [List.find?_eq_none] at hfind
          exact absurd (decide_eq_true hhits) (hfind found hfound)
      | some offset =>
          have hchosen : p.chosenOffset now = some offset := by
            rw [chosenOffset, hmin]
            exact hfind
          have hhit : (p.credAt offset).acquisitions = minHits := by simpa using List.find?_some hfind
          refine ⟨p.place offset, p.credAt offset, p.getElem?_place offset,
            (mem_ordered.1 (List.mem_of_find?_eq_some hfind)).2, ?_, ?_, ?_⟩
          · intro other hother hfree
            obtain ⟨place, hplace, rfl⟩ := exists_credAt hother
            rw [hhit]
            exact hleast _ (List.mem_map_of_mem (mem_ordered.2 ⟨hplace, hfree⟩))
          · rw [acquire, hchosen]
          · rw [acquire, hchosen]

variable [Add T] [Zero T]

theorem perform_creds (p : CredentialPool T) (call : T × PoolCall T) :
    ∃ i f, (p.perform call).1.creds = p.creds.modify i f ∧
      ∀ cred : Credential T, (f cred).credId = cred.credId := by
  obtain ⟨now, _ | ⟨credId, cooldown⟩⟩ := call
  · obtain ⟨hsame, -⟩ | ⟨i, cred, -, -, -, hcreds, -⟩ := p.acquire_cases now
    · refine ⟨0, id, ?_, fun _ => rfl⟩
      rw [perform, hsame, List.modify_id]
    · exact ⟨i, used, hcreds, fun _ => rfl⟩
  · rw [perform, report429]
    split_ifs with hnegative
    · exact ⟨0, id, (List.modify_id _ _).symm, fun _ => rfl⟩
    · cases hfound : p.creds.findIdx? (·.credId = credId) with
      | none => exact ⟨0, id, (List.modify_id _ _).symm, fun _ => rfl⟩
      | some i => exact ⟨i, _, rfl, fun _ => rfl⟩

/-! ### Runs of calls -/

section

variable {calls : List (T × PoolCall T)}

theorem after_append (p : CredentialPool T) (first second : List (T × PoolCall T)) :
    p.after (first ++ second) = (p.after first).after second := List.foldl_append

theorem after_concat (p : CredentialPool T) (calls : List (T × PoolCall T)) (call : T × PoolCall T) :
    p.after (calls ++ [call]) = ((p.after calls).perform call).1 := p.after_append calls [call]

theorem map_credId_after (p : CredentialPool T) (calls : List (T × PoolCall T)) :
    (p.after calls).creds.map (·.credId) = p.creds.map (·.credId) := by
  induction calls using List.reverseRecOn with
  | nil => rfl
  | append_singleton calls call ih =>
      obtain ⟨i, f, hcreds, hid⟩ := (p.after calls).perform_creds call
      rw [after_concat, hcreds, map_modify_same hid, ih]

theorem length_creds_after (p : CredentialPool T) (calls : List (T × PoolCall T)) :
    (p.after calls).creds.length = p.creds.length := by
  have hlength := congrArg List.length (p.map_credId_after calls)
  rw [List.length_map, List.length_map] at hlength
  exact hlength

theorem credId_after {i : Nat} {a b : Credential T} (ha : p.creds[i]? = some a)
    (hb : (p.after calls).creds[i]? = some b) : b.credId = a.credId := by
  have hids := congrArg (·[i]?) (p.map_credId_after calls)
  simp only [List.getElem?_map, ha, hb, Option.map_some] at hids
  exact Option.some.inj hids

theorem parked_concat_acquire {t : T} {credId : Str} :
    p.Parked (calls ++ [(t, .acquire)]) credId now ↔ p.Parked calls credId now := by
  simp [Parked]

theorem parked_concat_report {t cooldown : T} {credId reported : Str} :
    p.Parked (calls ++ [(t, .report429 reported cooldown)]) credId now ↔
      p.Parked calls credId now ∨ credId = reported ∧ 0 ≤ cooldown ∧ now < t + cooldown := by
  unfold Parked
  rw [or_assoc]
  apply or_congr_right
  constructor
  · rintro ⟨u, c, hmem, hc, hlt⟩
    rw [List.mem_append, List.mem_singleton] at hmem
    obtain hmem | hmem := hmem
    · exact Or.inl ⟨u, c, hmem, hc, hlt⟩
    · cases hmem
      exact Or.inr ⟨rfl, hc, hlt⟩
  · rintro (⟨u, c, hmem, hc, hlt⟩ | ⟨rfl, hc, hlt⟩)
    · exact ⟨u, c, List.mem_append_left _ hmem, hc, hlt⟩
    · exact ⟨t, cooldown, List.mem_append_right _ List.mem_cons_self, hc, hlt⟩

theorem NeverShortens.prefix {rest : List (T × PoolCall T)} (h : p.NeverShortens (calls ++ rest)) :
    p.NeverShortens calls := by
  intro front t credId cooldown behind hcalls
  apply h front t credId cooldown (behind ++ rest)
  rw [hcalls, List.append_assoc, List.cons_append]

theorem lt_parkedUntil_iff (hids : (p.creds.map (·.credId)).Nodup) (h : p.NeverShortens calls) :
    ∀ cred ∈ (p.after calls).creds, ∀ now, now < cred.parkedUntil ↔ p.Parked calls cred.credId now := by
  induction calls using List.reverseRecOn with
  | nil =>
      intro cred hcred now
      constructor
      · exact fun hlt => Or.inl ⟨cred, hcred, rfl, hlt⟩
      · rintro (⟨other, hother, hid, hlt⟩ | ⟨_, _, hmem, _⟩)
        · rwa [← eq_of_credId hids hother hcred hid]
        · exact absurd hmem List.not_mem_nil
  | append_singleton calls call ih =>
      have hbefore := ih h.prefix
      have hnodup : ((p.after calls).creds.map (·.credId)).Nodup := by rwa [map_credId_after]
      intro cred hcred now
      rw [after_concat] at hcred
      obtain ⟨t, _ | ⟨credId, cooldown⟩⟩ := call
      · rw [parked_concat_acquire]
        obtain ⟨hsame, -⟩ | ⟨i, chosen, -, -, -, hcreds, -⟩ := (p.after calls).acquire_cases t
        · rw [perform, hsame] at hcred
          exact hbefore cred hcred now
        · rw [perform, hcreds] at hcred
          obtain ⟨k, hk⟩ := List.mem_iff_getElem?.1 hcred
          rw [List.getElem?_modify] at hk
          obtain ⟨old, hold, rfl⟩ := Option.map_eq_some_iff.1 hk
          have hiff := hbefore old (List.mem_of_getElem? hold) now
          split_ifs
          · exact hiff
          · exact hiff
      · rw [parked_concat_report]
        rw [perform, report429] at hcred
        split_ifs at hcred with hnegative
        · rw [hbefore cred hcred now]
          exact (or_iff_left fun hnew => not_le.2 hnegative hnew.2.1).symm
        · rw [not_lt] at hnegative
          cases hfound : (p.after calls).creds.findIdx? (·.credId = credId) with
          | none =>
              rw [hfound] at hcred
              have hother := List.findIdx?_eq_none_iff.1 hfound cred hcred
              rw [hbefore cred hcred now]
              exact (or_iff_left fun hnew => of_decide_eq_false hother hnew.1).symm
          | some i =>
              rw [hfound] at hcred
              obtain ⟨hi, hid, -⟩ := List.findIdx?_eq_some_iff_getElem.1 hfound
              have hid : (p.after calls).creds[i].credId = credId := of_decide_eq_true hid
              obtain ⟨k, hk⟩ := List.mem_iff_getElem?.1 hcred
              rw [List.getElem?_modify] at hk
              obtain ⟨old, hold, rfl⟩ := Option.map_eq_some_iff.1 hk
              have hmem := List.mem_of_getElem? hold
              split_ifs with hik
              · subst hik
                have hsame : old = (p.after calls).creds[i] :=
                  Option.some.inj (hold.symm.trans (List.getElem?_eq_getElem hi))
                have hlonger := h calls t credId cooldown [] rfl hnegative old hmem (hsame ▸ hid)
                show now < t + cooldown ↔ _
                rw [← hbefore old hmem now]
                constructor
                · exact fun hlt => Or.inr ⟨hsame ▸ hid, hnegative, hlt⟩
                · rintro (hlt | ⟨-, -, hlt⟩)
                  · exact lt_of_lt_of_le hlt hlonger
                  · exact hlt
              · rw [hbefore old hmem now]
                refine (or_iff_left fun hnew => hik ?_).symm
                have hplace : ((p.after calls).creds.map (·.credId))[i]? =
                    ((p.after calls).creds.map (·.credId))[k]? := by
                  rw [List.getElem?_map, List.getElem?_map, hold, List.getElem?_eq_getElem hi,
                    Option.map_some, Option.map_some, hid, hnew.1]
                exact (List.getElem?_inj (by rwa [List.length_map]) hnodup).1 hplace

/-! ### Whom an acquisition chooses -/

theorem handsOutLeastUsed (hids : (p.creds.map (·.credId)).Nodup) (h : p.NeverShortens calls) (now : T) :
    p.HandsOutLeastUsed calls now := by
  have hparked := lt_parkedUntil_iff hids h
  obtain ⟨hfails, hall⟩ | ⟨i, before, hbefore, hfree, hleast, -, hresult⟩ :=
    (p.after calls).acquire_cases now
  · constructor
    · rw [hfails]
      exact iff_of_true rfl fun other hother => (hparked other hother now).1 (hall other hother)
    · intro cred hcred
      rw [hfails] at hcred
      cases hcred
  · have hmem := List.mem_of_getElem? hbefore
    have hnot : ¬ p.Parked calls before.credId now :=
      fun hin => not_lt.2 hfree ((hparked before hmem now).2 hin)
    constructor
    · rw [hresult]
      exact iff_of_false (by simp) fun hall => hnot (hall before hmem)
    · intro cred hcred
      rw [hresult] at hcred
      cases hcred
      refine ⟨hnot, before, hmem, rfl, ?_⟩
      intro other hother hother'
      exact hleast other hother (not_lt.1 fun hlt => hother' ((hparked other hother now).1 hlt))

/-! ### Equal credentials -/

theorem count_perform_report {t cooldown : T} {credId : Str} (i : Nat) :
    count (p.perform (t, .report429 credId cooldown)).1 i = count p i := by
  rw [perform, report429]
  split_ifs
  · rfl
  · cases p.creds.findIdx? (·.credId = credId) with
    | none => rfl
    | some k =>
        unfold count
        rw [← List.getElem?_map, ← List.getElem?_map]
        exact congrArg (·[i]?) (map_modify_same
          (f := fun cred : Credential T => { cred with parkedUntil := t + cooldown }) (fun _ => rfl) k
          p.creds)

theorem even (hids : (p.creds.map (·.credId)).Nodup) {front next : List (T × PoolCall T)}
    (h : p.NeverShortens (front ++ next)) {i j : Nat} {a b : Credential T} (ha : p.creds[i]? = some a)
    (hb : p.creds[j]? = some b) (hequal : count (p.after front) i = count (p.after front) j)
    (hfreeA : p.StaysFree front next a.credId) (hfreeB : p.StaysFree front next b.credId) :
    ∀ c d, count (p.after (front ++ next)) i = some c → count (p.after (front ++ next)) j = some d →
      c ≤ d + 1 ∧ d ≤ c + 1 := by
  induction next using List.reverseRecOn with
  | nil =>
      intro c d hc hd
      rw [List.append_nil] at hc hd
      have hsame := Option.some.inj (hc.symm.trans (hequal.trans hd))
      omega
  | append_singleton next call ih =>
      have hshorter : ∀ {credId}, p.StaysFree front (next ++ [call]) credId →
          p.StaysFree front next credId := by
        intro credId hfree before t rest hnext
        apply hfree before t (rest ++ [call])
        rw [hnext, List.append_assoc, List.cons_append]
      rw [← List.append_assoc] at h ⊢
      have hbefore := ih h.prefix (hshorter hfreeA) (hshorter hfreeB)
      intro c d hc hd
      rw [after_concat] at hc hd
      obtain ⟨t, _ | ⟨credId, cooldown⟩⟩ := call
      · have hparked := lt_parkedUntil_iff hids h.prefix
        obtain ⟨hsame, -⟩ | ⟨k, chosen, hchosen, -, hleast, hcreds, -⟩ :=
          (p.after (front ++ next)).acquire_cases t
        · rw [perform, hsame] at hc hd
          exact hbefore c d hc hd
        · have hatMost : ∀ {m : Nat} {cred credBefore : Credential T}, p.creds[m]? = some credBefore →
              p.StaysFree front (next ++ [(t, .acquire)]) credBefore.credId →
              (p.after (front ++ next)).creds[m]? = some cred →
              chosen.acquisitions ≤ cred.acquisitions := by
            intro m cred credBefore hcredBefore hfree hcred
            have hmem := List.mem_of_getElem? hcred
            apply hleast cred hmem
            apply not_lt.1
            intro hlt
            apply hfree next t [] rfl
            rw [← credId_after hcredBefore hcred]
            exact (hparked cred hmem t).1 hlt
          rw [perform] at hc hd
          unfold count at hc hd
          rw [count_modify_used hcreds] at hc hd
          obtain ⟨c', hc', rfl⟩ := Option.map_eq_some_iff.1 hc
          obtain ⟨d', hd', rfl⟩ := Option.map_eq_some_iff.1 hd
          have hwithin := hbefore c' d' hc' hd'
          obtain ⟨credA, hcredA, hcountA⟩ := Option.map_eq_some_iff.1 hc'
          obtain ⟨credB, hcredB, hcountB⟩ := Option.map_eq_some_iff.1 hd'
          have hleA := hatMost ha hfreeA hcredA
          have hleB := hatMost hb hfreeB hcredB
          have hA : k = i → chosen.acquisitions = c' := by
            rintro rfl
            rw [← hcountA, Option.some.inj (hchosen.symm.trans hcredA)]
          have hB : k = j → chosen.acquisitions = d' := by
            rintro rfl
            rw [← hcountB, Option.some.inj (hchosen.symm.trans hcredB)]
          split_ifs with hi hj
          · have := hA hi
            have := hB hj
            omega
          · have := hA hi
            omega
          · have := hB ‹k = j›
            omega
          · exact hwithin
      · rw [count_perform_report] at hc hd
        exact hbefore c d hc hd

/-! ### One turn -/

theorem acquired_append (p : CredentialPool T) (first second : List (T × PoolCall T)) :
    p.acquired (first ++ second) = p.acquired first ++ (p.after first).acquired second := by
  induction first generalizing p with
  | nil => rfl
  | cons call rest ih =>
      rw [List.cons_append, acquired, ih, acquired, List.append_assoc]
      rfl

/-- What a turn has done so far: the places it chose, and the counts there. -/
structure Turned (p : CredentialPool T) (now : T) (count : Int) (next : List (T × PoolCall T))
    (done : List Nat) : Prop where
  nodup : done.Nodup
  length : done.length = next.length
  lt : ∀ i ∈ done, i < p.creds.length
  acquired : p.acquired next = done.map fun i => (p.creds.map (·.credId)).getD i []
  creds : ∀ i cred, (p.after next).creds[i]? = some cred → cred.parkedUntil ≤ now ∧
    cred.acquisitions = if i ∈ done then count + 1 else count

theorem exists_not_mem {n : Nat} {done : List Nat} (hlength : done.length < n) :
    ∃ i < n, i ∉ done := by
  by_contra hall
  have hsubset : List.range n ⊆ done := by
    intro i hi
    by_contra hnot
    exact hall ⟨i, List.mem_range.1 hi, hnot⟩
  have hle := (List.nodup_range.subperm hsubset).length_le
  rw [List.length_range] at hle
  omega

theorem exists_turned {count : Int} (hfree : ∀ cred ∈ p.creds, cred.parkedUntil ≤ now)
    (hcount : ∀ cred ∈ p.creds, cred.acquisitions = count) {next : List (T × PoolCall T)}
    (hlength : next.length ≤ p.creds.length)
    (hcalls : ∀ call ∈ next, call.2 = .acquire ∧ now ≤ call.1) : ∃ done, p.Turned now count next done := by
  induction next using List.reverseRecOn with
  | nil =>
      refine ⟨[], List.nodup_nil, rfl, fun _ hi => absurd hi List.not_mem_nil, rfl, ?_⟩
      intro i cred hcred
      have hmem := List.mem_of_getElem? hcred
      exact ⟨hfree cred hmem, hcount cred hmem⟩
  | append_singleton next call ih =>
      rw [List.length_append, List.length_singleton] at hlength
      obtain ⟨done, hturned⟩ := ih (by omega) fun call hcall =>
        hcalls call (List.mem_append_left _ hcall)
      obtain ⟨hacquire, hlater⟩ := hcalls call (List.mem_append_right _ List.mem_cons_self)
      obtain ⟨t, _⟩ := call
      cases hacquire
      -- a place that was not chosen yet is free, so the one chosen now has no higher count
      obtain ⟨i, hi, hnew⟩ : ∃ i < p.creds.length, i ∉ done :=
        exists_not_mem (by rw [hturned.length]; omega)
      rw [← p.length_creds_after next] at hi
      obtain ⟨hfreeI, hcountI⟩ := hturned.creds i _ (List.getElem?_eq_getElem hi)
      rw [if_neg hnew] at hcountI
      obtain ⟨-, hall⟩ | ⟨k, chosen, hchosen, -, hleast, hcreds, hresult⟩ :=
        (p.after next).acquire_cases t
      · exact absurd (le_trans hfreeI hlater) (not_le.2 (hall _ (List.getElem_mem hi)))
      · obtain ⟨-, hcountK⟩ := hturned.creds k chosen hchosen
        have hle := hleast _ (List.getElem_mem hi) (le_trans hfreeI hlater)
        have hk : k ∉ done := by
          intro hin
          rw [if_pos hin] at hcountK
          omega
        rw [if_neg hk] at hcountK
        have hklt : k < p.creds.length := by
          rw [← p.length_creds_after next]
          exact (List.getElem?_eq_some_iff.1 hchosen).1
        refine ⟨done ++ [k], ?_, ?_, ?_, ?_, ?_⟩
        · exact List.nodup_append.2 ⟨hturned.nodup, List.nodup_singleton k,
            fun a ha b hb hab => hk (List.mem_singleton.1 hb ▸ hab ▸ ha)⟩
        · rw [List.length_append, List.length_append, hturned.length]
          rfl
        · intro m hm
          rw [List.mem_append, List.mem_singleton] at hm
          obtain hm | rfl := hm
          · exact hturned.lt m hm
          · exact hklt
        · have hid : chosen.credId = (p.creds.map (·.credId)).getD k [] := by
            rw [List.getD_eq_getElem?_getD, ← p.map_credId_after next, List.getElem?_map, hchosen]
            rfl
          rw [acquired_append, hturned.acquired, List.map_append, List.map_singleton, ← hid, acquired,
            perform, hresult]
          rfl
        · intro m cred hcred
          rw [after_concat, perform, hcreds, List.getElem?_modify] at hcred
          obtain ⟨old, hold, rfl⟩ := Option.map_eq_some_iff.1 hcred
          obtain ⟨hfreeM, hcountM⟩ := hturned.creds m old hold
          split_ifs with hkm hin
          · subst hkm
            rw [if_neg hk] at hcountM
            exact ⟨hfreeM, congrArg (· + 1) hcountM⟩
          · subst hkm
            exact absurd (List.mem_append_right _ List.mem_cons_self) hin
          · rename_i hin
            rw [List.mem_append, List.mem_singleton] at hin
            rw [if_pos (hin.resolve_right fun hmk => hkm hmk.symm)] at hcountM
            exact ⟨hfreeM, hcountM⟩
          · rename_i hin
            rw [if_neg fun hdone => hin (List.mem_append_left _ hdone)] at hcountM
            exact ⟨hfreeM, hcountM⟩

theorem acquired_perm {count : Int} (hfree : ∀ cred ∈ p.creds, cred.parkedUntil ≤ now)
    (hcount : ∀ cred ∈ p.creds, cred.acquisitions = count) {next : List (T × PoolCall T)}
    (hlength : next.length = p.creds.length)
    (hcalls : ∀ call ∈ next, call.2 = .acquire ∧ now ≤ call.1) :
    (p.acquired next).Perm (p.creds.map (·.credId)) := by
  obtain ⟨done, hturned⟩ := exists_turned hfree hcount hlength.le hcalls
  have hperm : done.Perm (List.range p.creds.length) := by
    apply (hturned.nodup.subperm fun i hi => List.mem_range.2 (hturned.lt i hi)).perm_of_length_le
    rw [List.length_range, hturned.length, hlength]
  have hall : (List.range p.creds.length).map (fun i => (p.creds.map (·.credId)).getD i []) =
      p.creds.map (·.credId) := by
    apply List.ext_getElem
    · simp
    · intro i hi _
      simp only [List.getElem_map, List.getElem_range, List.getD_eq_getElem?_getD, List.getElem?_map]
      rw [List.getElem?_eq_getElem (by simpa using hi)]
      rfl
  have hacquired := hturned.acquired ▸ hperm.map _
  rwa [hall] at hacquired

end

/-! ### Fairness and safety -/

/-- Everything that is promised holds of the runs in which no report ends a cooldown early. -/
theorem keeps_of_neverShortens (p : CredentialPool T) (calls : List (T × PoolCall T))
    (hids : (p.creds.map (·.credId)).Nodup) (h : p.NeverShortens calls) : p.Keeps calls where
  hands := by
    rintro front now rest rfl
    exact handsOutLeastUsed hids h.prefix now
  even := by
    rintro front next rest rfl i j a b ha hb hequal hfreeA hfreeB c d hc hd
    exact (even hids h.prefix ha hb hequal hfreeA hfreeB c d hc hd).1
  round := by
    rintro front now next rest rfl hlength hcalls hequal hfree
    have hfront : p.NeverShortens (front ++ next) := h.prefix
    have hparked := lt_parkedUntil_iff hids hfront.prefix
    have hids := p.map_credId_after front
    rw [← hids]
    obtain ⟨first, hfirst⟩ := List.exists_mem_of_ne_nil (p.after front).creds
      (List.ne_nil_of_length_pos (Nat.lt_of_le_of_lt (Nat.zero_le _) (p.after front).cursor_lt))
    have hcount : ∀ cred ∈ (p.after front).creds, cred.acquisitions = first.acquisitions :=
      fun cred hcred => hequal cred hcred first hfirst
    have hunparked : ∀ cred ∈ (p.after front).creds, cred.parkedUntil ≤ now := by
      intro cred hcred
      have hmem : cred.credId ∈ p.creds.map (·.credId) := hids ▸ List.mem_map_of_mem hcred
      obtain ⟨other, hother, hid⟩ := List.mem_map.1 hmem
      rw [← not_lt, hparked cred hcred now, ← hid]
      exact hfree other hother
    exact acquired_perm hunparked hcount (by rw [hlength, length_creds_after]) hcalls

/-! ### A cooldown that ends early -/

def onePool : CredentialPool Int := create [⟨"key".toList, 0, 0⟩] (List.cons_ne_nil _ _)

theorem keeps_one_report :
    onePool.Keeps [(0, .report429 "key".toList 60), (60, .acquire)] := by
  apply keeps_of_neverShortens onePool _ (by decide)
  intro front t credId cooldown rest hcalls hcooldown cred hcred _
  cases front with
  | nil =>
      cases hcalls
      have hnever : cred.parkedUntil = 0 := by
        rw [List.mem_singleton.1 hcred]
      rw [hnever]
      decide
  | cons _ front =>
      rw [List.cons_append, List.cons.injEq] at hcalls
      obtain ⟨-, hcalls⟩ := hcalls
      cases front with
      | nil => cases hcalls
      | cons _ front => simp at hcalls

/-- A report of no cooldown takes back the one before it. -/
theorem shortened_cooldown_is_forgotten : ¬ ∀ (p : CredentialPool Int) (calls : List (Int × PoolCall Int)),
    (p.creds.map (·.credId)).Nodup → calls.Pairwise (fun a b => a.1 ≤ b.1) → p.Keeps calls := by
  intro h
  have hkeeps := h onePool [(0, .report429 "key".toList 60), (1, .report429 "key".toList 0), (1, .acquire)]
    (by decide) (by decide)
  have hands := (hkeeps.hands [(0, .report429 "key".toList 60), (1, .report429 "key".toList 0)] 1 [] rfl).ok
    ⟨"key".toList, 1, 1⟩ rfl
  apply hands.1
  exact Or.inr ⟨0, 60, List.mem_cons_self, by decide, by decide⟩

end CredentialPool

end OpenStarry.Provider
