import Mathlib.Algebra.Order.Field.Rat
import Mathlib.Data.List.Pairwise
import OpenStarry.Lib.Text

/-!
# The health ledger of the providers

A deployment is benched for a while when its provider limits the rate, or after a number of
failures. A bench is taken off by the next call that looks at it after its end. What the ledger
answers is compared with what the calls say that were made so far.
-/

namespace OpenStarry.Routing

open Lib Lib.Text

abbrev Seconds := Rat

inductive ProviderFailureKind where
  | rateLimited
  | providerOverloaded
  | authInvalid
  | contextOverflow
  | unsupportedFeature
  | insufficientCredits
  | modelNotFound
  | transportTransient
  | policyRefusal
  | emptyResponse
  | malformedResponse
  | badRequest
  | unknown
  deriving DecidableEq

def benchableFailureKinds : List ProviderFailureKind :=
  [.rateLimited, .providerOverloaded, .transportTransient, .emptyResponse, .malformedResponse]

abbrev DeploymentKey := Str × Str

/-- How a provider is lowered, and the numbers the ledger was made with. -/
structure HealthConfig where
  lower : Str → Str
  failureThreshold : Nat
  cooldownS : Seconds
  maxCooldownS : Seconds
  threshold_pos : 1 ≤ failureThreshold
  cooldown_pos : 0 < cooldownS
  cooldown_le : cooldownS ≤ maxCooldownS

def HealthConfig.default (lower : Str → Str) : HealthConfig where
  lower := lower
  failureThreshold := 3
  cooldownS := 30
  maxCooldownS := 900
  threshold_pos := by decide
  cooldown_pos := by decide
  cooldown_le := by decide

structure HealthLedger where
  strikes : DeploymentKey → Option Nat
  benchedUntil : DeploymentKey → Option Seconds

inductive HealthCall where
  | recordFailure (provider model : Str) (kind : ProviderFailureKind) (retryAfterS : Option Seconds)
  | recordSuccess (provider model : Str)
  | isBenched (provider model : Str)
  | eligible (provider model : Str) (candidates : List (Str × Str))

variable (cfg : HealthConfig)

def deploymentKey (provider model : Str) : DeploymentKey := (cfg.lower (strip provider), strip model)

def cooldownFor : Option Seconds → Seconds
  | none => cfg.cooldownS
  | some retryAfterS => min (max retryAfterS 0) cfg.maxCooldownS

namespace HealthLedger

def empty : HealthLedger := ⟨fun _ => none, fun _ => none⟩

section

variable (l : HealthLedger) (key : DeploymentKey) (ts : Seconds)

/-- `_expire_locked`. -/
def expire : HealthLedger :=
  match l.benchedUntil key with
  | some t => if t ≤ ts then { l with benchedUntil := Function.update l.benchedUntil key none } else l
  | none => l

/-- `key in self._benched_until`. -/
def holds : Bool := (l.benchedUntil key).isSome

def setStrikes (strikes : Option Nat) : HealthLedger :=
  { l with strikes := Function.update l.strikes key strikes }

def setBench (t : Option Seconds) : HealthLedger :=
  { l with benchedUntil := Function.update l.benchedUntil key t }

def bench (t : Seconds) : HealthLedger :=
  if ∃ old ∈ l.benchedUntil key, t ≤ old then l else l.setBench key (some t)

def recordFailure (kind : ProviderFailureKind) (retryAfterS : Option Seconds) : HealthLedger × Bool :=
  let l := l.expire key ts
  if kind ∉ benchableFailureKinds then (l, l.holds key)
  else
    let strikes := (l.strikes key).getD 0 + 1
    if kind ≠ .rateLimited ∧ strikes < cfg.failureThreshold then
      (l.setStrikes key (some strikes), l.holds key)
    else ((l.setStrikes key none).bench key (ts + cooldownFor cfg retryAfterS), true)

def recordSuccess : HealthLedger := (l.setStrikes key none).setBench key none

def isBenched : HealthLedger × Bool := (l.expire key ts, (l.expire key ts).holds key)

def allBenched : HealthLedger → List DeploymentKey → HealthLedger × Bool
  | l, [] => (l, true)
  | l, alt :: rest =>
      let l := l.expire alt ts
      if l.holds alt then allBenched l rest else (l, false)

def eligible (candidates : List DeploymentKey) : HealthLedger × Bool :=
  let l := l.expire key ts
  if ¬ l.holds key then (l, true) else allBenched ts l (candidates.filter (· ≠ key))

end

/-- What a call leaves, and what it answers. -/
def perform (l : HealthLedger) : Seconds × HealthCall → HealthLedger × Option Bool
  | (ts, .recordFailure provider model kind retryAfterS) =>
      let done := l.recordFailure cfg (deploymentKey cfg provider model) ts kind retryAfterS
      (done.1, some done.2)
  | (_, .recordSuccess provider model) => (l.recordSuccess (deploymentKey cfg provider model), none)
  | (ts, .isBenched provider model) =>
      let done := l.isBenched (deploymentKey cfg provider model) ts
      (done.1, some done.2)
  | (ts, .eligible provider model candidates) =>
      let done := l.eligible (deploymentKey cfg provider model) ts
        (candidates.map fun c => deploymentKey cfg c.1 c.2)
      (done.1, some done.2)

def after (calls : List (Seconds × HealthCall)) : HealthLedger :=
  calls.foldl (fun l call => (l.perform cfg call).1) empty

def answers : HealthLedger → List (Seconds × HealthCall) → List (Option Bool)
  | _, [] => []
  | l, call :: rest => (l.perform cfg call).2 :: answers (l.perform cfg call).1 rest

end HealthLedger

/-! ### What the calls say -/

/-- Since the last success of a deployment: the failures since the last trigger, and what the triggers
set as ends. -/
structure Since where
  strikes : Nat
  ends : List Seconds

def Since.none : Since := ⟨0, []⟩

def Since.Triggers (s : Since) (kind : ProviderFailureKind) : Prop :=
  kind ∈ benchableFailureKinds ∧ (kind = .rateLimited ∨ cfg.failureThreshold ≤ s.strikes + 1)

instance (s : Since) (kind : ProviderFailureKind) : Decidable (s.Triggers cfg kind) :=
  inferInstanceAs (Decidable (_ ∧ _))

def Since.Benched (s : Since) (t : Seconds) : Prop := ∃ e ∈ s.ends, t < e

instance (s : Since) (t : Seconds) : Decidable (s.Benched t) :=
  inferInstanceAs (Decidable (∃ e ∈ s.ends, t < e))

abbrev Trace := DeploymentKey → Since

namespace Trace

variable (s : Trace)

def next : Seconds × HealthCall → Trace
  | (ts, .recordFailure provider model kind retryAfterS) =>
      let key := deploymentKey cfg provider model
      if kind ∉ benchableFailureKinds then s
      else if (s key).Triggers cfg kind then
        Function.update s key ⟨0, (s key).ends ++ [ts + cooldownFor cfg retryAfterS]⟩
      else Function.update s key ⟨(s key).strikes + 1, (s key).ends⟩
  | (_, .recordSuccess provider model) =>
      Function.update s (deploymentKey cfg provider model) Since.none
  | (_, .isBenched ..) => s
  | (_, .eligible ..) => s

def answer : Seconds × HealthCall → Option Bool
  | (ts, .recordFailure provider model kind _) =>
      let key := deploymentKey cfg provider model
      some (decide ((s key).Triggers cfg kind ∨ (s key).Benched ts))
  | (_, .recordSuccess ..) => none
  | (ts, .isBenched provider model) =>
      some (decide ((s (deploymentKey cfg provider model)).Benched ts))
  | (ts, .eligible provider model candidates) =>
      some (decide (¬ (s (deploymentKey cfg provider model)).Benched ts ∨
        ∀ c ∈ candidates, (s (deploymentKey cfg c.1 c.2)).Benched ts))

def after (calls : List (Seconds × HealthCall)) : Trace :=
  calls.foldl (next cfg) fun _ => Since.none

def answers : Trace → List (Seconds × HealthCall) → List (Option Bool)
  | _, [] => []
  | s, call :: rest => s.answer cfg call :: answers (s.next cfg call) rest

end Trace

/-! ### The ledger says what the calls say -/

namespace HealthLedger

variable {cfg} {l : HealthLedger} {s : Trace} {key other : DeploymentKey} {ts t : Seconds}

def Live (l : HealthLedger) (key : DeploymentKey) (t : Seconds) : Prop :=
  ∃ u, l.benchedUntil key = some u ∧ t < u

/-- From `ts` on the ledger benches what the calls bench. -/
def Agrees (l : HealthLedger) (s : Trace) (ts : Seconds) : Prop :=
  ∀ key, (l.strikes key).getD 0 = (s key).strikes ∧ ∀ t, ts ≤ t → (l.Live key t ↔ (s key).Benched t)

theorem agrees_empty (ts : Seconds) : empty.Agrees (fun _ => Since.none) ts := by
  intro key
  refine ⟨rfl, fun t _ => iff_of_false ?_ ?_⟩
  · rintro ⟨u, hu, -⟩
    cases hu
  · rintro ⟨e, he, -⟩
    exact absurd he List.not_mem_nil

theorem strikes_expire (l : HealthLedger) (key : DeploymentKey) (ts : Seconds) :
    (l.expire key ts).strikes = l.strikes := by
  unfold expire
  cases l.benchedUntil key with
  | none => rfl
  | some u =>
      dsimp only
      split_ifs
      · rfl
      · rfl

theorem strikes_setStrikes (l : HealthLedger) (key : DeploymentKey) (strikes : Option Nat) :
    (l.setStrikes key strikes).strikes key = strikes := Function.update_self ..

theorem live_expire (hts : ts ≤ t) : (l.expire other ts).Live key t ↔ l.Live key t := by
  unfold expire
  cases hu : l.benchedUntil other with
  | none => rfl
  | some u =>
      dsimp only
      split_ifs with hover
      · unfold Live
        dsimp only
        by_cases hkey : key = other
        · rw [hkey, Function.update_self, hu]
          refine iff_of_false ?_ ?_
          · rintro ⟨v, hv, -⟩
            cases hv
          · rintro ⟨v, hv, hlt⟩
            cases hv
            exact absurd (le_trans hover hts) (not_le.2 hlt)
        · rw [Function.update_of_ne hkey]
      · rfl

theorem holds_expire : (l.expire key ts).holds key = true ↔ l.Live key ts := by
  rw [← live_expire (le_refl ts), holds, Option.isSome_iff_exists]
  unfold Live expire
  cases hu : l.benchedUntil key with
  | none => simp [hu]
  | some u =>
      dsimp only
      split_ifs with hover
      · simp
      · simp only [hu, Option.some.injEq, exists_eq_left', exists_eq', true_iff]
        exact not_le.1 hover

theorem Agrees.expire (h : l.Agrees s t) (hts : t ≤ ts) (key : DeploymentKey) :
    (l.expire key ts).Agrees s ts := by
  intro other
  rw [strikes_expire]
  refine ⟨(h other).1, fun u hu => ?_⟩
  rw [live_expire hu]
  exact (h other).2 u (le_trans hts hu)

theorem Agrees.holds_expire (h : l.Agrees s t) (hts : t ≤ ts) (key : DeploymentKey) :
    (l.expire key ts).holds key = decide ((s key).Benched ts) := by
  rw [Bool.eq_iff_iff, HealthLedger.holds_expire, decide_eq_true_eq]
  exact (h key).2 ts hts

theorem Agrees.update {l' : HealthLedger} {since : Since} (h : l.Agrees s ts)
    (hothers : ∀ other ≠ key, l'.strikes other = l.strikes other ∧
      l'.benchedUntil other = l.benchedUntil other)
    (hstrikes : (l'.strikes key).getD 0 = since.strikes)
    (hlive : ∀ t, ts ≤ t → (l'.Live key t ↔ since.Benched t)) :
    l'.Agrees (Function.update s key since) ts := by
  intro other
  by_cases hkey : other = key
  · rw [hkey, Function.update_self]
    exact ⟨hstrikes, hlive⟩
  · obtain ⟨hsame, hbench⟩ := hothers other hkey
    rw [Function.update_of_ne hkey, hsame]
    refine ⟨(h other).1, fun t ht => ?_⟩
    rw [← (h other).2 t ht, Live, Live, hbench]

theorem live_bench {e : Seconds} : (l.bench key e).Live key t ↔ l.Live key t ∨ t < e := by
  unfold bench Live
  split_ifs with hlonger
  · obtain ⟨old, hold, hle⟩ := hlonger
    rw [Option.mem_def] at hold
    simp only [hold, Option.some.injEq, exists_eq_left']
    exact (or_iff_left_of_imp fun hlt => lt_of_lt_of_le hlt hle).symm
  · simp only [setBench, Function.update_self, Option.some.injEq, exists_eq_left']
    refine (or_iff_right_of_imp ?_).symm
    rintro ⟨old, hold, hlt⟩
    exact lt_trans hlt (not_le.1 fun hle => hlonger ⟨old, hold, hle⟩)

theorem bench_others {e : Seconds} (hother : other ≠ key) :
    (l.bench key e).benchedUntil other = l.benchedUntil other := by
  unfold bench
  split_ifs
  · rfl
  · exact Function.update_of_ne hother _ _

theorem strikes_bench {e : Seconds} : (l.bench key e).strikes = l.strikes := by
  unfold bench
  split_ifs
  · rfl
  · rfl

theorem agrees_allBenched (alternatives : List DeploymentKey) (h : l.Agrees s t) (hts : t ≤ ts) :
    (allBenched ts l alternatives).1.Agrees s (if alternatives = [] then t else ts) ∧
      (allBenched ts l alternatives).2 = decide (∀ alt ∈ alternatives, (s alt).Benched ts) := by
  induction alternatives generalizing l t with
  | nil => exact ⟨h, rfl⟩
  | cons alt rest ih =>
      have hexpired := h.expire hts alt
      have hholds := h.holds_expire hts alt
      rw [allBenched, if_neg (List.cons_ne_nil _ _), hholds]
      by_cases hbenched : (s alt).Benched ts
      · rw [decide_eq_true hbenched, if_pos rfl]
        obtain ⟨hagrees, hanswer⟩ := ih hexpired (le_refl ts)
        rw [ite_self] at hagrees
        refine ⟨hagrees, ?_⟩
        rw [hanswer]
        simp [hbenched]
      · rw [decide_eq_false hbenched, if_neg Bool.false_ne_true]
        refine ⟨hexpired, ?_⟩
        simp [hbenched]

theorem agrees_perform (h : l.Agrees s t) (call : Seconds × HealthCall) (hts : t ≤ call.1) :
    (l.perform cfg call).1.Agrees (s.next cfg call) call.1 ∧
      (l.perform cfg call).2 = s.answer cfg call := by
  obtain ⟨ts, call⟩ := call
  dsimp only at hts ⊢
  cases call with
  | recordFailure provider model kind retryAfterS =>
      have hexpired := h.expire hts (deploymentKey cfg provider model)
      have hholds := h.holds_expire hts (deploymentKey cfg provider model)
      generalize hkey : deploymentKey cfg provider model = key at hexpired hholds
      simp only [perform, recordFailure, Trace.next, Trace.answer, hkey]
      by_cases hkind : kind ∈ benchableFailureKinds
      · have hstrikes := (hexpired key).1
        rw [if_neg (not_not.2 hkind), if_neg (not_not.2 hkind), hstrikes]
        by_cases htriggers : (s key).Triggers cfg kind
        · have hnot : ¬ (kind ≠ .rateLimited ∧ (s key).strikes + 1 < cfg.failureThreshold) := by
            rintro ⟨hother, hfew⟩
            obtain hlimited | hmany := htriggers.2
            · exact hother hlimited
            · omega
          rw [if_neg hnot, if_pos htriggers, decide_eq_true (Or.inl htriggers)]
          refine ⟨hexpired.update ?_ ?_ ?_, rfl⟩
          · intro other hother
            rw [strikes_bench, bench_others hother]
            exact ⟨Function.update_of_ne hother _ _, rfl⟩
          · rw [strikes_bench, strikes_setStrikes]
            rfl
          · intro u hu
            rw [live_bench]
            have hlive : ((l.expire key ts).setStrikes key none).Live key u ↔ (s key).Benched u :=
              (hexpired key).2 u hu
            rw [hlive]
            simp only [Since.Benched, List.mem_append, List.mem_singleton, or_and_right, exists_or,
              exists_eq_left]
        · have hfew : kind ≠ .rateLimited ∧ (s key).strikes + 1 < cfg.failureThreshold := by
            constructor
            · exact fun hlimited => htriggers ⟨hkind, Or.inl hlimited⟩
            · exact Nat.lt_of_not_le fun hmany => htriggers ⟨hkind, Or.inr hmany⟩
          rw [if_pos hfew, if_neg htriggers]
          refine ⟨hexpired.update ?_ ?_ ?_, ?_⟩
          · intro other hother
            exact ⟨Function.update_of_ne hother _ _, rfl⟩
          · dsimp only
            rw [strikes_setStrikes]
            rfl
          · exact (hexpired key).2
          · rw [hholds]
            simp [htriggers]
      · rw [if_pos hkind, if_pos hkind]
        refine ⟨hexpired, ?_⟩
        rw [hholds]
        simp [Since.Triggers, hkind]
  | recordSuccess provider model =>
      have hlater : l.Agrees s ts := fun key => ⟨(h key).1, fun u hu => (h key).2 u (le_trans hts hu)⟩
      refine ⟨hlater.update ?_ ?_ ?_, rfl⟩
      · intro other hother
        exact ⟨Function.update_of_ne hother _ _, Function.update_of_ne hother _ _⟩
      · simp [perform, recordSuccess, setStrikes, setBench, Since.none]
      · intro u _
        simp [perform, recordSuccess, setStrikes, setBench, Live, Since.Benched, Since.none]
  | isBenched provider model =>
      exact ⟨h.expire hts _, congrArg some (h.holds_expire hts _)⟩
  | eligible provider model candidates =>
      have hexpired := h.expire hts (deploymentKey cfg provider model)
      have hholds := h.holds_expire hts (deploymentKey cfg provider model)
      obtain ⟨hagrees, hanswer⟩ := agrees_allBenched ((candidates.map fun c =>
        deploymentKey cfg c.1 c.2).filter (· ≠ deploymentKey cfg provider model)) hexpired (le_refl ts)
      rw [ite_self] at hagrees
      simp only [perform, eligible, Trace.next, Trace.answer, hholds]
      by_cases hbenched : (s (deploymentKey cfg provider model)).Benched ts
      · rw [decide_eq_true hbenched, if_neg (not_not.2 rfl)]
        refine ⟨hagrees, ?_⟩
        rw [hanswer, Option.some_inj, decide_eq_decide]
        simp only [hbenched, not_true_eq_false, false_or, List.mem_filter, List.mem_map,
          decide_eq_true_eq, and_imp, forall_exists_index, forall_apply_eq_imp_iff₂]
        refine forall₂_congr fun c _ => ?_
        by_cases hsame : deploymentKey cfg c.1 c.2 = deploymentKey cfg provider model
        · simp [hsame, hbenched]
        · simp [hsame]
      · rw [decide_eq_false hbenched, if_pos Bool.false_ne_true]
        refine ⟨hexpired, ?_⟩
        simp [hbenched]

end HealthLedger

/-! ### Runs -/

abbrev Calls := List (Seconds × HealthCall)

def InOrder (calls : Calls) : Prop := calls.Pairwise (·.1 ≤ ·.1)

def Until (calls : Calls) (t : Seconds) : Prop := ∀ call ∈ calls, call.1 ≤ t

def HealthCall.Quiet : HealthCall → Prop
  | .recordFailure _ _ kind _ => kind ∉ benchableFailureKinds
  | .recordSuccess .. => False
  | .isBenched .. => True
  | .eligible .. => True

def HealthCall.Clears (key : DeploymentKey) : HealthCall → Prop
  | .recordSuccess provider model => deploymentKey cfg provider model = key
  | _ => False

/-- The call triggers a bench of the deployment that ends at `e`. -/
def Trace.Sets (s : Trace) (key : DeploymentKey) (e : Seconds) : Seconds × HealthCall → Prop
  | (ts, .recordFailure provider model kind retryAfterS) =>
      deploymentKey cfg provider model = key ∧ (s key).Triggers cfg kind ∧
        ts + cooldownFor cfg retryAfterS = e
  | _ => False

namespace Trace

variable {cfg} {calls : Calls} {key : DeploymentKey} {e : Seconds}

theorem after_concat (calls : Calls) (call : Seconds × HealthCall) :
    after cfg (calls ++ [call]) = (after cfg calls).next cfg call := by
  rw [after, List.foldl_append]
  rfl

theorem mem_ends_next (s : Trace) (call : Seconds × HealthCall) :
    e ∈ (s.next cfg call key).ends ↔
      s.Sets cfg key e call ∨ (e ∈ (s key).ends ∧ ¬ call.2.Clears cfg key) := by
  obtain ⟨ts, call⟩ := call
  cases call with
  | recordFailure provider model kind retryAfterS =>
      simp only [next, Sets, HealthCall.Clears, not_false_eq_true, and_true]
      by_cases hkey : deploymentKey cfg provider model = key
      · subst hkey
        by_cases hkind : kind ∈ benchableFailureKinds
        · by_cases htriggers : (s (deploymentKey cfg provider model)).Triggers cfg kind
          · simp only [hkind, not_true_eq_false, if_false, htriggers, if_true, Function.update_self,
              List.mem_append, List.mem_singleton, true_and]
            rw [or_comm, eq_comm]
          · simp [hkind, htriggers]
        · have htriggers : ¬ (s (deploymentKey cfg provider model)).Triggers cfg kind :=
            fun htriggers => hkind htriggers.1
          simp [hkind, htriggers]
      · have hsame := Ne.symm hkey
        split_ifs
        · simp [Function.update_of_ne hsame, hkey]
        · simp [Function.update_of_ne hsame, hkey]
        · simp [hkey]
  | recordSuccess provider model =>
      simp only [next, Sets, HealthCall.Clears, false_or]
      by_cases hkey : deploymentKey cfg provider model = key
      · simp [hkey, Since.none]
      · simp [Function.update_of_ne (Ne.symm hkey), hkey]
  | isBenched => simp [next, Sets, HealthCall.Clears]
  | eligible => simp [next, Sets, HealthCall.Clears]

theorem mem_ends_after :
    e ∈ (after cfg calls key).ends ↔ ∃ front call rest, calls = front ++ call :: rest ∧
      (after cfg front).Sets cfg key e call ∧ ∀ later ∈ rest, ¬ later.2.Clears cfg key := by
  induction calls using List.reverseRecOn with
  | nil =>
      refine iff_of_false List.not_mem_nil ?_
      rintro ⟨front, call, rest, hcalls, -⟩
      exact absurd hcalls.symm (by simp)
  | append_singleton calls last ih =>
      rw [after_concat, mem_ends_next, ih]
      constructor
      · rintro (hsets | ⟨⟨front, call, rest, rfl, hsets, hkept⟩, hlast⟩)
        · exact ⟨calls, last, [], rfl, hsets, by simp⟩
        · refine ⟨front, call, rest ++ [last], by simp, hsets, ?_⟩
          intro later hlater
          obtain hlater | hlater := List.mem_append.1 hlater
          · exact hkept later hlater
          · rwa [List.mem_singleton.1 hlater]
      · rintro ⟨front, call, rest, hcalls, hsets, hkept⟩
        obtain rfl | ⟨rest, other, rfl⟩ := List.eq_nil_or_concat rest
        · obtain ⟨rfl, hsame⟩ := List.append_inj' hcalls rfl
          cases hsame
          exact Or.inl hsets
        · rw [List.concat_eq_append] at hcalls hkept
          rw [← List.cons_append, ← List.append_assoc] at hcalls
          obtain ⟨rfl, hsame⟩ := List.append_inj' hcalls rfl
          cases hsame
          refine Or.inr ⟨⟨front, call, rest, rfl, hsets, ?_⟩, hkept last (by simp)⟩
          exact fun later hlater => hkept later (List.mem_append_left _ hlater)

theorem next_of_quiet (s : Trace) {call : Seconds × HealthCall} (hquiet : call.2.Quiet) :
    s.next cfg call = s := by
  obtain ⟨ts, call⟩ := call
  cases call with
  | recordFailure provider model kind retryAfterS => exact if_pos hquiet
  | recordSuccess => exact hquiet.elim
  | isBenched => rfl
  | eligible => rfl

end Trace

namespace HealthLedger

variable {cfg} {l : HealthLedger} {s : Trace} {calls : Calls} {ts t : Seconds}

theorem Agrees.later (h : l.Agrees s t) (hts : t ≤ ts) : l.Agrees s ts :=
  fun key => ⟨(h key).1, fun u hu => (h key).2 u (le_trans hts hu)⟩

theorem after_concat (calls : Calls) (call : Seconds × HealthCall) :
    after cfg (calls ++ [call]) = ((after cfg calls).perform cfg call).1 := by
  rw [after, List.foldl_append]
  rfl

theorem agrees_after (hcalls : InOrder calls) (ht : Until calls t) :
    (after cfg calls).Agrees (Trace.after cfg calls) t := by
  induction calls using List.reverseRecOn generalizing t with
  | nil => exact agrees_empty t
  | append_singleton calls last ih =>
      rw [InOrder, List.pairwise_append] at hcalls
      obtain ⟨hfront, -, hlast⟩ := hcalls
      have hagrees := ih hfront fun call hcall => hlast call hcall last (List.mem_singleton_self last)
      rw [after_concat, Trace.after_concat]
      exact (agrees_perform hagrees last (le_refl _)).1.later (ht last (by simp))

theorem answers_eq (h : l.Agrees s t) (hcalls : InOrder calls) (ht : ∀ call ∈ calls, t ≤ call.1) :
    l.answers cfg calls = s.answers cfg calls := by
  induction calls generalizing l s t with
  | nil => rfl
  | cons call rest ih =>
      obtain ⟨hfirst, hrest⟩ := List.pairwise_cons.1 hcalls
      have hstep : (l.perform cfg call).1.Agrees (s.next cfg call) call.1 ∧
          (l.perform cfg call).2 = s.answer cfg call :=
        agrees_perform h call (ht call List.mem_cons_self)
      rw [answers, Trace.answers, hstep.2, ih hstep.1 hrest hfirst]

theorem isBenched_after (hcalls : InOrder calls) (ht : Until calls t) (key : DeploymentKey) :
    ((after cfg calls).isBenched key t).2 = decide ((Trace.after cfg calls key).Benched t) :=
  (agrees_after hcalls ht).holds_expire (le_refl t) key

end HealthLedger

/-! ### What the ledger promises -/

/-- What a sequence of calls shows of the ledger. -/
structure FollowsTrace (calls : Calls) : Prop where
  benched : ∀ t, Until calls t → ∀ key,
    (((HealthLedger.after cfg calls).isBenched key t).2 = true ↔
      ∃ front call rest e, calls = front ++ call :: rest ∧
        (Trace.after cfg front).Sets cfg key e call ∧
        (∀ later ∈ rest, ¬ later.2.Clears cfg key) ∧ t < e)
  neverShorter : ∀ front ts provider model kind retryAfterS rest,
    calls = front ++ (ts, .recordFailure provider model kind retryAfterS) :: rest →
    ∀ key t, ts ≤ t → ((HealthLedger.after cfg front).isBenched key t).2 = true →
      ((HealthLedger.after cfg (front ++
        [(ts, .recordFailure provider model kind retryAfterS)])).isBenched key t).2 = true
  quiet : ∀ front call rest, calls = front ++ call :: rest → call.2.Quiet →
    (HealthLedger.after cfg (front ++ [call])).answers cfg rest =
      (HealthLedger.after cfg front).answers cfg rest
  returned : ∀ front ts provider model kind retryAfterS rest,
    calls = front ++ (ts, .recordFailure provider model kind retryAfterS) :: rest →
    ((HealthLedger.after cfg front).perform cfg
        (ts, .recordFailure provider model kind retryAfterS)).2 =
      some ((HealthLedger.after cfg (front ++
        [(ts, .recordFailure provider model kind retryAfterS)])).isBenched
          (deploymentKey cfg provider model) ts).2
  eligible : ∀ t, Until calls t → ∀ candidates : List (Str × Str), candidates ≠ [] →
    some true ∈ (HealthLedger.after cfg calls).answers cfg
      (candidates.map fun c => (t, .eligible c.1 c.2 candidates))

def TriggersLast (calls : Calls) : Prop :=
  ∀ front ts provider model kind retryAfterS rest,
    calls = front ++ (ts, .recordFailure provider model kind retryAfterS) :: rest →
    (Trace.after cfg front (deploymentKey cfg provider model)).Triggers cfg kind →
    0 < cooldownFor cfg retryAfterS ∨
      (Trace.after cfg front (deploymentKey cfg provider model)).Benched ts

section

variable {cfg} {calls front rest : Calls} {call : Seconds × HealthCall}

theorem InOrder.upTo (h : InOrder (front ++ call :: rest)) : InOrder (front ++ [call]) := by
  refine List.Pairwise.sublist ?_ h
  exact List.Sublist.append_left (List.singleton_sublist.2 List.mem_cons_self) front

theorem InOrder.last (h : InOrder (front ++ [call])) : Until (front ++ [call]) call.1 := by
  intro other hother
  obtain hother | hother := List.mem_append.1 hother
  · exact (List.pairwise_append.1 h).2.2 other hother call (List.mem_singleton_self call)
  · rw [List.mem_singleton.1 hother]

theorem InOrder.init (h : InOrder (front ++ [call])) : InOrder front :=
  (List.pairwise_append.1 h).1

theorem InOrder.afterwards (h : InOrder (front ++ call :: rest)) :
    InOrder rest ∧ ∀ later ∈ rest, call.1 ≤ later.1 := by
  obtain ⟨hfirst, hrest⟩ := List.pairwise_cons.1 (List.pairwise_append.1 h).2.1
  exact ⟨hrest, hfirst⟩

theorem Until.init {t : Seconds} (h : Until (front ++ [call]) t) : Until front t :=
  fun other hother => h other (List.mem_append_left _ hother)

theorem benched_iff_sets (key : DeploymentKey) (t : Seconds) :
    (Trace.after cfg calls key).Benched t ↔ ∃ front call rest e, calls = front ++ call :: rest ∧
      (Trace.after cfg front).Sets cfg key e call ∧
      (∀ later ∈ rest, ¬ later.2.Clears cfg key) ∧ t < e := by
  constructor
  · rintro ⟨e, he, hlt⟩
    obtain ⟨front, call, rest, hcalls, hsets, hkept⟩ := Trace.mem_ends_after.1 he
    exact ⟨front, call, rest, e, hcalls, hsets, hkept, hlt⟩
  · rintro ⟨front, call, rest, e, hcalls, hsets, hkept, hlt⟩
    exact ⟨e, Trace.mem_ends_after.2 ⟨front, call, rest, hcalls, hsets, hkept⟩, hlt⟩

theorem benched_next_recordFailure (s : Trace) {ts t : Seconds} {provider model : Str}
    {kind : ProviderFailureKind} {retryAfterS : Option Seconds} (key : DeploymentKey) :
    (s.next cfg (ts, .recordFailure provider model kind retryAfterS) key).Benched t ↔
      (∃ e, s.Sets cfg key e (ts, .recordFailure provider model kind retryAfterS) ∧ t < e) ∨
        (s key).Benched t := by
  simp only [Since.Benched, Trace.mem_ends_next, HealthCall.Clears, not_false_eq_true, and_true,
    or_and_right, exists_or]

/-- What `record_failure` answers is the state at once after it, unless it triggers a bench that is
over already. -/
theorem returned_iff (hcalls : InOrder (front ++ [call])) {ts : Seconds} {provider model : Str}
    {kind : ProviderFailureKind} {retryAfterS : Option Seconds}
    (hcall : call = (ts, .recordFailure provider model kind retryAfterS)) :
    ((HealthLedger.after cfg front).perform cfg call).2 =
        some ((HealthLedger.after cfg (front ++ [call])).isBenched
          (deploymentKey cfg provider model) ts).2 ↔
      ((Trace.after cfg front (deploymentKey cfg provider model)).Triggers cfg kind →
        0 < cooldownFor cfg retryAfterS ∨
          (Trace.after cfg front (deploymentKey cfg provider model)).Benched ts) := by
  have hagrees : (HealthLedger.after cfg front).Agrees (Trace.after cfg front) call.1 :=
    HealthLedger.agrees_after hcalls.init hcalls.last.init
  have hanswer : ((HealthLedger.after cfg front).perform cfg call).2 =
      (Trace.after cfg front).answer cfg call :=
    (HealthLedger.agrees_perform hagrees call (le_refl _)).2
  have huntil := hcalls.last
  subst hcall
  rw [hanswer, HealthLedger.isBenched_after hcalls huntil, Trace.after_concat, Trace.answer, Option.some_inj, decide_eq_decide,
    benched_next_recordFailure]
  simp only [Trace.Sets, true_and]
  constructor
  · intro hsame htriggers
    obtain ⟨e, ⟨-, rfl⟩, hlt⟩ | hbenched := hsame.1 (Or.inl htriggers)
    · exact Or.inl (lt_add_iff_pos_right ts |>.1 hlt)
    · exact Or.inr hbenched
  · intro hlasts
    constructor
    · rintro (htriggers | hbenched)
      · obtain hpos | hbenched := hlasts htriggers
        · exact Or.inl ⟨_, ⟨htriggers, rfl⟩, lt_add_of_pos_right ts hpos⟩
        · exact Or.inr hbenched
      · exact Or.inr hbenched
    · rintro (⟨e, ⟨htriggers, -⟩, -⟩ | hbenched)
      · exact Or.inl htriggers
      · exact Or.inr hbenched

theorem exists_eligible (s : Trace) (t : Seconds) {candidates : List (Str × Str)}
    (hcandidates : candidates ≠ []) :
    ∃ c ∈ candidates, s.answer cfg (t, .eligible c.1 c.2 candidates) = some true := by
  by_cases hall : ∀ c ∈ candidates, (s (deploymentKey cfg c.1 c.2)).Benched t
  · obtain ⟨c, hc⟩ := List.exists_mem_of_ne_nil candidates hcandidates
    exact ⟨c, hc, congrArg some (decide_eq_true (Or.inr hall))⟩
  · simp only [not_forall, exists_prop] at hall
    obtain ⟨c, hc, hfree⟩ := hall
    exact ⟨c, hc, congrArg some (decide_eq_true (Or.inl hfree))⟩

theorem answers_of_quiet (s : Trace) {calls : Calls} (hquiet : ∀ call ∈ calls, call.2.Quiet) :
    s.answers cfg calls = calls.map (s.answer cfg) := by
  induction calls with
  | nil => rfl
  | cons call rest ih =>
      rw [Trace.answers, Trace.next_of_quiet s (hquiet call List.mem_cons_self), List.map_cons,
        ih fun other hother => hquiet other (List.mem_cons_of_mem _ hother)]

end

/-- Over every sequence of calls in order of time the ledger follows the trace exactly when no bench
is over at the failure that triggers it. -/
theorem followsTrace_iff_triggersLast (calls : Calls) (hcalls : InOrder calls) :
    FollowsTrace cfg calls ↔ TriggersLast cfg calls := by
  constructor
  · intro h front ts provider model kind retryAfterS rest hsplit
    subst hsplit
    exact (returned_iff hcalls.upTo rfl).1 (h.returned front ts provider model kind retryAfterS
      rest rfl)
  · intro h
    refine ⟨?_, ?_, ?_, ?_, ?_⟩
    · intro t ht key
      rw [HealthLedger.isBenched_after hcalls ht key, decide_eq_true_eq]
      exact benched_iff_sets key t
    · intro front ts provider model kind retryAfterS rest hsplit key t ht hbenched
      subst hsplit
      have hfront := hcalls.upTo
      have huntil : Until (front ++ [(ts, .recordFailure provider model kind retryAfterS)]) t :=
        fun call hcall => le_trans (hfront.last call hcall) ht
      rw [HealthLedger.isBenched_after hfront.init huntil.init, decide_eq_true_eq] at hbenched
      rw [HealthLedger.isBenched_after hfront huntil, decide_eq_true_eq, Trace.after_concat,
        benched_next_recordFailure]
      exact Or.inr hbenched
    · intro front call rest hsplit hquiet
      subst hsplit
      obtain ⟨hrest, hlater⟩ := hcalls.afterwards
      have hfront := hcalls.upTo
      rw [HealthLedger.answers_eq (HealthLedger.agrees_after hfront hfront.last) hrest hlater,
        HealthLedger.answers_eq (HealthLedger.agrees_after hfront.init hfront.last.init) hrest
          hlater,
        Trace.after_concat, Trace.next_of_quiet _ hquiet]
    · intro front ts provider model kind retryAfterS rest hsplit
      subst hsplit
      exact (returned_iff hcalls.upTo rfl).2 (h front ts provider model kind retryAfterS rest rfl)
    · intro t ht candidates hcandidates
      have hquiet : ∀ call ∈ candidates.map (fun c => ((t, .eligible c.1 c.2 candidates) :
          Seconds × HealthCall)), call.2.Quiet := by
        intro call hcall
        obtain ⟨c, -, rfl⟩ := List.mem_map.1 hcall
        trivial
      rw [HealthLedger.answers_eq (HealthLedger.agrees_after hcalls ht), answers_of_quiet _ hquiet]
      · obtain ⟨c, hc, hanswer⟩ : ∃ c ∈ candidates, (Trace.after cfg calls).answer cfg
            (t, .eligible c.1 c.2 candidates) = some true :=
          exists_eligible (Trace.after cfg calls) t hcandidates
        rw [List.map_map]
        exact List.mem_map.2 ⟨c, hc, hanswer⟩
      · exact List.pairwise_map.2 (List.pairwise_of_forall fun _ _ => le_refl t)
      · intro call hcall
        obtain ⟨c, -, rfl⟩ := List.mem_map.1 hcall
        exact le_refl t

/-- A limited rate with a `Retry-After` of zero: the answer is that the deployment is benched, and it
is not. -/
theorem not_followsTrace_retryAfter_zero :
    HealthLedger.empty.answers (HealthConfig.default id)
        [(0, .recordFailure "openai".toList "gpt".toList .rateLimited (some 0)),
          (0, .isBenched "openai".toList "gpt".toList)] = [some true, some false] ∧
      ¬ FollowsTrace (HealthConfig.default id)
        [(0, .recordFailure "openai".toList "gpt".toList .rateLimited (some 0))] := by
  refine ⟨by decide +kernel, fun h => ?_⟩
  have hreturned := h.returned [] 0 "openai".toList "gpt".toList .rateLimited (some 0) [] rfl
  revert hreturned
  decide +kernel

/-- Two failures of one deployment, and a third call. -/
theorem followsTrace_of_three_calls :
    FollowsTrace (HealthConfig.default id)
      [(0, .recordFailure "openai".toList "gpt".toList .emptyResponse none),
        (1, .recordFailure "openai".toList "gpt".toList .badRequest (some 0)),
        (1, .isBenched "openai".toList "gpt".toList)] := by
  refine (followsTrace_iff_triggersLast _ _ ?_).2 ?_
  · unfold InOrder
    decide +kernel
  · intro front ts provider model kind retryAfterS rest hsplit htriggers
    cases retryAfterS with
    | none => exact Or.inl (HealthConfig.default id).cooldown_pos
    | some retryAfterS =>
        exfalso
        match front, hsplit with
        | [], hsplit => cases hsplit
        | [_], hsplit =>
            cases hsplit
            exact absurd htriggers.1 (by decide)
        | [_, _], hsplit => cases hsplit
        | _ :: _ :: _ :: _, hsplit => simp at hsplit

/-! ### One deployment -/

def HealthCall.About (key : DeploymentKey) : HealthCall → Bool
  | .recordFailure provider model _ _ => deploymentKey cfg provider model = key
  | .recordSuccess provider model => deploymentKey cfg provider model = key
  | .isBenched .. => false
  | .eligible .. => false

section

variable {cfg} {s s' : Trace} {key : DeploymentKey} {call : Seconds × HealthCall}

theorem Trace.next_other (hother : call.2.About cfg key = false) :
    s.next cfg call key = s key := by
  obtain ⟨ts, call⟩ := call
  cases call with
  | recordFailure provider model kind retryAfterS =>
      have hne : key ≠ deploymentKey cfg provider model := Ne.symm (of_decide_eq_false hother)
      simp only [next]
      split_ifs
      · exact Function.update_of_ne hne _ _
      · exact Function.update_of_ne hne _ _
      · rfl
  | recordSuccess provider model =>
      exact Function.update_of_ne (Ne.symm (of_decide_eq_false hother)) _ _
  | isBenched => rfl
  | eligible => rfl

theorem Trace.next_own (hown : call.2.About cfg key = true) (hs : s key = s' key) :
    s.next cfg call key = s'.next cfg call key := by
  obtain ⟨ts, call⟩ := call
  cases call with
  | recordFailure provider model kind retryAfterS =>
      obtain rfl := of_decide_eq_true hown
      simp only [next, hs]
      split_ifs
      · rw [Function.update_self, Function.update_self]
      · rw [Function.update_self, Function.update_self]
      · exact hs
  | recordSuccess provider model =>
      obtain rfl := of_decide_eq_true hown
      rw [next, next, Function.update_self, Function.update_self]
  | isBenched => exact hs
  | eligible => exact hs

theorem Trace.after_about (calls : Calls) (key : DeploymentKey) :
    after cfg (calls.filter (·.2.About cfg key)) key = after cfg calls key := by
  induction calls using List.reverseRecOn with
  | nil => rfl
  | append_singleton calls last ih =>
      rw [List.filter_append, after_concat]
      cases habout : last.2.About cfg key with
      | false => rw [List.filter_singleton, habout, next_other habout, cond_false, List.append_nil, ih]
      | true => rw [List.filter_singleton, habout, cond_true, after_concat, next_own habout ih]

theorem cooldownFor_le (retryAfterS : Option Seconds) :
    cooldownFor cfg retryAfterS ≤ cfg.maxCooldownS := by
  cases retryAfterS with
  | none => exact cfg.cooldown_le
  | some retryAfterS => exact min_le_right _ _

end

/-- Whether a deployment is benched follows from its own failures and successes, whatever happened to
the others; the longest cooldown after its last failure it is not. -/
theorem isBenched_of_about (calls : Calls) (key : DeploymentKey) (t : Seconds)
    (hcalls : InOrder calls) (ht : Until calls t) :
    ((HealthLedger.after cfg calls).isBenched key t).2 =
        ((HealthLedger.after cfg (calls.filter (·.2.About cfg key))).isBenched key t).2 ∧
      ((∀ ts provider model kind retryAfterS,
          (ts, .recordFailure provider model kind retryAfterS) ∈ calls →
          deploymentKey cfg provider model = key → ts + cfg.maxCooldownS ≤ t) →
        ((HealthLedger.after cfg calls).isBenched key t).2 = false) := by
  have hown : InOrder (calls.filter (·.2.About cfg key)) := List.Pairwise.filter _ hcalls
  have huntil : Until (calls.filter (·.2.About cfg key)) t :=
    fun call hcall => ht call (List.mem_of_mem_filter hcall)
  rw [HealthLedger.isBenched_after hcalls ht, HealthLedger.isBenched_after hown huntil,
    Trace.after_about]
  refine ⟨rfl, fun hover => decide_eq_false fun hbenched => ?_⟩
  obtain ⟨front, ⟨ts, call⟩, rest, e, rfl, hsets, -, hlt⟩ := (benched_iff_sets key t).1 hbenched
  cases call with
  | recordFailure provider model kind retryAfterS =>
      obtain ⟨hkey, -, rfl⟩ := hsets
      have hend := hover ts provider model kind retryAfterS (by simp) hkey
      have hmost : cooldownFor cfg retryAfterS ≤ cfg.maxCooldownS := cooldownFor_le retryAfterS
      exact absurd (le_trans (add_le_add (le_refl ts) hmost) hend) (not_le.2 hlt)
  | recordSuccess => exact hsets
  | isBenched => exact hsets
  | eligible => exact hsets

theorem isBenched_of_about_two :
    ((HealthLedger.after (.default id) [(0, .recordFailure ['a'] ['m'] .rateLimited none),
        (1, .recordFailure ['b'] ['m'] .rateLimited none)]).isBenched (['a'], ['m']) 901).2 = false := by
  refine (isBenched_of_about (.default id) _ _ _ ?_ ?_).2 ?_
  · unfold InOrder
    decide +kernel
  · unfold Until
    decide +kernel
  · intro ts provider model kind retryAfterS hcall hkey
    obtain hfirst | hcall := List.mem_cons.1 hcall
    · cases hfirst
      decide +kernel
    · cases List.mem_singleton.1 hcall
      exact absurd hkey (by decide)

end OpenStarry.Routing
