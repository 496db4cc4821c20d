import OpenStarry.Lib.Text

/-!
# The progress watchdog of the turns

Six detectors look for activity that leads to no write in the workspace, each with a counter of its
own. The first that warns ends the observation; only when none does, progress clears the counts of
repeated errors, and an error is counted.
-/

namespace OpenStarry.Repetition

open Lib

structure ProgressObservation where
  iteration : Int := 0
  providerCallCount : Int := 0
  successfulToolResult : Bool := false
  successfulSourceContextToolResult : Bool := false
  successfulExecutionToolResult : Bool := false
  sourceContextSignature : Option Str := none
  userVisibleOutput : Bool := false
  artifactCompleted : Bool := false
  workspaceChangeLikelyRequired : Bool := false
  workspaceWriteCount : Int := 0
  changedReceiptCount : Int := 0
  noopReceiptCount : Int := 0
  partialReceiptCount : Int := 0
  scratchWriteCount : Int := 0
  postWriteFocusedVerificationObserved : Bool := false
  toolErrorSignature : Option Str := none
  providerFailureSignature : Option Str := none
  failureAnchorSignature : Option Str := none
  failureAnchorSummary : Option Str := none

inductive ProgressAction where
  | observe
  | warn
  | block
  deriving DecidableEq

inductive Reason where
  | progress
  | noSignal
  | repeatedToolError
  | repeatedProviderFailure
  | sourceContextWithoutWorkspaceWrite
  | sourceContextExplorationWithoutWorkspaceWrite
  | sourceContextAfterWorkspaceWrite
  | repeatedFailureAnchorWithoutWorkspaceWrite
  | toolActivityWithoutWorkspaceWrite
  | verifiedWorkspaceDiffContinuedToolActivity
  deriving DecidableEq

inductive Detail where
  | int (i : Int)
  | text (s : Str)
  | bool (b : Bool)
  deriving DecidableEq

structure ProgressDecision where
  action : ProgressAction
  reason : Reason
  details : List (Str × Detail) := []
  deriving DecidableEq

structure WatchdogSettings where
  repeatedToolErrorThreshold : Int := 3
  repeatedProviderFailureThreshold : Int := 2
  repeatedFailureAnchorThreshold : Int := 3
  sourceContextWithoutWriteThreshold : Int := 8
  sourceContextExplorationWithoutWriteThreshold : Int := 12
  sourceContextAfterWriteThreshold : Int := 8
  toolActivityWithoutWriteThreshold : Int := 8
  verifiedPostWriteActivityThreshold : Int := 3
  observeOnly : Bool := true

/-! ### What is read of an observation -/

def given (s : Option Str) : Option Str := s.filter (· ≠ [])

namespace ProgressObservation

variable (o : ProgressObservation)

def workspaceReceiptCount : Nat :=
  o.changedReceiptCount.toNat + o.noopReceiptCount.toNat + o.partialReceiptCount.toNat

def workspaceProgressCount : Nat :=
  if 0 < o.workspaceReceiptCount then o.changedReceiptCount.toNat else o.workspaceWriteCount.toNat

def hasProgress (workspaceProgressObserved : Bool) : Bool :=
  workspaceProgressObserved || o.successfulToolResult || o.userVisibleOutput || o.artifactCompleted

end ProgressObservation

/-! ### The counters -/

/-- A count, and the count of its last warning. -/
structure Alarm where
  count : Nat := 0
  warnedAt : Nat := 0

/-- The alarm of a text that repeats. -/
structure TextAlarm where
  last : Option Str := none
  alarm : Alarm := {}

structure Repeats where
  last : Option Str := none
  count : Nat := 0
  deriving DecidableEq

/-- The state of the six detectors. -/
structure Activity where
  sourceContextWithoutWrite : TextAlarm := {}
  sourceContextExplorationWithoutWrite : Alarm := {}
  sourceContextAfterWrite : Alarm := {}
  failureAnchor : TextAlarm := {}
  toolActivityWithoutWrite : Alarm := {}
  verifiedPostWriteActivity : Alarm := {}

structure ProgressWatchdog where
  toolError : Repeats := {}
  providerFailure : Repeats := {}
  lastWorkspaceProgressCount : Nat := 0
  activity : Activity := {}

def Alarm.record (threshold : Int) (a : Alarm) : Alarm × Bool :=
  let count := a.count + 1
  if threshold ≤ 0 ∨ (count : Int) < threshold then (⟨count, a.warnedAt⟩, false)
  else if a.warnedAt ≠ 0 ∧ (count : Int) % threshold ≠ 0 then (⟨count, a.warnedAt⟩, false)
  else (⟨count, count⟩, true)

def TextAlarm.record (threshold : Int) (a : TextAlarm) (signature : Str) : TextAlarm × Bool :=
  let before := if a.last = some signature then a.alarm else {}
  (⟨some signature, (before.record threshold).1⟩, (before.record threshold).2)

def Repeats.record (r : Repeats) (signature : Str) : Repeats :=
  ⟨some signature, if r.last = some signature then r.count + 1 else 1⟩

variable (settings : WatchdogSettings)

def decision (reason : Reason) (details : List (Str × Detail)) : ProgressDecision :=
  ⟨if settings.observeOnly then .warn else .block, reason, details⟩

def countDetails (count : Nat) (threshold : Int) (o : ProgressObservation) : List (Str × Detail) :=
  [("count".toList, .int count), ("threshold".toList, .int threshold),
    ("iteration".toList, .int o.iteration), ("provider_call_count".toList, .int o.providerCallCount)]

def warning (rang : Bool) (reason : Reason) (details : List (Str × Detail)) :
    Option ProgressDecision :=
  if rang then some (decision settings reason details) else none

def signatureDetail (signature : Str) : List (Str × Detail) :=
  [("source_context_signature".toList, .text signature)]

def changeDetail (o : ProgressObservation) : List (Str × Detail) :=
  [("workspace_change_likely_required".toList, .bool o.workspaceChangeLikelyRequired)]

def writeDetail (o : ProgressObservation) : List (Str × Detail) :=
  [("workspace_write_count".toList, .int o.workspaceWriteCount)]

def contextSignature (o : ProgressObservation) : Str :=
  (given o.sourceContextSignature).getD "<unknown>".toList

/-! ### The six detectors -/

section

variable (a : Activity) (o : ProgressObservation)

def recordSourceContextWithoutWrite : Activity × Option ProgressDecision :=
  if o.artifactCompleted then ({ a with sourceContextWithoutWrite := {} }, none)
  else if ¬ o.successfulSourceContextToolResult then (a, none)
  else if 0 < o.workspaceProgressCount then (a, none)
  else
    let threshold := settings.sourceContextWithoutWriteThreshold
    let signature := contextSignature o
    let recorded := a.sourceContextWithoutWrite.record threshold signature
    ({ a with sourceContextWithoutWrite := recorded.1 },
      warning settings recorded.2 .sourceContextWithoutWorkspaceWrite
        (countDetails recorded.1.alarm.count threshold o ++ signatureDetail signature ++
          changeDetail o))

def recordSourceContextExplorationWithoutWrite : Activity × Option ProgressDecision :=
  if o.artifactCompleted then ({ a with sourceContextExplorationWithoutWrite := {} }, none)
  else if ¬ o.successfulSourceContextToolResult then (a, none)
  else if 0 < o.workspaceProgressCount then
    ({ a with sourceContextExplorationWithoutWrite := {} }, none)
  else
    let threshold := settings.sourceContextExplorationWithoutWriteThreshold
    let recorded := a.sourceContextExplorationWithoutWrite.record threshold
    ({ a with sourceContextExplorationWithoutWrite := recorded.1 },
      warning settings recorded.2 .sourceContextExplorationWithoutWorkspaceWrite
        (countDetails recorded.1.count threshold o ++ signatureDetail (contextSignature o) ++
          changeDetail o))

def recordSourceContextAfterWrite : Activity × Option ProgressDecision :=
  if o.artifactCompleted then ({ a with sourceContextAfterWrite := {} }, none)
  else if o.workspaceProgressCount = 0 then ({ a with sourceContextAfterWrite := {} }, none)
  else if ¬ o.successfulSourceContextToolResult then (a, none)
  else
    let threshold := settings.sourceContextAfterWriteThreshold
    let recorded := a.sourceContextAfterWrite.record threshold
    ({ a with sourceContextAfterWrite := recorded.1 },
      warning settings recorded.2 .sourceContextAfterWorkspaceWrite
        (countDetails recorded.1.count threshold o ++ writeDetail o))

def recordRepeatedFailureAnchorWithoutWrite : Activity × Option ProgressDecision :=
  match given o.failureAnchorSignature with
  | none => (a, none)
  | some signature =>
      let threshold := settings.repeatedFailureAnchorThreshold
      let recorded := a.failureAnchor.record threshold signature
      ({ a with failureAnchor := recorded.1 },
        warning settings recorded.2 .repeatedFailureAnchorWithoutWorkspaceWrite
          (("signature".toList, .text signature) ::
            countDetails recorded.1.alarm.count threshold o ++ writeDetail o ++
            [("failure_anchor_summary".toList, .text (o.failureAnchorSummary.getD []))] ++
            changeDetail o))

def recordToolActivityWithoutWrite : Activity × Option ProgressDecision :=
  if o.artifactCompleted then ({ a with toolActivityWithoutWrite := {} }, none)
  else if 0 < o.workspaceProgressCount then ({ a with toolActivityWithoutWrite := {} }, none)
  else if ¬ o.successfulToolResult then (a, none)
  else if ¬ o.successfulExecutionToolResult ∧ o.scratchWriteCount ≤ 0 then (a, none)
  else
    let threshold := settings.toolActivityWithoutWriteThreshold
    let recorded := a.toolActivityWithoutWrite.record threshold
    ({ a with toolActivityWithoutWrite := recorded.1 },
      warning settings recorded.2 .toolActivityWithoutWorkspaceWrite
        (countDetails recorded.1.count threshold o ++
          [("scratch_write_count".toList, .int o.scratchWriteCount),
            ("successful_execution_tool_result".toList, .bool o.successfulExecutionToolResult)] ++
          changeDetail o))

def recordVerifiedPostWriteActivity : Activity × Option ProgressDecision :=
  if o.artifactCompleted ∨ o.workspaceProgressCount = 0 ∨
      ¬ o.postWriteFocusedVerificationObserved then
    ({ a with verifiedPostWriteActivity := {} }, none)
  else if ¬ o.successfulToolResult then (a, none)
  else if ¬ (o.successfulExecutionToolResult || o.successfulSourceContextToolResult) then (a, none)
  else
    let threshold := settings.verifiedPostWriteActivityThreshold
    let recorded := a.verifiedPostWriteActivity.record threshold
    ({ a with verifiedPostWriteActivity := recorded.1 },
      warning settings recorded.2 .verifiedWorkspaceDiffContinuedToolActivity
        (countDetails recorded.1.count threshold o ++ writeDetail o ++
          [("changed_receipt_count".toList, .int o.changedReceiptCount),
            ("noop_receipt_count".toList, .int o.noopReceiptCount),
            ("partial_receipt_count".toList, .int o.partialReceiptCount),
            ("successful_execution_tool_result".toList, .bool o.successfulExecutionToolResult),
            ("successful_source_context_tool_result".toList,
              .bool o.successfulSourceContextToolResult)]))

end

abbrev Detector := Activity → ProgressObservation → Activity × Option ProgressDecision

def firstDecision (o : ProgressObservation) : List Detector → Activity →
    Activity × Option ProgressDecision
  | [], a => (a, none)
  | detector :: rest, a =>
      if (detector a o).2.isSome then detector a o else firstDecision o rest (detector a o).1

def detectors : List Detector :=
  [recordSourceContextWithoutWrite settings, recordSourceContextExplorationWithoutWrite settings,
    recordSourceContextAfterWrite settings, recordRepeatedFailureAnchorWithoutWrite settings,
    recordToolActivityWithoutWrite settings, recordVerifiedPostWriteActivity settings]

/-! ### Repeated errors and failures -/

/-- The two signals whose repetition is counted. -/
inductive Signal where
  | toolError
  | providerFailure
  deriving DecidableEq

namespace Signal

def signature : Signal → ProgressObservation → Option Str
  | .toolError, o => given o.toolErrorSignature
  | .providerFailure, o => given o.providerFailureSignature

def threshold : Signal → Int
  | .toolError => settings.repeatedToolErrorThreshold
  | .providerFailure => settings.repeatedProviderFailureThreshold

def reason : Signal → Reason
  | .toolError => .repeatedToolError
  | .providerFailure => .repeatedProviderFailure

end Signal

namespace ProgressWatchdog

variable (w : ProgressWatchdog) (o : ProgressObservation)

def repeats : Signal → Repeats
  | .toolError => w.toolError
  | .providerFailure => w.providerFailure

def setRepeats (r : Repeats) : Signal → ProgressWatchdog
  | .toolError => { w with toolError := r }
  | .providerFailure => { w with providerFailure := r }

def decisionDetails (signature : Str) (count : Nat) : List (Str × Detail) :=
  [("signature".toList, .text signature), ("count".toList, .int count),
    ("iteration".toList, .int o.iteration), ("provider_call_count".toList, .int o.providerCallCount)]

def recordRepeated (signal : Signal) : ProgressWatchdog × Option ProgressDecision :=
  match signal.signature o with
  | none => (w, none)
  | some signature =>
      let r := (w.repeats signal).record signature
      (w.setRepeats r signal,
        if (r.count : Int) < signal.threshold settings then none
        else some (decision settings signal.reason (decisionDetails o signature r.count)))

def recordRepeatedToolError := recordRepeated settings w o .toolError

def recordRepeatedProviderFailure := recordRepeated settings w o .providerFailure

/-- `_sync_workspace_progress_count`, whose answer is `increases`. -/
def syncWorkspaceProgressCount : ProgressWatchdog :=
  if o.workspaceProgressCount = w.lastWorkspaceProgressCount then w
  else { w with lastWorkspaceProgressCount := o.workspaceProgressCount, activity := {} }

def increases : Bool := decide (w.lastWorkspaceProgressCount < o.workspaceProgressCount)

def resetProgressSensitiveCounts : ProgressWatchdog :=
  { w with toolError := {}, providerFailure := {} }

/-- The end of `observe`, where nothing warned and no progress is shown. -/
def recordErrors : ProgressWatchdog × ProgressDecision :=
  match w.recordRepeatedToolError settings o with
  | (w, some decision) => (w, decision)
  | (w, none) =>
      match w.recordRepeatedProviderFailure settings o with
      | (w, some decision) => (w, decision)
      | (w, none) => (w, ⟨.observe, .noSignal, []⟩)

def observe : ProgressWatchdog × ProgressDecision :=
  let progress := o.hasProgress (w.increases o)
  let w := w.syncWorkspaceProgressCount o
  let warned := firstDecision o (detectors settings) w.activity
  let w := { w with activity := warned.1 }
  match warned.2 with
  | some decision => (w, decision)
  | none =>
      if progress then (w.resetProgressSensitiveCounts, ⟨.observe, .progress, []⟩)
      else w.recordErrors settings o

def after (observations : List ProgressObservation) : ProgressWatchdog :=
  observations.foldl (fun w o => (w.observe settings o).1) {}

end ProgressWatchdog

/-! ### What the observations say -/

def ShowsProgress (front : List ProgressObservation) (o : ProgressObservation) : Prop :=
  (front.getLast?.elim 0 ProgressObservation.workspaceProgressCount) < o.workspaceProgressCount ∨
    o.successfulToolResult ∨ o.userVisibleOutput ∨ o.artifactCompleted

instance (front : List ProgressObservation) (o : ProgressObservation) :
    Decidable (ShowsProgress front o) :=
  inferInstanceAs (Decidable (_ ∨ _))

/-- The `count` latest observations that carry a signature carry this one, and none since the first of
them shows progress. -/
def LatestRun (signal : Signal) (signature : Str) (count : Nat)
    (observations : List ProgressObservation) : Prop :=
  ∃ front first rest, observations = front ++ first :: rest ∧
    signal.signature first = some signature ∧
    (first :: rest).filterMap signal.signature = List.replicate count signature ∧
    ∀ before o later, first :: rest = before ++ o :: later → ¬ ShowsProgress (front ++ before) o

def WarningDue (w : ProgressWatchdog) (o : ProgressObservation) : Bool :=
  (firstDecision o (detectors settings) (w.syncWorkspaceProgressCount o).activity).2.isSome

def ProgressDecision.Counts (d : ProgressDecision) (signal : Signal) (count : Nat) : Prop :=
  d.reason = signal.reason ∧ d.details.lookup "count".toList = some (.int count)

/-- What the decision on `o` says of the observations, and they of it. -/
structure CountsRuns (signal : Signal) (front : List ProgressObservation) (o : ProgressObservation) :
    Prop where
  sound : ∀ count, ((ProgressWatchdog.after settings front).observe settings o).2.Counts signal count →
    ∃ signature, LatestRun signal signature count (front ++ [o])
  complete : ∀ signature, signal.signature o = some signature →
    LatestRun signal signature (max 1 (signal.threshold settings).toNat) (front ++ [o]) →
    ¬ WarningDue settings (ProgressWatchdog.after settings front) o →
    ∃ count, ((ProgressWatchdog.after settings front).observe settings o).2.Counts signal count

/-! ### Runs of a signature -/

section

variable {signal : Signal} {signature : Str} {count : Nat} {observations : List ProgressObservation}
  {o : ProgressObservation}

theorem replicate_of_concat {l : List Str} {s t : Str} (h : l ++ [t] = List.replicate count s) :
    t = s ∧ ∃ m, count = m + 1 ∧ l = List.replicate m s := by
  have hmem : ∀ u ∈ l ++ [t], u = s := fun u hu => List.eq_of_mem_replicate (h ▸ hu)
  refine ⟨hmem t (by simp), l.length, ?_, ?_⟩
  · simpa using (congrArg List.length h).symm
  · exact List.eq_replicate_iff.2 ⟨rfl, fun u hu => hmem u (List.mem_append_left _ hu)⟩

theorem latestRun_concat :
    LatestRun signal signature count (observations ++ [o]) ↔ ¬ ShowsProgress observations o ∧
      match signal.signature o with
      | none => LatestRun signal signature count observations
      | some s => s = signature ∧ ∃ m, count = m + 1 ∧
          (m = 0 ∨ LatestRun signal signature m observations) := by
  constructor
  · rintro ⟨front, first, rest, hsplit, hfirst, hsame, hquiet⟩
    obtain rfl | ⟨rest, last, rfl⟩ := List.eq_nil_or_concat rest
    · obtain ⟨rfl, hlast⟩ := List.append_inj' hsplit rfl
      cases hlast
      refine ⟨by simpa using hquiet [] o [] rfl, ?_⟩
      rw [hfirst]
      rw [List.filterMap_cons_some hfirst, List.filterMap_nil] at hsame
      exact ⟨rfl, 0, by simpa using (congrArg List.length hsame).symm, Or.inl rfl⟩
    · rw [List.concat_eq_append] at hsplit hsame hquiet
      rw [← List.cons_append, ← List.append_assoc] at hsplit
      obtain ⟨rfl, hlast⟩ := List.append_inj' hsplit rfl
      cases hlast
      refine ⟨hquiet (first :: rest) o [] (by simp), ?_⟩
      have hbefore : ∀ before other later, first :: rest = before ++ other :: later →
          ¬ ShowsProgress (front ++ before) other := by
        intro before other later hsplit
        exact hquiet before other (later ++ [o]) (by rw [← List.cons_append, hsplit]; simp)
      rw [← List.cons_append, List.filterMap_append] at hsame
      cases hsignature : signal.signature o with
      | none =>
          rw [List.filterMap_cons_none hsignature, List.filterMap_nil, List.append_nil] at hsame
          exact ⟨front, first, rest, rfl, hfirst, hsame, hbefore⟩
      | some s =>
          rw [List.filterMap_cons_some hsignature, List.filterMap_nil] at hsame
          obtain ⟨hs, m, hcount, hfront⟩ := replicate_of_concat hsame
          exact ⟨hs, m, hcount, Or.inr ⟨front, first, rest, rfl, hfirst, hfront, hbefore⟩⟩
  · rintro ⟨hprogress, hrun⟩
    have hlonger : ∀ m tail, (signal.signature o).toList = tail →
        List.replicate m signature ++ tail = List.replicate count signature →
        LatestRun signal signature m observations →
        LatestRun signal signature count (observations ++ [o]) := by
      rintro m tail rfl hcount ⟨front, first, rest, rfl, hfirst, hsame, hquiet⟩
      refine ⟨front, first, rest ++ [o], by simp, hfirst, ?_, ?_⟩
      · rw [← List.cons_append, List.filterMap_append, hsame, ← hcount]
        cases hsignature : signal.signature o with
        | none => simp [hsignature]
        | some s => simp [hsignature]
      · intro before other later hsplit
        rw [← List.cons_append] at hsplit
        obtain rfl | ⟨later, last, rfl⟩ := List.eq_nil_or_concat later
        · obtain ⟨rfl, hlast⟩ := List.append_inj' hsplit rfl
          cases hlast
          exact hprogress
        · rw [List.concat_eq_append, ← List.cons_append, ← List.append_assoc] at hsplit
          obtain ⟨hinner, -⟩ := List.append_inj' hsplit rfl
          exact hquiet before other later hinner
    cases hsignature : signal.signature o with
    | none =>
        rw [hsignature] at hrun hlonger
        exact hlonger count [] rfl (List.append_nil _) hrun
    | some s =>
        rw [hsignature] at hrun hlonger
        obtain ⟨rfl, m, rfl, rfl | hrun⟩ := hrun
        · refine ⟨observations, o, [], rfl, hsignature, by simp [hsignature], ?_⟩
          intro before other later hsplit
          obtain ⟨rfl, rfl, rfl⟩ : before = [] ∧ other = o ∧ later = [] := by
            cases before with
            | nil => simpa [eq_comm] using hsplit
            | cons first before => simp at hsplit
          rwa [List.append_nil]
        · exact hlonger m [s] rfl List.replicate_succ'.symm hrun

theorem Repeats.count_record_pos (r : Repeats) (s : Str) : 0 < (r.record s).count := by
  unfold Repeats.record
  dsimp only
  split_ifs
  · exact Nat.succ_pos _
  · exact Nat.one_pos

def Tells (signal : Signal) (r : Repeats) (observations : List ProgressObservation) : Prop :=
  ∀ signature count, LatestRun signal signature (count + 1) observations ↔
    r.last = some signature ∧ count < r.count

theorem tells_empty : Tells signal {} [] := by
  intro signature count
  refine iff_of_false ?_ (fun h => nomatch h.1)
  rintro ⟨front, first, rest, hsplit, -⟩
  exact absurd hsplit.symm (by simp)

theorem tells_of_progress {r : Repeats} (hprogress : ShowsProgress observations o)
    (hr : r.count = 0) : Tells signal r (observations ++ [o]) := by
  intro signature count
  rw [latestRun_concat]
  exact iff_of_false (fun h => h.1 hprogress) (fun h => absurd h.2 (by omega))

theorem Tells.unsigned {r : Repeats} (h : Tells signal r observations)
    (hprogress : ¬ ShowsProgress observations o) (hsignature : signal.signature o = none) :
    Tells signal r (observations ++ [o]) := by
  intro signature count
  rw [latestRun_concat, hsignature, and_iff_right hprogress]
  exact h signature count

theorem Tells.record {r : Repeats} {s : Str} (h : Tells signal r observations)
    (hprogress : ¬ ShowsProgress observations o) (hsignature : signal.signature o = some s) :
    Tells signal (r.record s) (observations ++ [o]) := by
  intro signature count
  rw [latestRun_concat, hsignature, and_iff_right hprogress]
  unfold Repeats.record
  dsimp only
  rw [Option.some_inj]
  refine and_congr_right fun hs => ?_
  subst hs
  constructor
  · rintro ⟨m, hm, rfl | hrun⟩
    · split_ifs
      · omega
      · omega
    · obtain rfl : count = m := by omega
      cases count with
      | zero =>
          split_ifs
          · omega
          · omega
      | succ count =>
          obtain ⟨hlast, hcount⟩ := (h s count).1 hrun
          rw [if_pos hlast]
          omega
  · intro hcount
    refine ⟨count, rfl, ?_⟩
    cases count with
    | zero => exact Or.inl rfl
    | succ count =>
        right
        split_ifs at hcount with hlast
        · exact (h s count).2 ⟨hlast, by omega⟩
        · omega

end

/-! ### What one observation does to the counters -/

section

variable {settings} {signal : Signal} {w : ProgressWatchdog} {o : ProgressObservation}

theorem reason_of_warning {rang : Bool} {reason : Reason} {details : List (Str × Detail)}
    {d : ProgressDecision} (h : warning settings rang reason details = some d) :
    d.reason = reason := by
  cases rang with
  | false => cases h
  | true =>
      cases h
      rfl

theorem reason_of_detector {detector : Detector} (hdetector : detector ∈ detectors settings)
    {a : Activity} {d : ProgressDecision} (h : (detector a o).2 = some d) :
    d.reason ≠ signal.reason := by
  have hother : ∀ reason : Reason, d.reason = reason → reason ≠ .repeatedToolError →
      reason ≠ .repeatedProviderFailure → d.reason ≠ signal.reason := by
    rintro reason rfl htool hprovider
    cases signal with
    | toolError => exact htool
    | providerFailure => exact hprovider
  simp only [detectors, List.mem_cons, List.not_mem_nil, or_false] at hdetector
  obtain rfl | rfl | rfl | rfl | rfl | rfl := hdetector
  · unfold recordSourceContextWithoutWrite at h
    split_ifs at h
    exact hother _ (reason_of_warning h) (by decide) (by decide)
  · unfold recordSourceContextExplorationWithoutWrite at h
    split_ifs at h
    exact hother _ (reason_of_warning h) (by decide) (by decide)
  · unfold recordSourceContextAfterWrite at h
    split_ifs at h
    exact hother _ (reason_of_warning h) (by decide) (by decide)
  · unfold recordRepeatedFailureAnchorWithoutWrite at h
    split at h
    · cases h
    · exact hother _ (reason_of_warning h) (by decide) (by decide)
  · unfold recordToolActivityWithoutWrite at h
    split_ifs at h
    exact hother _ (reason_of_warning h) (by decide) (by decide)
  · unfold recordVerifiedPostWriteActivity at h
    split_ifs at h
    exact hother _ (reason_of_warning h) (by decide) (by decide)

theorem reason_of_firstDecision {a : Activity} {d : ProgressDecision} {l : List Detector}
    (hl : ∀ detector ∈ l, detector ∈ detectors settings) (h : (firstDecision o l a).2 = some d) :
    d.reason ≠ signal.reason := by
  induction l generalizing a with
  | nil => cases h
  | cons detector rest ih =>
      rw [firstDecision] at h
      split_ifs at h
      · exact reason_of_detector (hl detector List.mem_cons_self) h
      · exact ih (fun other hother => hl other (List.mem_cons_of_mem _ hother)) h

namespace ProgressWatchdog

theorem repeats_sync : (w.syncWorkspaceProgressCount o).repeats signal = w.repeats signal := by
  unfold syncWorkspaceProgressCount
  split_ifs
  · rfl
  · cases signal with
    | toolError => rfl
    | providerFailure => rfl

theorem repeats_activity (a : Activity) :
    ({ w with activity := a } : ProgressWatchdog).repeats signal = w.repeats signal := by
  cases signal with
  | toolError => rfl
  | providerFailure => rfl

theorem repeats_reset : w.resetProgressSensitiveCounts.repeats signal = {} := by
  cases signal with
  | toolError => rfl
  | providerFailure => rfl

theorem observe_of_due (hdue : WarningDue settings w o) :
    (w.observe settings o).1.repeats signal = w.repeats signal ∧
      (w.observe settings o).2.reason ≠ signal.reason := by
  obtain ⟨d, hd⟩ := Option.isSome_iff_exists.1 hdue
  simp only [observe, hd]
  exact ⟨by rw [repeats_activity, repeats_sync], reason_of_firstDecision (fun _ h => h) hd⟩

theorem observe_of_progress (hdue : ¬ WarningDue settings w o)
    (hprogress : o.hasProgress (w.increases o)) :
    (w.observe settings o).1.repeats signal = {} ∧
      (w.observe settings o).2.reason ≠ signal.reason := by
  have hnone := Option.not_isSome_iff_eq_none.1 hdue
  simp only [observe, hnone, if_pos hprogress]
  refine ⟨repeats_reset, ?_⟩
  cases signal with
  | toolError => exact Reason.noConfusion
  | providerFailure => exact Reason.noConfusion

def counted (w : ProgressWatchdog) (signal : Signal) (o : ProgressObservation) : Repeats :=
  (signal.signature o).elim (w.repeats signal) (w.repeats signal).record

theorem repeats_setRepeats (r : Repeats) (other : Signal) :
    (w.setRepeats r other).repeats signal = if signal = other then r else w.repeats signal := by
  cases signal <;> cases other <;> rfl

theorem repeats_recordRepeated (other : Signal) :
    (w.recordRepeated settings o other).1.repeats signal =
      if signal = other then w.counted signal o else w.repeats signal := by
  unfold recordRepeated counted
  cases hsignature : other.signature o with
  | none =>
      split_ifs with hsame
      · rw [hsame, hsignature]
        rfl
      · rfl
  | some s =>
      dsimp only
      rw [repeats_setRepeats]
      split_ifs with hsame
      · rw [hsame, hsignature]
        rfl
      · rfl

def Reached (settings : WatchdogSettings) (w : ProgressWatchdog) (signal : Signal)
    (o : ProgressObservation) (count : Nat) : Prop :=
  (signal.signature o).isSome ∧ signal.threshold settings ≤ (w.counted signal o).count ∧
    count = (w.counted signal o).count

theorem counts_recordRepeated (settings : WatchdogSettings) (w : ProgressWatchdog) (signal : Signal)
    (o : ProgressObservation) (count : Nat) :
    (∃ d, (w.recordRepeated settings o signal).2 = some d ∧ d.Counts signal count) ↔
      w.Reached settings signal o count := by
  unfold recordRepeated Reached counted
  cases hsignature : signal.signature o with
  | none => simp
  | some s =>
      simp only [Option.elim_some, Option.isSome_some, true_and]
      split_ifs with hfew
      · simp only [false_and, exists_false, false_iff, not_and]
        omega
      · have hlookup : ∀ n : Nat, (decisionDetails o s n).lookup "count".toList = some (.int n) :=
          fun n => rfl
        simp only [Option.some.injEq, exists_eq_left', ProgressDecision.Counts, decision, hlookup,
          Detail.int.injEq, true_and]
        omega

theorem exists_counts {d : ProgressDecision}
    (h : (w.recordRepeated settings o signal).2 = some d) : ∃ count, d.Counts signal count := by
  unfold recordRepeated at h
  cases hsignature : signal.signature o with
  | none =>
      rw [hsignature] at h
      cases h
  | some s =>
      rw [hsignature] at h
      dsimp only at h
      split_ifs at h
      cases h
      exact ⟨_, rfl, rfl⟩

theorem not_counts_of_reason {d : ProgressDecision} {other : Signal} (hother : other ≠ signal)
    (hreason : d.reason = other.reason) (count : Nat) : ¬ d.Counts signal count := by
  rintro ⟨hsame, -⟩
  rw [hreason] at hsame
  cases other <;> cases signal <;> first | exact hother rfl | cases hsame

def ComesFirst (settings : WatchdogSettings) (w : ProgressWatchdog) (o : ProgressObservation) :
    Signal → Prop
  | .toolError => True
  | .providerFailure => (∃ count, w.Reached settings .toolError o count) →
      Signal.providerFailure.signature o = none

theorem recordErrors_counts (hfirst : w.ComesFirst settings o signal) :
    (w.recordErrors settings o).1.repeats signal = w.counted signal o ∧
      ∀ count, (w.recordErrors settings o).2.Counts signal count ↔
        w.Reached settings signal o count := by
  have htool : ∀ signal : Signal, (w.recordRepeated settings o .toolError).1.repeats signal =
      if signal = .toolError then w.counted signal o else w.repeats signal :=
    fun signal => repeats_recordRepeated .toolError
  have hcounts := counts_recordRepeated settings w .toolError o
  unfold recordErrors recordRepeatedToolError
  cases hrecorded : w.recordRepeated settings o .toolError with
  | mk v decided =>
      rw [hrecorded] at htool hcounts
      cases decided with
      | some d =>
          obtain ⟨reached, hreached⟩ := exists_counts (congrArg Prod.snd hrecorded)
          cases signal with
          | toolError =>
              refine ⟨htool .toolError, fun count => ?_⟩
              simpa using hcounts count
          | providerFailure =>
              have hunsigned := hfirst ⟨reached, (hcounts reached).1 ⟨d, rfl, hreached⟩⟩
              refine ⟨?_, fun count => iff_of_false ?_ ?_⟩
              · rw [counted, hunsigned]
                exact htool .providerFailure
              · exact not_counts_of_reason (by decide) hreached.1 count
              · rintro ⟨hsigned, -⟩
                rw [hunsigned] at hsigned
                cases hsigned
      | none =>
          have hunreached : ∀ count, ¬ w.Reached settings .toolError o count := by
            intro count hcount
            obtain ⟨d, hd, -⟩ := (hcounts count).2 hcount
            cases hd
          have hprovider : ∀ signal : Signal,
              (v.recordRepeated settings o .providerFailure).1.repeats signal =
                if signal = .providerFailure then v.counted signal o else v.repeats signal :=
            fun signal => repeats_recordRepeated .providerFailure
          have hsame : v.counted .providerFailure o = w.counted .providerFailure o := by
            rw [counted, counted, htool .providerFailure]
            rfl
          have hfailures : ∀ count, (∃ d, (v.recordRepeated settings o .providerFailure).2 = some d ∧
              d.Counts .providerFailure count) ↔ w.Reached settings .providerFailure o count := by
            intro count
            have hfailure := counts_recordRepeated settings v .providerFailure o count
            rwa [Reached, hsame] at hfailure
          unfold recordRepeatedProviderFailure
          dsimp only
          cases hrecorded' : v.recordRepeated settings o .providerFailure with
          | mk u decided =>
              rw [hrecorded'] at hprovider hfailures
              have hcounters : u.repeats signal = w.counted signal o := by
                cases signal with
                | toolError => exact (hprovider .toolError).trans (htool .toolError)
                | providerFailure => exact (hprovider .providerFailure).trans hsame
              cases decided with
              | some d =>
                  obtain ⟨reached, hreached⟩ := exists_counts (congrArg Prod.snd hrecorded')
                  refine ⟨hcounters, fun count => ?_⟩
                  cases signal with
                  | toolError =>
                      exact iff_of_false (not_counts_of_reason (by decide) hreached.1 count)
                        (hunreached count)
                  | providerFailure => simpa using hfailures count
              | none =>
                  refine ⟨hcounters, fun count => iff_of_false ?_ ?_⟩
                  · rintro ⟨hreason, -⟩
                    cases signal <;> cases hreason
                  · cases signal with
                    | toolError => exact hunreached count
                    | providerFailure =>
                        intro hcount
                        obtain ⟨d, hd, -⟩ := (hfailures count).2 hcount
                        cases hd

theorem observe_of_counted (hdue : ¬ WarningDue settings w o)
    (hprogress : ¬ o.hasProgress (w.increases o)) (hfirst : w.ComesFirst settings o signal) :
    (w.observe settings o).1.repeats signal = w.counted signal o ∧
      ∀ count, (w.observe settings o).2.Counts signal count ↔
        w.Reached settings signal o count := by
  have hnone := Option.not_isSome_iff_eq_none.1 hdue
  simp only [observe, hnone, if_neg hprogress]
  generalize hv : ({ w.syncWorkspaceProgressCount o with
    activity := (firstDecision o (detectors settings)
      (w.syncWorkspaceProgressCount o).activity).1 } : ProgressWatchdog) = v
  have hcounted : ∀ other : Signal, v.counted other o = w.counted other o := by
    intro other
    rw [← hv, counted, counted, repeats_activity, repeats_sync]
  have hreached : ∀ (other : Signal) (count : Nat),
      v.Reached settings other o count ↔ w.Reached settings other o count := by
    intro other count
    rw [Reached, Reached, hcounted]
  have hfirst' : v.ComesFirst settings o signal := by
    cases signal with
    | toolError => trivial
    | providerFailure => exact fun ⟨count, hcount⟩ => hfirst ⟨count, (hreached _ _).1 hcount⟩
  obtain ⟨hrepeats, hcounts⟩ := recordErrors_counts hfirst'
  refine ⟨hrepeats.trans (hcounted signal), fun count => ?_⟩
  rw [hcounts count, hreached]

theorem lastWorkspaceProgressCount_recordRepeated :
    (w.recordRepeated settings o signal).1.lastWorkspaceProgressCount =
      w.lastWorkspaceProgressCount := by
  unfold recordRepeated
  cases signal.signature o with
  | none => rfl
  | some s =>
      cases signal with
      | toolError => rfl
      | providerFailure => rfl

theorem lastWorkspaceProgressCount_recordErrors :
    (w.recordErrors settings o).1.lastWorkspaceProgressCount = w.lastWorkspaceProgressCount := by
  have htool : (w.recordRepeatedToolError settings o).1.lastWorkspaceProgressCount = _ :=
    lastWorkspaceProgressCount_recordRepeated
  unfold recordErrors
  split
  case h_1 v d hrecorded => rwa [hrecorded] at htool
  case h_2 v hrecorded =>
    rw [hrecorded] at htool
    have hprovider : (v.recordRepeatedProviderFailure settings o).1.lastWorkspaceProgressCount = _ :=
      lastWorkspaceProgressCount_recordRepeated
    split
    case h_1 u d hfailure =>
      rw [hfailure] at hprovider
      exact hprovider.trans htool
    case h_2 u hfailure =>
      rw [hfailure] at hprovider
      exact hprovider.trans htool

theorem lastWorkspaceProgressCount_observe :
    (w.observe settings o).1.lastWorkspaceProgressCount = o.workspaceProgressCount := by
  have hsync : (w.syncWorkspaceProgressCount o).lastWorkspaceProgressCount =
      o.workspaceProgressCount := by
    unfold syncWorkspaceProgressCount
    split_ifs with hsame
    · exact hsame.symm
    · rfl
  unfold observe
  dsimp only
  split
  · exact hsync
  · split_ifs
    · exact hsync
    · rw [lastWorkspaceProgressCount_recordErrors]
      exact hsync

end ProgressWatchdog

/-! ### Whole runs -/

/-- No warning hides the observation from the counter of the signal, and no other decision comes before
its own. -/
structure Undisturbed (settings : WatchdogSettings) (signal : Signal) (w : ProgressWatchdog)
    (o : ProgressObservation) : Prop where
  warned : WarningDue settings w o →
    if o.hasProgress (w.increases o) then (w.repeats signal).count = 0 else signal.signature o = none
  first : ¬ WarningDue settings w o → ¬ o.hasProgress (w.increases o) →
    w.ComesFirst settings o signal

variable {front observations : List ProgressObservation}

theorem after_concat : ProgressWatchdog.after settings (front ++ [o]) =
    ((ProgressWatchdog.after settings front).observe settings o).1 := by
  rw [ProgressWatchdog.after, List.foldl_append]
  rfl

theorem hasProgress_iff (front : List ProgressObservation) (o : ProgressObservation) :
    o.hasProgress ((ProgressWatchdog.after settings front).increases o) ↔ ShowsProgress front o := by
  have hlast : (ProgressWatchdog.after settings front).lastWorkspaceProgressCount =
      front.getLast?.elim 0 ProgressObservation.workspaceProgressCount := by
    induction front using List.reverseRecOn with
    | nil => rfl
    | append_singleton front last _ =>
        rw [after_concat, ProgressWatchdog.lastWorkspaceProgressCount_observe,
          List.getLast?_concat]
        rfl
  simp only [ProgressObservation.hasProgress, ProgressWatchdog.increases, hlast, ShowsProgress,
    Bool.or_eq_true, decide_eq_true_eq, or_assoc]

theorem Tells.observe
    (h : Tells signal ((ProgressWatchdog.after settings front).repeats signal) front)
    (hundisturbed : Undisturbed settings signal (ProgressWatchdog.after settings front) o) :
    Tells signal ((ProgressWatchdog.after settings (front ++ [o])).repeats signal)
      (front ++ [o]) := by
  rw [after_concat]
  by_cases hdue : WarningDue settings (ProgressWatchdog.after settings front) o
  · have hwarned := hundisturbed.warned hdue
    rw [(ProgressWatchdog.observe_of_due hdue).1]
    split_ifs at hwarned with hprogress
    · exact tells_of_progress ((hasProgress_iff front o).1 hprogress) hwarned
    · exact h.unsigned (mt (hasProgress_iff front o).2 hprogress) hwarned
  · by_cases hprogress : o.hasProgress ((ProgressWatchdog.after settings front).increases o)
    · rw [(ProgressWatchdog.observe_of_progress hdue hprogress).1]
      exact tells_of_progress ((hasProgress_iff front o).1 hprogress) rfl
    · have hquiet := mt (hasProgress_iff front o).2 hprogress
      rw [(ProgressWatchdog.observe_of_counted hdue hprogress
        (hundisturbed.first hdue hprogress)).1, ProgressWatchdog.counted]
      cases hsignature : signal.signature o with
      | none => exact h.unsigned hquiet hsignature
      | some s => exact h.record hquiet hsignature

theorem tells_after (h : ∀ front o rest, observations = front ++ o :: rest →
      Undisturbed settings signal (ProgressWatchdog.after settings front) o) :
    Tells signal ((ProgressWatchdog.after settings observations).repeats signal) observations := by
  induction observations using List.reverseRecOn with
  | nil =>
      cases signal with
      | toolError => exact tells_empty
      | providerFailure => exact tells_empty
  | append_singleton observations last ih =>
      refine Tells.observe (ih fun front o rest hsplit => ?_) (h observations last [] rfl)
      exact h front o (rest ++ [last]) (by rw [hsplit]; simp)

theorem countsRuns_of_tells
    (h : Tells signal ((ProgressWatchdog.after settings front).repeats signal) front)
    (hundisturbed : Undisturbed settings signal (ProgressWatchdog.after settings front) o) :
    CountsRuns settings signal front o := by
  by_cases hdue : WarningDue settings (ProgressWatchdog.after settings front) o
  · refine ⟨fun count hcounts => ?_, fun _ _ _ hnot => absurd hdue hnot⟩
    exact absurd hcounts.1 (ProgressWatchdog.observe_of_due hdue).2
  by_cases hprogress : o.hasProgress ((ProgressWatchdog.after settings front).increases o)
  · refine ⟨fun count hcounts => ?_, fun _ _ hrun _ => ?_⟩
    · exact absurd hcounts.1 (ProgressWatchdog.observe_of_progress hdue hprogress).2
    · exact absurd ((hasProgress_iff front o).1 hprogress) (latestRun_concat.1 hrun).1
  have hquiet := mt (hasProgress_iff front o).2 hprogress
  have hcounts := (ProgressWatchdog.observe_of_counted hdue hprogress
    (hundisturbed.first hdue hprogress)).2
  constructor
  · intro count hcount
    obtain ⟨hsigned, -, hreached⟩ := (hcounts count).1 hcount
    obtain ⟨s, hs⟩ := Option.isSome_iff_exists.1 hsigned
    rw [ProgressWatchdog.counted, hs, Option.elim_some] at hreached
    have hpos := Repeats.count_record_pos
      ((ProgressWatchdog.after settings front).repeats signal) s
    obtain ⟨n, rfl⟩ : ∃ n, count = n + 1 := ⟨count - 1, by omega⟩
    exact ⟨s, (h.record hquiet hs s n).2 ⟨rfl, by omega⟩⟩
  · intro s hs hrun _
    obtain ⟨n, hn⟩ : ∃ n, max 1 (signal.threshold settings).toNat = n + 1 :=
      ⟨max 1 (signal.threshold settings).toNat - 1, by omega⟩
    rw [hn] at hrun
    obtain ⟨-, hlong⟩ := (h.record hquiet hs s n).1 hrun
    refine ⟨_, (hcounts _).2 ⟨Option.isSome_of_eq_some hs, ?_, rfl⟩⟩
    rw [ProgressWatchdog.counted, hs, Option.elim_some]
    omega

end

/-- In a run whose observations are all undisturbed, every decision about a repeated error or failure
counts its latest run, and is returned where such a run is complete. -/
theorem countsRuns_of_undisturbed (settings : WatchdogSettings) (signal : Signal)
    (observations : List ProgressObservation)
    (hundisturbed : ∀ front o rest, observations = front ++ o :: rest →
      Undisturbed settings signal (ProgressWatchdog.after settings front) o) :
    ∀ front o rest, observations = front ++ o :: rest → CountsRuns settings signal front o := by
  intro front o rest hsplit
  refine countsRuns_of_tells (tells_after fun front' o' rest' hfront => ?_)
    (hundisturbed front o rest hsplit)
  exact hundisturbed front' o' (rest' ++ o :: rest) (by rw [hsplit, hfront]; simp)

def readFails : ProgressObservation :=
  { iteration := 1, toolErrorSignature := some "read: no such file".toList }

def scriptRan : ProgressObservation :=
  { iteration := 1, successfulToolResult := true, successfulExecutionToolResult := true }

theorem countsRuns_of_three_errors :
    CountsRuns {} .toolError [readFails, readFails] readFails := by
  refine countsRuns_of_undisturbed {} .toolError [readFails, readFails, readFails]
    (fun front o rest hsplit => ?_) [readFails, readFails] readFails [] rfl
  have ho : o = readFails := by
    have hmem : o ∈ [readFails, readFails, readFails] := by rw [hsplit]; simp
    simpa using hmem
  have hfront : front = [] ∨ front = [readFails] ∨ front = [readFails, readFails] := by
    match front, hsplit with
    | [], _ => exact Or.inl rfl
    | [_], hsplit =>
        cases hsplit
        exact Or.inr (Or.inl rfl)
    | [_, _], hsplit =>
        cases hsplit
        exact Or.inr (Or.inr rfl)
    | _ :: _ :: _ :: _, hsplit => simp at hsplit
  subst ho
  refine ⟨fun hdue => ?_, fun _ _ => trivial⟩
  obtain rfl | rfl | rfl := hfront
  · revert hdue
    decide
  · revert hdue
    decide
  · revert hdue
    decide

/-- The script is warned of, so that its progress does not end the run of errors: the third error is
reported with a count of three. -/
theorem count_survives_progress :
    ¬ CountsRuns { toolActivityWithoutWriteThreshold := 1 } .toolError
      [readFails, readFails, scriptRan] readFails := by
  intro h
  obtain ⟨signature, hrun⟩ := h.sound 3 ⟨by decide, by decide⟩
  have hlast := (latestRun_concat.1 hrun).2
  obtain ⟨-, m, hm, rfl | hbefore⟩ : _ ∧ ∃ m, 3 = m + 1 ∧ (m = 0 ∨ LatestRun .toolError signature m
    ([readFails, readFails] ++ [scriptRan])) := hlast
  · cases hm
  · exact (latestRun_concat.1 hbefore).1 (by decide)

end OpenStarry.Repetition
