import OpenStarry.Lib.SortKeys

/-!
# Elevated actions

The material side effects an approval is allowed to authorize, the payload they are reviewed under,
and the fingerprint of that payload. The payload determines the action, and so does the fingerprint
as far as no two texts have one digest.
-/

namespace OpenStarry.Elevation

open Lib Text

inductive ApprovalDisplayKind where
  | delete | modify | create | runCommand | runCode | networkAccess | pathAccess
  | pluginPermission | sensitiveOperation
  deriving DecidableEq, Repr

def ApprovalDisplayKind.text : ApprovalDisplayKind → String
  | delete => "delete"
  | modify => "modify"
  | create => "create"
  | runCommand => "run_command"
  | runCode => "run_code"
  | networkAccess => "network_access"
  | pathAccess => "path_access"
  | pluginPermission => "plugin_permission"
  | sensitiveOperation => "sensitive_operation"

inductive BackupState where
  | notApplicable | enabled | disabled | unavailableRequiresConfirmation
  deriving DecidableEq, Repr

def BackupState.text : BackupState → String
  | notApplicable => "not_applicable"
  | enabled => "enabled"
  | disabled => "disabled"
  | unavailableRequiresConfirmation => "unavailable_requires_confirmation"

inductive SandboxPermissionIntent where
  | useDefault | requireEscalated
  deriving DecidableEq, Repr

def SandboxPermissionIntent.text : SandboxPermissionIntent → String
  | useDefault => "use_default"
  | requireEscalated => "require_escalated"

structure ApprovalDisplay where
  kind : ApprovalDisplayKind
  target : Str
  destructive : Bool
  irreversible : Bool
  backupState : BackupState

structure ElevationAction where
  toolName : Str
  actionKind : Str
  argv : List Str
  cwd : Str
  sandboxPermissions : SandboxPermissionIntent
  justification : Str
  targetPaths : List (Str × Str) := []
  networkTargets : List Str := []
  contentDigest : Option Str := none
  contentLength : Option Nat := none
  riskMarkers : List Str := []
  tty : Bool := false
  prefixRule : Option (List Str) := none
  display : Option ApprovalDisplay := none

def texts (xs : List Str) : Json := .arr (xs.map .str)

def ApprovalDisplay.canonicalPayload (display : ApprovalDisplay) : Dict :=
  [("kind".toList, .str display.kind.text.toList),
    ("target".toList, .str display.target),
    ("destructive".toList, .bool display.destructive),
    ("irreversible".toList, .bool display.irreversible),
    ("backup_state".toList, .str display.backupState.text.toList)]

namespace ElevationAction

/-- The fields every payload has. -/
def payloadFields (action : ElevationAction) : Dict :=
  [("tool_name".toList, .str action.toolName),
    ("action_kind".toList, .str action.actionKind),
    ("argv".toList, texts action.argv),
    ("cwd".toList, .str action.cwd),
    ("sandbox_permissions".toList, .str action.sandboxPermissions.text.toList),
    ("justification".toList, .str action.justification),
    ("target_paths".toList, .arr (action.targetPaths.map fun item => texts [item.1, item.2])),
    ("network_targets".toList, texts action.networkTargets),
    ("content_digest".toList, (action.contentDigest.map .str).getD .null),
    ("content_length".toList, (action.contentLength.map fun n => .num (.ofNat n)).getD .null),
    ("risk_markers".toList, texts action.riskMarkers),
    ("tty".toList, .bool action.tty),
    ("prefix_rule".toList, (action.prefixRule.map texts).getD .null)]

def canonicalPayload (action : ElevationAction) : Dict :=
  match action.display with
  | none => action.payloadFields
  | some display => action.payloadFields ++ [("display".toList, .obj display.canonicalPayload)]

/-- `fingerprint`, for the digest `sha256` of an encoded text. -/
def fingerprint (sha256 : Str → Str) (action : ElevationAction) : Str :=
  sha256 (Json.dumps (Json.sortKeys (.obj action.canonicalPayload)))

end ElevationAction

/-! ### The payload determines the action -/

theorem ApprovalDisplayKind.text_injective : Function.Injective ApprovalDisplayKind.text := by
  intro a b h
  cases a <;> cases b <;> first | rfl | exact absurd h (by decide)

theorem BackupState.text_injective : Function.Injective BackupState.text := by
  intro a b h
  cases a <;> cases b <;> first | rfl | exact absurd h (by decide)

theorem SandboxPermissionIntent.text_injective :
    Function.Injective SandboxPermissionIntent.text := by
  intro a b h
  cases a <;> cases b <;> first | rfl | exact absurd h (by decide)

theorem texts_injective : Function.Injective texts := by
  intro a b h
  rw [texts, texts, Json.arr.injEq] at h
  exact List.map_injective_iff.mpr (fun _ _ => Json.str.inj) h

theorem texts_flat (xs : List Str) : (texts xs).Flat := by
  rw [texts, Json.Flat, Json.flatItems_iff]
  intro x hx
  obtain ⟨s, _, rfl⟩ := List.mem_map.mp hx
  trivial

theorem getD_null_injective {α : Type} {f : α → Json} (hf : Function.Injective f)
    (hnull : ∀ a, f a ≠ .null) : Function.Injective fun o : Option α => (o.map f).getD .null := by
  intro a b h
  cases a with
  | none =>
      cases b with
      | none => rfl
      | some b => exact absurd h.symm (hnull b)
  | some a =>
      cases b with
      | none => exact absurd h (hnull a)
      | some b => exact congrArg some (hf h)

namespace ApprovalDisplay

theorem flat_fields (display : ApprovalDisplay) :
    ∀ p ∈ display.canonicalPayload, p.2.Flat := by
  simp [canonicalPayload, Json.Flat]

theorem nodup_keys (display : ApprovalDisplay) :
    (display.canonicalPayload.map Prod.fst).Nodup := by
  have hkeys : display.canonicalPayload.map Prod.fst = ["kind".toList, "target".toList,
      "destructive".toList, "irreversible".toList, "backup_state".toList] := rfl
  rw [hkeys]
  decide

theorem canonicalPayload_injective : Function.Injective canonicalPayload := by
  rintro ⟨kind, target, destructive, irreversible, backup⟩
    ⟨kind', target', destructive', irreversible', backup'⟩ h
  simp only [canonicalPayload, List.cons.injEq, Prod.mk.injEq, Json.str.injEq, Json.bool.injEq,
    true_and, and_true, String.toList_inj] at h
  obtain ⟨hkind, htarget, hdestructive, hirreversible, hbackup⟩ := h
  rw [ApprovalDisplayKind.text_injective hkind, htarget, hdestructive, hirreversible,
    BackupState.text_injective hbackup]

end ApprovalDisplay

namespace ElevationAction

theorem flat_fields (action : ElevationAction) : ∀ p ∈ action.payloadFields, p.2.Flat := by
  have hpaths : (Json.arr (action.targetPaths.map fun item => texts [item.1, item.2])).Flat := by
    rw [Json.Flat, Json.flatItems_iff]
    intro x hx
    obtain ⟨item, _, rfl⟩ := List.mem_map.mp hx
    exact texts_flat _
  have hdigest : ((action.contentDigest.map Json.str).getD .null).Flat := by
    cases action.contentDigest <;> trivial
  have hlength : ((action.contentLength.map fun n => Json.num (.ofNat n)).getD .null).Flat := by
    cases action.contentLength <;> trivial
  have hrule : ((action.prefixRule.map texts).getD .null).Flat := by
    cases action.prefixRule with
    | none => trivial
    | some rule => exact texts_flat rule
  simp only [payloadFields, List.forall_mem_cons]
  exact ⟨trivial, trivial, texts_flat _, trivial, trivial, trivial, hpaths, texts_flat _, hdigest,
    hlength, texts_flat _, trivial, hrule, fun _ h => absurd h List.not_mem_nil⟩

theorem keys_payloadFields (action : ElevationAction) : action.payloadFields.map Prod.fst =
    ["tool_name".toList, "action_kind".toList, "argv".toList, "cwd".toList,
      "sandbox_permissions".toList, "justification".toList, "target_paths".toList,
      "network_targets".toList, "content_digest".toList, "content_length".toList,
      "risk_markers".toList, "tty".toList, "prefix_rule".toList] := rfl

theorem nodup_keys (action : ElevationAction) :
    (action.canonicalPayload.map Prod.fst).Nodup := by
  rw [canonicalPayload]
  cases action.display with
  | none =>
      simp only [keys_payloadFields]
      decide
  | some display =>
      simp only [List.map_append, keys_payloadFields, List.map_cons, List.map_nil]
      decide

theorem proper_payload (action : ElevationAction) :
    (Json.obj action.canonicalPayload).Proper := by
  refine ⟨action.nodup_keys, ?_⟩
  rw [Json.properFields_iff]
  have hfields : ∀ p ∈ action.payloadFields, p.2.Proper := fun p hp =>
    Json.proper_of_flat p.2 (action.flat_fields p hp)
  rw [canonicalPayload]
  cases action.display with
  | none => exact hfields
  | some display =>
      intro p hp
      rcases List.mem_append.mp hp with hp | hp
      · exact hfields p hp
      · rw [List.mem_singleton.mp hp]
        exact ⟨display.nodup_keys, Json.properFields_iff.mpr fun p hp =>
          Json.proper_of_flat p.2 (display.flat_fields p hp)⟩

theorem payloadFields_injective {a b : ElevationAction} (h : a.payloadFields = b.payloadFields)
    (hdisplay : a.display = b.display) : a = b := by
  have hpaths : Function.Injective fun item : Str × Str => texts [item.1, item.2] := by
    intro x y hxy
    have hlist := texts_injective hxy
    rw [List.cons.injEq, List.cons.injEq] at hlist
    exact Prod.ext hlist.1 hlist.2.1
  have hdigest : Function.Injective fun o : Option Str => (o.map Json.str).getD .null :=
    getD_null_injective (fun _ _ => Json.str.inj) (by simp)
  have hlength : Function.Injective fun o : Option Nat =>
      (o.map fun n => Json.num (.ofNat n)).getD .null :=
    getD_null_injective (fun m n hmn => Number.ofNat_injective (Json.num.inj hmn)) (by simp)
  have hrule : Function.Injective fun o : Option (List Str) => (o.map texts).getD .null :=
    getD_null_injective texts_injective (by simp [texts])
  simp only [payloadFields, List.cons.injEq, Prod.mk.injEq, Json.str.injEq, Json.bool.injEq,
    Json.arr.injEq, true_and, and_true, String.toList_inj] at h
  obtain ⟨htool, hkind, hargv, hcwd, hintent, hjustification, htargets, hnetwork, hcontent, hsize,
    hrisk, htty, hbegins⟩ := h
  cases a
  cases b
  simp only at *
  rw [htool, hkind, texts_injective hargv, hcwd, SandboxPermissionIntent.text_injective hintent,
    hjustification, List.map_injective_iff.mpr hpaths htargets, texts_injective hnetwork,
    hdigest hcontent, hlength hsize, texts_injective hrisk, htty, hrule hbegins, hdisplay]

theorem eq_of_sortKeys {a b : ElevationAction}
    (h : Json.sortKeys (.obj a.canonicalPayload) = Json.sortKeys (.obj b.canonicalPayload)) :
    a = b := by
  have hfields : a.payloadFields = b.payloadFields := by
    have hkeys : a.payloadFields.map Prod.fst = b.payloadFields.map Prod.fst := rfl
    have hbehind (action : ElevationAction) :
        ∃ more, action.canonicalPayload = action.payloadFields ++ more := by
      rw [canonicalPayload]
      cases action.display with
      | none => exact ⟨[], (List.append_nil _).symm⟩
      | some display => exact ⟨_, rfl⟩
    obtain ⟨more, hmore⟩ := hbehind a
    obtain ⟨more', hmore'⟩ := hbehind b
    have ha := a.nodup_keys
    have hb := b.nodup_keys
    rw [hmore] at ha h
    rw [hmore'] at hb h
    exact Json.eq_of_sortKeys more more' hkeys a.flat_fields b.flat_fields ha hb h
  apply payloadFields_injective hfields
  have hlookup := Json.lookup_of_sortKeys a.nodup_keys b.nodup_keys h "display".toList
  have hmissing (action : ElevationAction) :
      action.payloadFields.lookup "display".toList = none := by
    simp [payloadFields, List.lookup_cons]
  simp only [canonicalPayload] at hlookup
  cases hdisplay : a.display with
  | none =>
      cases hdisplay' : b.display with
      | none => rfl
      | some display' =>
          rw [hdisplay, hdisplay'] at hlookup
          simp only [List.lookup_append, hmissing] at hlookup
          exact absurd hlookup (by simp)
  | some display =>
      cases hdisplay' : b.display with
      | none =>
          rw [hdisplay, hdisplay'] at hlookup
          simp only [List.lookup_append, hmissing] at hlookup
          exact absurd hlookup (by simp)
      | some display' =>
          rw [hdisplay, hdisplay'] at hlookup
          simp only [List.lookup_append, hmissing, Option.none_or, List.lookup_cons_self,
            Option.map_some, Option.some.injEq] at hlookup
          have hkeys : display.canonicalPayload.map Prod.fst =
            display'.canonicalPayload.map Prod.fst := rfl
          have hpayload : display.canonicalPayload = display'.canonicalPayload :=
            Json.eq_of_sortKeys [] [] hkeys display.flat_fields
              display'.flat_fields (by simpa using display.nodup_keys)
              (by simpa using display'.nodup_keys) (by simpa using hlookup)
          rw [ApprovalDisplay.canonicalPayload_injective hpayload]

theorem fingerprint_injective {sha256 : Str → Str} (hsha : Function.Injective sha256) :
    Function.Injective (fingerprint sha256) := by
  intro a b h
  have hdumps := hsha h
  exact eq_of_sortKeys (Json.dumps_injective (Json.proper_sortKeys _ a.proper_payload)
    (Json.proper_sortKeys _ b.proper_payload) hdumps)

end ElevationAction

end OpenStarry.Elevation
