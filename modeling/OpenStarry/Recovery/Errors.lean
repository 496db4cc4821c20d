import OpenStarry.Lib.Text

/-!
# Errors of a recovery operation

Errors carry a stable code, or say that the state on disk can no longer be proven.
-/

namespace OpenStarry.Recovery

inductive ErrorKind where
  | recovery (stableCode : String)
  | atomicStateUnknown
  | configChanged
  | destinationExists
  | workspaceOverride
  | osError
  deriving DecidableEq

structure RecoveryError where
  kind : ErrorKind
  message : String
  deriving DecidableEq

def unknown (message : String) : RecoveryError := ⟨.atomicStateUnknown, message⟩

end OpenStarry.Recovery
