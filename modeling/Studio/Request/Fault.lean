import Studio.Production.Basic
import Studio.Text.Blank

/-!
# Faults of requests

Why a request leads to no actions, and the sentence that says so.
-/

namespace Studio.Request

open Production (Failure)

/-- Why a request leads to no actions. -/
inductive Fault where
  /-- The request asks for nothing that any generator can do. -/
  | outOfScope
  | classification (fault : Provider.Fault)
  /-- Every generator failed. -/
  | allFailed (failures : List Failure)
  | cancelled
  | noGenerator (capability : Capability)
deriving DecidableEq, Repr

namespace Fault

/-- The sentence about a fault. -/
def message : Fault → String
  | .outOfScope => "this request is outside what I can help with"
  | .classification fault => "request classification failed: " ++ fault.message
  | .allFailed failures =>
    "every generator failed: " ++ Text.joinWith "; " (failures.map Failure.message)
  | .cancelled => "request cancelled"
  | .noGenerator capability => "no generator registered for " ++ capability.name

/-- Whether a fault is an answer for the user, and not an internal one. -/
def isUserFacing : Fault → Bool
  | .outOfScope => true
  | _ => false

end Fault

end Studio.Request
