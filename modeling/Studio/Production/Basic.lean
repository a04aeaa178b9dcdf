import Studio.Delivery.Merge
import Studio.Music.Fault
import Studio.Provider.Basic
import Studio.Script.Execution

/-!
# Productions

What a generator contributes to a request, how it came about, and why there may be none.
-/

namespace Studio

/-- How a production came about. -/
structure Diagnostics where
  capability : Capability
  /-- The name of the provider. -/
  provider : String
  model : String
  /-- The script as it was received. -/
  script : String
  usage : Option Provider.Usage := none
  notices : List Script.Notice := []
  /-- Whether the script came piece by piece. -/
  streamed : Bool := false
  /-- Whether a cancellation cut the script short. -/
  cancelled : Bool := false

/-- What a generator contributes: actions, the notes that they describe, and how it came about. -/
structure Production where
  capability : Capability
  actions : List Action
  notes : List Music.Note
  diagnostics : Diagnostics

namespace Production

/-- What a production contributes to a session. -/
def contribution (production : Production) : Contribution :=
  ⟨production.capability, production.actions, production.notes⟩

/-- Why there is no production. -/
inductive Fault where
  | provider (fault : Provider.Fault)
  | script (text : String) (fault : Script.Fault)
  | notes (fault : Music.Fault)
  | cancelled

/-- The sentence about a fault of a capability's generator. -/
def Fault.message (capability : Capability) : Fault → String
  | .provider fault => capability.name ++ ": provider call failed: " ++ fault.message
  | .script _ fault => capability.name ++ ": DSL rejected: " ++ fault.message
  | .notes fault => capability.name ++ ": content could not be rendered: " ++ fault.message
  | .cancelled => capability.name ++ ": cancelled"

/-- Whether a fault is a cancellation. -/
def Fault.isCancellation : Fault → Bool
  | .cancelled => true
  | _ => false

/-- A report that a generator gave no production. -/
structure Failure where
  capability : Capability
  message : String
  cancelled : Bool
deriving DecidableEq, Repr

/-- The report on a fault. -/
def Failure.ofFault (capability : Capability) (fault : Fault) : Failure :=
  ⟨capability, fault.message capability, fault.isCancellation⟩

/-- The report on a generator that broke down. -/
def Failure.breakdown (capability : Capability) : Failure :=
  ⟨capability, capability.name ++ ": generator panicked", false⟩

end Production

end Studio
