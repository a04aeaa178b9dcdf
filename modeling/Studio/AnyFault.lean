import Studio.Config.Fault
import Studio.Request.Fault

/-!
# Faults of the library

The faults of all parts in one type, for callers that do not care which part failed.
-/

namespace Studio

/-- A fault of any part of the library. -/
inductive AnyFault where
  | script (fault : Script.Fault)
  | music (fault : Music.Fault)
  | provider (fault : Provider.Fault)
  | production (capability : Capability) (fault : Production.Fault)
  | request (fault : Request.Fault)
  | config (fault : Config.Fault)

/-- The sentence about a fault, with the part that it comes from; that about a request stands for
itself. -/
def AnyFault.message : AnyFault → String
  | .script fault => "interpreter error: " ++ fault.message
  | .music fault => "theory error: " ++ fault.message
  | .provider fault => "provider error: " ++ fault.message
  | .production capability fault => "generator error: " ++ fault.message capability
  | .request fault => fault.message
  | .config fault => "configuration error: " ++ fault.message

end Studio
