import Studio.Json.Fault

/-!
# Faults of providers

Why a provider of texts gives no answer, and the sentence that says so.
-/

namespace Studio.Provider

/-- Why a call of a provider fails. -/
inductive Fault where
  | missingKey
  | unreachable
  | status (code : Nat) (body : String)
  | remote (report : String)
  | malformed (what : String)
  | unscripted (key : String)
  | scripted (report : String)
  | json (source : String) (fault : Json.Fault)
  | shape
deriving DecidableEq, Repr

/-- The sentence about a fault. -/
def Fault.message : Fault → String
  | .missingKey => "no API key configured (set CADENZA_API_KEY or OPENAI_API_KEY)"
  | .unreachable => "http error: the service cannot be reached"
  | .status code body =>
    "provider returned status " ++ Number.intText code ++ ": " ++ body
  | .remote report => "provider error: " ++ report
  | .malformed what => "malformed provider response: " ++ what
  | .unscripted key => "no scripted response for `" ++ key ++ "`"
  | .scripted report => "scripted failure: " ++ report
  | .json source fault => fault.message source.toList
  | .shape => "the response does not have the shape of one"

end Studio.Provider
