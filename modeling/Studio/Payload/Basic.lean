import Studio.Capability
import Studio.Payload.Chords
import Studio.Payload.Drums

/-!
# Payloads

The notes that the actions of a capability describe. Structural actions describe none.
-/

namespace Studio

/-- The notes that actions of a capability describe. -/
def payload : Capability → List Action → Except Music.Fault (List Music.Note)
  | .daw, _ => .ok []
  | .arranger, actions => Payload.harmony actions
  | .drummer, actions => Payload.percussion actions

end Studio
