import Studio.Methods.Chords
import Studio.Methods.Drums
import Studio.Methods.Tracks

/-!
# Methods by capability

Every capability has methods of its own; a script of one capability cannot call those of another.
-/

namespace Studio.Methods

open Studio.Script
open Studio.Session (Snapshot)

/-- The names of the methods of a capability. -/
def names : Capability → List String
  | .daw => Tracks.names
  | .arranger => Chords.names
  | .drummer => Drums.names

/-- Carry out a call to a method of a capability. -/
def apply (capability : Capability) (snapshot : Snapshot) (call : Call) (state : State) :
    Except Fault State :=
  match capability with
  | .daw => Tracks.apply snapshot call state
  | .arranger => Chords.apply call state
  | .drummer => Drums.apply call state

end Studio.Methods
