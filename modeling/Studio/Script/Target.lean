import Studio.Script.Arguments
import Studio.Script.State

/-!
# What a call applies to

A call in a chain applies to the entities that a filter in front of it left, else to the entity that
is being visited, else to the track that is bound. What a filter left is used up by the call; a
filter that left nothing makes the call do nothing, and a notice says so.
-/

namespace Studio.Script

open Studio.Session (Entity Snapshot)

/-- One thing a call applies to: the track, and the entity if a filter or a visit named one. -/
structure Target where
  track : Nat
  entity : Option Entity

/-- The target that an entity makes. -/
def Target.ofEntity (entity : Entity) : Target := ⟨entity.track, some entity⟩

namespace State

/-- What a call applies to, and the state in which it does. -/
def targets (call : Call) (state : State) : Except Fault (List Target × State) :=
  match state.filtered with
  | some ⟨collection, []⟩ =>
    .ok ([], state.dropFiltered.notify (.emptyFilter collection call.name))
  | some ⟨_, entities⟩ => .ok (entities.map Target.ofEntity, state.dropFiltered)
  | none =>
    match state.visiting with
    | some binding => .ok ([Target.ofEntity binding.entity], state)
    | none =>
      match state.bound with
      | some track => .ok ([⟨track, none⟩], state)
      | none => .error (.nothingBound call.name)

/-- The track of the entity that is being visited, or the track that is bound. -/
def boundTrack (call : Call) (state : State) : Except Fault Nat :=
  match state.visiting, state.bound with
  | some binding, _ => .ok binding.entity.track
  | none, some track => .ok track
  | none, none => .error (.nothingBound call.name)

/-- Bind a new track. -/
def create (explicit : Option Nat) (state : State) : State :=
  ((state.allocate explicit).dropFiltered).bind (state.newIndex explicit)

/-- Bind a track that the session has or the script created, by its number counted from one. -/
def refer (snapshot : Snapshot) (call : Call) (id : Nat) (state : State) : Except Fault State :=
  if id = 0 then call.invalid "id" (.countedFromOne "ids")
  else if snapshot.containsTrack (id - 1) || state.wasCreated (id - 1) then
    .ok (state.dropFiltered.bind (id - 1))
  else .error (.unresolved call.name (.id id))

/-- Bind the selected track of the session. -/
def referSelected (snapshot : Snapshot) (call : Call) (state : State) : Except Fault State :=
  match snapshot.selectedTrack? with
  | some track => .ok (state.dropFiltered.bind track)
  | none => .error (.unresolved call.name .selection)

end State

end Studio.Script
