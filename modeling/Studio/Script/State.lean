import Studio.Action
import Studio.Script.Fault
import Studio.Session.Entity

/-!
# The state of a running script

What a script has produced so far, and what its next call may refer to: the track that is bound, the
entities that the last filter left, the entity that is being visited, and the named collections.
A new track gets the number that is asked for, or the one that `counter` shows;
`nextIndex_le_counter` says that numbers that are taken later lie behind it.
-/

namespace Studio.Script

open Studio.Session (Entity Snapshot)

/-- Something a script did that its author may not have meant. -/
inductive Notice where
  /-- A call had nothing to apply to, because a filter left nothing. -/
  | emptyFilter (collection call : String)
  /-- A script that was received in parts broke off behind so many actions. -/
  | truncated (emitted : Nat) (reason : String)
deriving DecidableEq, Repr

/-- A notice as an object. -/
def Notice.toJson : Notice → Json
  | .emptyFilter collection call =>
    .object [("notice", .string "empty_filter"), ("collection", .string collection),
      ("call", .string call)]
  | .truncated emitted reason =>
    .object [("notice", .string "truncated"), ("emitted", .nat emitted), ("reason", .string reason)]

/-- The entity that is being visited, and the name of the variable that stands for it. -/
structure Binding where
  name : String
  entity : Entity

/-- The entities that a filter left of a collection, in the order of the collection. -/
structure Filtered where
  collection : String
  entities : List Entity

/-- The state of a running script. -/
structure State where
  /-- The track that is bound. -/
  bound : Option Nat := none
  /-- The number of the next track that is numbered automatically. -/
  counter : Nat
  /-- The numbers of the tracks that the script created. -/
  created : List Nat := []
  collections : List (String × List Entity)
  filtered : Option Filtered := none
  visiting : Option Binding := none
  actions : List Action := []
  notices : List Notice := []

namespace State

/-- The state before the first statement. -/
def start (snapshot : Snapshot) : State :=
  { counter := snapshot.nextTrackIndex
    collections := Fields.ofList [("tracks", snapshot.trackEntities),
      ("clips", snapshot.clipEntities)] }

/-- Bind a track. -/
def bind (track : Nat) (state : State) : State :=
  { state with bound := some track }

/-- Bind no track. -/
def unbind (state : State) : State :=
  { state with bound := none }

/-- The number of a new track: the one that is asked for, or the next one. -/
def newIndex (explicit : Option Nat) (state : State) : Nat :=
  explicit.getD state.counter

/-- Take a number for a new track. Later numbers lie behind it. -/
def allocate (explicit : Option Nat) (state : State) : State :=
  { state with
    counter := max state.counter (Number.nextIndex (state.newIndex explicit))
    created := state.newIndex explicit :: state.created }

/-- Whether the script created the track. -/
def wasCreated (track : Nat) (state : State) : Bool :=
  state.created.contains track

/-- The entities of a collection. -/
def collection? (name : String) (state : State) : Option (List Entity) :=
  Fields.get? name state.collections

/-- Store a collection under a name. -/
def storeCollection (name : String) (entities : List Entity) (state : State) : State :=
  { state with collections := Fields.insert name entities state.collections }

/-- Keep what a filter left for the next call. -/
def setFiltered (filtered : Filtered) (state : State) : State :=
  { state with filtered := some filtered }

/-- Forget what a filter left. -/
def dropFiltered (state : State) : State :=
  { state with filtered := none }

/-- Visit an entity. -/
def visit (binding : Binding) (state : State) : State :=
  { state with visiting := some binding }

/-- Visit no entity. -/
def leave (state : State) : State :=
  { state with visiting := none }

/-- Add an action. -/
def emit (action : Action) (state : State) : State :=
  { state with actions := state.actions ++ [action] }

/-- Add actions. -/
def emitAll (actions : List Action) (state : State) : State :=
  { state with actions := state.actions ++ actions }

/-- Add a notice. -/
def notify (notice : Notice) (state : State) : State :=
  { state with notices := state.notices ++ [notice] }

/-- What a statement bound, filtered or visited ends with it. -/
def endStatement (state : State) : State :=
  { state with bound := none, filtered := none, visiting := none }

/-- Numbers that are taken later lie behind a number that is taken, up to the largest index. -/
theorem nextIndex_le_counter (explicit : Option Nat) (state : State) :
    Number.nextIndex (state.newIndex explicit) ≤ (state.allocate explicit).counter :=
  Nat.le_max_right _ _

end State

end Studio.Script
