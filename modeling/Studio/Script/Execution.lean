import Studio.Methods.Basic
import Studio.Payload.Basic
import Studio.Script.Collection
import Studio.Script.Parser

/-!
# Carrying out scripts

`interpret` reads a script and carries it out: its statements one after another, the calls of each
in order. A fault anywhere discards everything, and a script that makes no actions is a fault.
`interpretReceived` does the same with the lines of a script that have been received in full.
-/

namespace Studio.Script

open Studio.Session (Entity Snapshot)

variable (capability : Capability) (snapshot : Snapshot)

/-- The fault of a call to a method that the capability does not have. -/
def unknownMethod {α : Type} (call : Call) : Except Fault α :=
  .error (.unknownMethod capability call.name)

/-- Carry out a call on every entity. -/
def visitAll (call : Call) (function : Function) (name : String) :
    List Entity → State → Except Fault State
  | [], state => .ok state
  | entity :: rest, state =>
    match function.receiver.filter fun root => !(Binding.mk name entity).answersTo root with
    | some root => .error (.unboundVariable call.name root)
    | none =>
      match Methods.apply capability snapshot function.call
          ((state.visit ⟨name, entity⟩).bind entity.track) with
      | .error e => .error e
      | .ok state => visitAll call function name rest (state.leave.unbind)

/-- Carry out a method of the capability on every entity of a collection; the entities can be kept
under the name of the collection. -/
def forEach (call : Call) (keep : Bool) (state : State) : Except Fault State := do
  let (collection, function) ← collectionAndFunction call
  if state.visiting.isSome then throw (.nestedIteration call.name)
  else if collectionMethods.contains function.call.name then
    throw (.nestedIteration function.call.name)
  else if !(Methods.names capability).contains function.call.name then
    unknownMethod capability function.call
  else
    let entities ← state.entities collection
    -- What a filter in front left is for another call, not for those on the entities.
    let state ← visitAll capability snapshot call function (itemName collection) entities
      state.dropFiltered
    pure (if keep then state.storeCollection (collection ++ "_mapped") entities else state)

/-- Go through a collection with a method, or project its entities to a property. -/
def mapCollection (call : Call) (state : State) : Except Fault State := do
  let (collection, function) ← collectionAndFunction call
  if function.written || (Methods.names capability).contains function.call.name then
    forEach capability snapshot call true state
  else
    let entities ← state.entities collection
    pure (state.dropFiltered.unbind.storeCollection (collection ++ "_mapped")
      (entities.map (project (projectedProperty function.call.name))))

/-- Carry out a call. -/
def dispatch (call : Call) (state : State) : Except Fault State :=
  match call.name with
  | "filter" => state.filter call
  | "for_each" => forEach capability snapshot call false state
  | "map" => mapCollection capability snapshot call state
  | "store" => state.store call
  | name =>
    if (Methods.names capability).contains name then Methods.apply capability snapshot call state
    else unknownMethod capability call

/-- Carry out calls one after another. -/
def runCalls : List Call → State → Except Fault State
  | [], state => .ok state
  | call :: rest, state =>
    match dispatch capability snapshot call state with
    | .error e => .error e
    | .ok state => runCalls rest state

/-- Carry out a statement. -/
def runStatement (statement : Statement) (state : State) : Except Fault State :=
  (runCalls capability snapshot statement.calls state).map State.endStatement

/-- Carry out statements one after another. -/
def runStatements : Program → State → Except Fault State
  | [], state => .ok state
  | statement :: rest, state =>
    match runStatement capability snapshot statement state with
    | .error e => .error e
    | .ok state => runStatements rest state

/-- Carry out a script, which must have a statement. -/
def execute (program : Program) : Except Fault State :=
  if program.isEmpty then .error .emptyText
  else runStatements capability snapshot program (State.start snapshot)

/-- What a script amounts to. -/
structure Interpretation where
  actions : List Action
  notices : List Notice

/-- What a script that was read amounts to. -/
def interpretProgram (program : Program) : Except Fault Interpretation := do
  let state ← execute capability snapshot program
  if state.actions.isEmpty then throw .noActions
  else pure ⟨state.actions, state.notices⟩

/-- What the text of a script amounts to. -/
def interpret (source : String) : Except Fault Interpretation := do
  interpretProgram capability snapshot (← parse source)

/-- The lines of a text that have been received in full: all in front of the last line end. -/
def receivedLines? (source : String) : Option String :=
  match Text.splitOnce '\n' source.toList.reverse with
  | some (_, before) => some (String.ofList before.reverse)
  | none => none

/-- The actions of the lines that have been received in full, unless they fail or hold no
statement. -/
def interpretReceived (source : String) : Option (List Action) :=
  match receivedLines? source with
  | none => none
  | some lines =>
    match parse lines with
    | .error _ => none
    | .ok program =>
      match execute capability snapshot program with
      | .error _ => none
      | .ok state => some state.actions

/-- Two runs of calls are one run, the second in the state that the first leaves. -/
theorem runCalls_append (first second : List Call) (state : State) :
    runCalls capability snapshot (first ++ second) state =
      (runCalls capability snapshot first state).bind
        (runCalls capability snapshot second) := by
  induction first generalizing state with
  | nil => rfl
  | cons call rest ih =>
    simp only [List.cons_append, runCalls]
    cases dispatch capability snapshot call state with
    | error e => rfl
    | ok state => exact ih state

/-- Two runs of statements are one run, the second in the state that the first leaves. -/
theorem runStatements_append (first second : Program) (state : State) :
    runStatements capability snapshot (first ++ second) state =
      (runStatements capability snapshot first state).bind
        (runStatements capability snapshot second) := by
  induction first generalizing state with
  | nil => rfl
  | cons statement rest ih =>
    simp only [List.cons_append, runStatements]
    cases runStatement capability snapshot statement state with
    | error e => rfl
    | ok state => exact ih state

end Studio.Script
