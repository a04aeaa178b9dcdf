import Studio.Script.Arguments
import Studio.Script.State

/-!
# Working on collections

Filtering, projecting and storing named collections of entities, which scripts of every capability
can do. In a comparison and in a call on every entity a variable stands for the entity; it bears the
name of one entity of the collection or of the kind.
-/

namespace Studio.Script

open Studio.Session (Entity)

/-- The names of the methods on collections. -/
def collectionMethods : List String := ["filter", "for_each", "map", "store"]

/-- The text without `ending`, if it ends so. -/
def dropEnd (ending text : List Char) : List Char :=
  match Text.dropStart? ending.reverse text.reverse with
  | some rest => rest.reverse
  | none => text

/-- The name of the variable for an entity of a collection: that of the collection in the singular,
and `item` where that would be shorter than two bytes. -/
def itemName (collection : String) : String :=
  let singular := dropEnd "_chain".toList (dropEnd ['s'] collection.toList)
  if Text.byteCount singular < 2 then "item" else String.ofList singular

/-- Whether a name stands for the entity that is visited. -/
def Binding.answersTo (binding : Binding) (name : String) : Bool :=
  name == binding.name || name == binding.entity.kind.name

/-- The part of an entity that a comparison is about. -/
def Predicate.subject? (p : Predicate) (entity : Entity) : Option Value :=
  match entity.field? p.property, p.index with
  | some value, none => some value
  | some (.array items), some index => items[index]?
  | _, _ => none

/-- Whether an entity satisfies a comparison. -/
def Predicate.holdsOf (p : Predicate) (entity : Entity) : Bool :=
  (p.subject? entity).any p.test

/-- The entities that satisfy a comparison. The variable of the comparison must stand for every
entity that is looked at. -/
def matching (call : Call) (p : Predicate) (name : String) :
    List Entity → Except Fault (List Entity)
  | [] => .ok []
  | entity :: rest =>
    match p.root.filter fun root => !(Binding.mk name entity).answersTo root with
    | some root => .error (.unboundVariable call.name root)
    | none =>
      match matching call p name rest with
      | .error e => .error e
      | .ok found => .ok (if p.holdsOf entity then entity :: found else found)

namespace State

/-- The entities of a collection, which must exist. -/
def entities (name : String) (state : State) : Except Fault (List Entity) :=
  match state.collection? name with
  | some entities => .ok entities
  | none => .error (.unknownCollection name)

/-- Filter a collection: the entities that remain are what the next call applies to, and they are
stored. -/
def filter (call : Call) (state : State) : Except Fault State := do
  let collection ← call.string (.inSlot "collection" 0)
  let p ← call.predicate (.inSlot "predicate" 1)
  match p.comparison.isOrdering, p.literal with
  | true, .bool _ => call.invalid "predicate" .unorderedFlags
  | _, _ =>
    if state.visiting.isSome then throw (.nestedIteration call.name)
    else
      let found ← matching call p (itemName collection) (← state.entities collection)
      pure ((state.storeCollection (collection ++ "_filtered") found).setFiltered
        ⟨collection, found⟩).unbind

/-- Store a collection under another name. -/
def store (call : Call) (state : State) : Except Fault State := do
  let name ← call.string (.inSlot "name" 0)
  let source ← call.string (.inSlot "collection" 1)
  let entities ← state.entities source
  pure (state.storeCollection name entities)

end State

/-- The collection and the method of a call that goes through a collection, in either order. -/
def collectionAndFunction (call : Call) : Except Fault (String × Function) := do
  if ((call.positional? 0).bind Value.asFunction?).isSome then
    let function ← call.function (.inSlot "function" 0)
    let collection ← call.string (.inSlot "collection" 1)
    pure (collection, function)
  else
    let collection ← call.string (.inSlot "collection" 0)
    let function ← call.function (.inSlot "function" 1)
    pure (collection, function)

/-- The property that a name projects to; it may be written as that of a getter. -/
def projectedProperty (name : String) : String :=
  match Text.dropStart? "get_".toList name.toList with
  | some property => String.ofList property
  | none => name

/-- An entity with a property of it as its value. -/
def project (property : String) (entity : Entity) : Entity :=
  { entity with
    fields := Fields.insert "value" ((entity.field? property).getD .none) entity.fields }

end Studio.Script
