import Studio.Proofs.Methods.Effects
import Studio.Script.Execution

/-!
# What it takes that calls succeed

What a call comes down to when it succeeds: a filter (`filter_eq_ok`), a collection that is stored
(`store_eq_ok`), gone through (`exists_of_forEach`) or mapped (`exists_of_mapCollection`), and calls
and statements one after another. What is proved about scripts that succeed starts from here.
-/

namespace Studio.Script

open Studio.Session (Entity Snapshot)

variable {capability : Capability} {snapshot : Snapshot} {call : Call} {state next : State}

/-- The entities under a name are those of the collection. -/
theorem entities_eq_ok {name : String} {state : State} {entities : List Entity} :
    state.entities name = .ok entities ↔ state.collection? name = some entities := by
  unfold State.entities
  split
  · next h => simp [h]
  · next h => simp [h]

/-! ### Collections -/

/-- What a filter comes down to: its arguments, the entities of the collection, and those of them
that it leaves. -/
structure Filters (call : Call) (state : State) (collection : String) (p : Predicate)
    (entities found : List Entity) : Prop where
  source : call.string (.inSlot "collection" 0) = .ok collection
  predicate : call.predicate (.inSlot "predicate" 1) = .ok p
  orderly : p.comparison.isOrdering = true → ∀ flag, p.literal ≠ .bool flag
  outside : state.visiting = none
  there : state.collection? collection = some entities
  left : matching call p (itemName collection) entities = .ok found

/-- The state in which a filter leaves entities to the next call. -/
def State.filtering (collection : String) (found : List Entity) (state : State) : State :=
  ((state.storeCollection (collection ++ "_filtered") found).setFiltered
    ⟨collection, found⟩).unbind

/-- A filter succeeds just when its parts are in order, and changes no more than what it leaves. -/
theorem filter_eq_ok : state.filter call = .ok next ↔ ∃ collection p entities found,
    Filters call state collection p entities found ∧ state.filtering collection found = next := by
  constructor
  · intro h
    obtain ⟨collection, hsource, h⟩ := bind_eq_ok.1 h
    obtain ⟨p, hp, h⟩ := bind_eq_ok.1 h
    split at h
    · simp at h
    · next horderly =>
      split at h
      · simp at h
      · next houtside =>
        obtain ⟨entities, hthere, h⟩ := bind_eq_ok.1 h
        obtain ⟨found, hleft, h⟩ := bind_eq_ok.1 h
        exact ⟨collection, p, entities, found, {
          source := hsource
          predicate := hp
          orderly := fun h flag hflag => horderly flag h hflag
          outside := by simpa using houtside
          there := entities_eq_ok.1 hthere
          left := hleft }, Except.ok.inj h⟩
  · rintro ⟨collection, p, entities, found, filters, rfl⟩
    refine bind_eq_ok.2 ⟨collection, filters.source, bind_eq_ok.2 ⟨p, filters.predicate, ?_⟩⟩
    split
    · next horder hflag => exact absurd hflag (filters.orderly horder _)
    · rw [if_neg (by simp [filters.outside])]
      exact bind_eq_ok.2 ⟨entities, entities_eq_ok.2 filters.there,
        bind_eq_ok.2 ⟨found, filters.left, rfl⟩⟩

/-- Storing copies a collection to another name. -/
theorem store_eq_ok : state.store call = .ok next ↔ ∃ name source entities,
    call.string (.inSlot "name" 0) = .ok name ∧
      call.string (.inSlot "collection" 1) = .ok source ∧
      state.collection? source = some entities ∧ state.storeCollection name entities = next := by
  constructor
  · intro h
    obtain ⟨name, hname, h⟩ := bind_eq_ok.1 h
    obtain ⟨source, hsource, h⟩ := bind_eq_ok.1 h
    obtain ⟨entities, hentities, h⟩ := bind_eq_ok.1 h
    exact ⟨name, source, entities, hname, hsource, entities_eq_ok.1 hentities, Except.ok.inj h⟩
  · rintro ⟨name, source, entities, hname, hsource, hentities, rfl⟩
    exact bind_eq_ok.2 ⟨name, hname, bind_eq_ok.2 ⟨source, hsource,
      bind_eq_ok.2 ⟨entities, entities_eq_ok.2 hentities, rfl⟩⟩⟩

/-- A visit: the entity is bound, the method runs, and the binding is dropped again. -/
theorem visitAll_cons_eq_ok {function : Function} {name : String} {entity : Entity}
    {rest : List Entity} :
    visitAll capability snapshot call function name (entity :: rest) state = .ok next ↔
      (function.receiver.filter fun root => !(Binding.mk name entity).answersTo root) = none ∧
      ∃ after, Methods.apply capability snapshot function.call
          ((state.visit ⟨name, entity⟩).bind entity.track) = .ok after ∧
        visitAll capability snapshot call function name rest after.leave.unbind = .ok next := by
  rw [visitAll]
  cases function.receiver.filter fun root => !(Binding.mk name entity).answersTo root with
  | some root => simp
  | none =>
      cases Methods.apply capability snapshot function.call
        ((state.visit ⟨name, entity⟩).bind entity.track) <;> simp

/-- A loop that came through has walked through its collection, and stores it if it is to be
kept. -/
theorem exists_of_forEach {keep : Bool}
    (h : forEach capability snapshot call keep state = .ok next) :
    ∃ collection function entities visited,
      collectionAndFunction call = .ok (collection, function) ∧
      state.collection? collection = some entities ∧
      visitAll capability snapshot call function (itemName collection) entities
        state.dropFiltered = .ok visited ∧
      next = if keep then visited.storeCollection (collection ++ "_mapped") entities
        else visited := by
  obtain ⟨⟨collection, function⟩, hfunction, h⟩ := bind_eq_ok.1 h
  dsimp only at h
  split at h
  · simp at h
  · split at h
    · simp at h
    · split at h
      · simp [unknownMethod] at h
      · obtain ⟨entities, hentities, h⟩ := bind_eq_ok.1 h
        obtain ⟨visited, hvisited, h⟩ := bind_eq_ok.1 h
        exact ⟨collection, function, entities, visited, hfunction, entities_eq_ok.1 hentities,
          hvisited, (Except.ok.inj h).symm⟩

/-- A method is carried out on the entities of the collection, else they are projected. -/
theorem exists_of_mapCollection (h : mapCollection capability snapshot call state = .ok next) :
    ∃ collection function, collectionAndFunction call = .ok (collection, function) ∧
      if function.written || (Methods.names capability).contains function.call.name then
        forEach capability snapshot call true state = .ok next
      else ∃ entities, state.collection? collection = some entities ∧
        next = state.dropFiltered.unbind.storeCollection (collection ++ "_mapped")
          (entities.map (project (projectedProperty function.call.name))) := by
  obtain ⟨⟨collection, function⟩, hfunction, h⟩ := bind_eq_ok.1 h
  refine ⟨collection, function, hfunction, ?_⟩
  dsimp only at h
  split at h
  · next hmethod =>
    rw [if_pos hmethod]
    exact h
  · next hmethod =>
    rw [if_neg hmethod]
    obtain ⟨entities, hentities, h⟩ := bind_eq_ok.1 h
    exact ⟨entities, entities_eq_ok.1 hentities, (Except.ok.inj h).symm⟩

/-- A call to a method that does not work on collections is left to the capability. -/
theorem dispatch_of_not_mem (h : call.name ∉ collectionMethods) :
    dispatch capability snapshot call state =
      if (Methods.names capability).contains call.name then
        Methods.apply capability snapshot call state
      else unknownMethod capability call := by
  unfold dispatch
  split
  · next hname => simp [hname, collectionMethods] at h
  · next hname => simp [hname, collectionMethods] at h
  · next hname => simp [hname, collectionMethods] at h
  · next hname => simp [hname, collectionMethods] at h
  · rfl

/-- No method of a capability has a name of the collection methods. -/
theorem not_mem_collectionMethods {name : String} (h : name ∈ Methods.names capability) :
    name ∉ collectionMethods := by
  revert name
  cases capability <;> decide

/-- A call of a method of the capability is dispatched to it. -/
theorem dispatch_of_mem (h : call.name ∈ Methods.names capability) :
    dispatch capability snapshot call state = Methods.apply capability snapshot call state := by
  rw [dispatch_of_not_mem (not_mem_collectionMethods h), if_pos (List.contains_iff_mem.2 h)]

/-! ### One after another -/

/-- A run of calls comes through just when the first call does and the others behind it. -/
theorem runCalls_cons_eq_ok {rest : List Call} :
    runCalls capability snapshot (call :: rest) state = .ok next ↔
      ∃ after, dispatch capability snapshot call state = .ok after ∧
        runCalls capability snapshot rest after = .ok next := by
  rw [runCalls]
  cases dispatch capability snapshot call state <;> simp

/-- A statement of one call does what the call does, and ends. -/
theorem runStatement_single (call : Call) (state : State) :
    runStatement capability snapshot ⟨call, []⟩ state =
      (dispatch capability snapshot call state).map State.endStatement := by
  simp only [runStatement, Statement.calls, runCalls]
  cases dispatch capability snapshot call state <;> rfl

/-- Statements run one behind the other. -/
theorem runStatements_cons (statement : Statement) (rest : Program) (state : State) :
    runStatements capability snapshot (statement :: rest) state =
      (runStatement capability snapshot statement state).bind
        (runStatements capability snapshot rest) := by
  rw [runStatements]
  cases runStatement capability snapshot statement state <;> rfl

/-- A run of statements comes through just when the calls of the first do and the others behind
it. -/
theorem runStatements_cons_eq_ok {statement : Statement} {rest : Program} :
    runStatements capability snapshot (statement :: rest) state = .ok next ↔
      ∃ after, runCalls capability snapshot statement.calls state = .ok after ∧
        runStatements capability snapshot rest after.endStatement = .ok next := by
  rw [runStatements, runStatement]
  cases runCalls capability snapshot statement.calls state with
  | error e => simp [Except.map]
  | ok after => simp [Except.map]

/-- A script comes through just when it is not empty and its statements do. -/
theorem execute_eq_ok {program : Program} :
    execute capability snapshot program = .ok state ↔
      program ≠ [] ∧
        runStatements capability snapshot program (State.start snapshot) = .ok state := by
  cases program with
  | nil => simp [execute]
  | cons statement rest => simp [execute]

end Studio.Script
