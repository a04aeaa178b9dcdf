import Studio.Proofs.Script.Steps

/-!
# What running scripts keep

A property of states that every operation on them keeps holds all along a script. `Keeps` names
the operations once; `Keeps.dispatch` takes the property through a call, whatever it goes through
or filters, and `Keeps.runStatements` through a whole script. `KeptBy` is for properties that say
something of each entity on its own. A property may depend on which calls a script has
(`Call.carried`); `Kept` is for those that any call keeps. `actions_of_runStatements` is the first
use: a script only adds to the actions.
-/

namespace Studio.Script

open Studio.Session (Entity Snapshot)

variable {capability : Capability} {snapshot : Snapshot}

/-- The calls that a call can have carried out: itself, and the method that it hands over. -/
def Call.carried (call : Call) : List Call :=
  match collectionAndFunction call with
  | .ok (_, function) => [call, function.call]
  | .error _ => [call]

/-- The calls that a script can have carried out. -/
def Program.carried (program : Program) : List Call :=
  program.flatMap fun statement => statement.calls.flatMap Call.carried

/-- A property of states that certain calls keep, and what it says of every list of entities that a
state holds. -/
structure Keeps (capability : Capability) (snapshot : Snapshot) (admits : Call → Prop)
    (holds : State → Prop) (sound : List Entity → Prop) : Prop where
  entities {state : State} {name : String} {entities : List Entity} :
    holds state → state.collection? name = some entities → sound entities
  sublist {entities found : List Entity} : sound entities → found.Sublist entities → sound found
  project (property : String) {entities : List Entity} :
    sound entities → sound (entities.map (project property))
  store (name : String) {state : State} {entities : List Entity} :
    holds state → sound entities → holds (state.storeCollection name entities)
  setFiltered {state : State} {filtered : Filtered} :
    holds state → sound filtered.entities → holds (state.setFiltered filtered)
  dropFiltered {state : State} : holds state → holds state.dropFiltered
  visit (name : String) {state : State} {entity : Entity} :
    holds state → sound [entity] → holds ((state.visit ⟨name, entity⟩).bind entity.track)
  leave {state : State} : holds state → holds state.leave
  unbind {state : State} : holds state → holds state.unbind
  method {call : Call} {state next : State} : admits call →
    holds state → Methods.apply capability snapshot call state = .ok next → holds next

/-- A property of states that certain calls keep, and what it says of every entity that a state
holds. -/
structure KeptBy (capability : Capability) (snapshot : Snapshot) (admits : Call → Prop)
    (holds : State → Prop) (sound : Entity → Prop) : Prop where
  entities {state : State} {name : String} {entities : List Entity} :
    holds state → state.collection? name = some entities → ∀ entity ∈ entities, sound entity
  project (property : String) {entity : Entity} : sound entity → sound (project property entity)
  store (name : String) {state : State} {entities : List Entity} :
    holds state → (∀ entity ∈ entities, sound entity) → holds (state.storeCollection name entities)
  setFiltered {state : State} {filtered : Filtered} :
    holds state → (∀ entity ∈ filtered.entities, sound entity) → holds (state.setFiltered filtered)
  dropFiltered {state : State} : holds state → holds state.dropFiltered
  visit (name : String) {state : State} {entity : Entity} :
    holds state → sound entity → holds ((state.visit ⟨name, entity⟩).bind entity.track)
  leave {state : State} : holds state → holds state.leave
  unbind {state : State} : holds state → holds state.unbind
  method {call : Call} {state next : State} : admits call →
    holds state → Methods.apply capability snapshot call state = .ok next → holds next

/-- A property of states that all calls keep. -/
abbrev Kept (capability : Capability) (snapshot : Snapshot) (holds : State → Prop)
    (sound : Entity → Prop) : Prop :=
  KeptBy capability snapshot (fun _ => True) holds sound

/-- A call can have itself carried out. -/
theorem mem_carried (call : Call) : call ∈ call.carried := by
  unfold Call.carried
  split <;> exact List.mem_cons_self

/-- A call can have the method carried out that it hands over. -/
theorem mem_carried_of_function {call : Call} {collection : String} {function : Function}
    (h : collectionAndFunction call = .ok (collection, function)) :
    function.call ∈ call.carried := by
  rw [Call.carried, h]
  exact List.mem_cons_of_mem _ List.mem_cons_self

/-- A filter leaves entities of the collection, in its order. -/
theorem sublist_of_matching {call : Call} {p : Predicate} {name : String}
    {entities found : List Entity} (h : matching call p name entities = .ok found) :
    found.Sublist entities := by
  induction entities generalizing found with
  | nil =>
      obtain rfl := Except.ok.inj h
      exact .slnil
  | cons entity rest ih =>
      rw [matching] at h
      split at h
      · simp at h
      · split at h
        · simp at h
        · next more hmore =>
          obtain rfl := Except.ok.inj h
          split
          · exact (ih hmore).cons_cons entity
          · exact (ih hmore).cons entity

namespace Keeps

variable {admits : Call → Prop} {holds : State → Prop} {sound : List Entity → Prop}
  (kept : Keeps capability snapshot admits holds sound) {call : Call} {state next : State}
  (hstate : holds state)
include kept hstate

/-- A filter keeps the property. -/
theorem filter (h : state.filter call = .ok next) : holds next := by
  obtain ⟨collection, p, entities, found, filters, rfl⟩ := filter_eq_ok.1 h
  have hsound : sound found :=
    kept.sublist (kept.entities hstate filters.there) (sublist_of_matching filters.left)
  exact kept.unbind (kept.setFiltered (kept.store _ hstate hsound) hsound)

/-- Storing a collection keeps the property. -/
theorem storeCall (h : state.store call = .ok next) : holds next := by
  obtain ⟨name, source, entities, -, -, hentities, rfl⟩ := store_eq_ok.1 h
  exact kept.store name hstate (kept.entities hstate hentities)

omit hstate in
/-- By induction on the entities that are still to be visited. -/
theorem visitAll {function : Function} (hadmits : admits function.call) {name : String}
    {entities : List Entity} (hentities : sound entities) {state : State}
    (hstate : holds state)
    (h : visitAll capability snapshot call function name entities state = .ok next) :
    holds next := by
  induction entities generalizing state with
  | nil =>
      obtain rfl := Except.ok.inj h
      exact hstate
  | cons entity rest ih =>
      obtain ⟨-, after, happly, hrest⟩ := visitAll_cons_eq_ok.1 h
      have hentity := kept.sublist hentities (List.singleton_sublist.2 List.mem_cons_self)
      have hvisit := kept.visit name hstate hentity
      have hafter := kept.unbind (kept.leave (kept.method hadmits hvisit happly))
      exact ih (kept.sublist hentities (List.sublist_cons_self entity rest)) hafter hrest

/-- A loop keeps the property if the method that it applies does. -/
theorem forEach {keep : Bool} (hadmits : ∀ inner ∈ call.carried, admits inner)
    (h : forEach capability snapshot call keep state = .ok next) : holds next := by
  obtain ⟨collection, function, entities, visited, hfunction, hentities, hvisited, rfl⟩ :=
    exists_of_forEach h
  have hsound := kept.entities hstate hentities
  have hcarried := hadmits function.call (mem_carried_of_function hfunction)
  have hkept := kept.visitAll hcarried hsound (kept.dropFiltered hstate) hvisited
  cases keep with
  | true => exact kept.store _ hkept hsound
  | false => exact hkept

/-- A map keeps the property if the method that it applies does. -/
theorem mapCollection (hadmits : ∀ inner ∈ call.carried, admits inner)
    (h : mapCollection capability snapshot call state = .ok next) : holds next := by
  obtain ⟨collection, function, -, hmap⟩ := exists_of_mapCollection h
  split at hmap
  · exact kept.forEach hstate hadmits hmap
  · obtain ⟨entities, hentities, rfl⟩ := hmap
    have hsound := kept.entities hstate hentities
    exact kept.store _ (kept.unbind (kept.dropFiltered hstate)) (kept.project _ hsound)

/-- A call keeps what every operation on states keeps. -/
theorem dispatch (hadmits : ∀ inner ∈ call.carried, admits inner)
    (h : dispatch capability snapshot call state = .ok next) : holds next := by
  unfold Script.dispatch at h
  split at h
  · exact kept.filter hstate h
  · exact kept.forEach hstate hadmits h
  · exact kept.mapCollection hstate hadmits h
  · exact kept.storeCall hstate h
  · split at h
    · exact kept.method (hadmits call (mem_carried call)) hstate h
    · simp [unknownMethod] at h

omit hstate in
/-- A run of calls keeps the property if all that they carry do. -/
theorem runCalls {calls : List Call} (hadmits : ∀ inner ∈ calls.flatMap Call.carried, admits inner)
    {state : State} (hstate : holds state)
    (h : runCalls capability snapshot calls state = .ok next) : holds next := by
  induction calls generalizing state with
  | nil =>
      obtain rfl := Except.ok.inj h
      exact hstate
  | cons call rest ih =>
      obtain ⟨after, hafter, h⟩ := runCalls_cons_eq_ok.1 h
      obtain ⟨hcall, hrest⟩ := List.forall_mem_append.1 hadmits
      exact ih hrest (kept.dispatch hstate hcall hafter) h

/-- A statement keeps the property if all that its calls carry do. -/
theorem runStatement {statement : Statement}
    (hadmits : ∀ inner ∈ statement.calls.flatMap Call.carried, admits inner)
    (h : runStatement capability snapshot statement state = .ok next) : holds next := by
  obtain ⟨after, hafter, rfl⟩ := map_eq_ok.1 h
  exact kept.leave (kept.dropFiltered (kept.unbind (kept.runCalls hadmits hstate hafter)))

omit hstate in
/-- A script keeps what every operation on states keeps. -/
theorem runStatements {program : Program} (hadmits : ∀ inner ∈ program.carried, admits inner)
    {state : State} (hstate : holds state)
    (h : runStatements capability snapshot program state = .ok next) : holds next := by
  induction program generalizing state with
  | nil =>
      obtain rfl := Except.ok.inj h
      exact hstate
  | cons statement rest ih =>
      rw [Script.runStatements] at h
      split at h
      · simp at h
      · next after hafter =>
        obtain ⟨hstatement, hrest⟩ := List.forall_mem_append.1 hadmits
        exact ih hrest (kept.runStatement hstate hstatement hafter) h

end Keeps

/-- What a property says of every entity it says of every list of them. -/
theorem KeptBy.keeps {admits : Call → Prop} {holds : State → Prop} {sound : Entity → Prop}
    (kept : KeptBy capability snapshot admits holds sound) :
    Keeps capability snapshot admits holds fun entities => ∀ entity ∈ entities, sound entity where
  entities := kept.entities
  sublist hsound hfound entity hentity := hsound entity (hfound.subset hentity)
  project property _ hsound entity hentity := by
    obtain ⟨source, hsource, rfl⟩ := List.mem_map.1 hentity
    exact kept.project property (hsound source hsource)
  store := kept.store
  setFiltered := kept.setFiltered
  dropFiltered := kept.dropFiltered
  visit name _ _ hstate hsound := kept.visit name hstate (hsound _ List.mem_cons_self)
  leave := kept.leave
  unbind := kept.unbind
  method := kept.method

/-- A script keeps the property if all that it carries do. -/
theorem KeptBy.runStatements {admits : Call → Prop} {holds : State → Prop} {sound : Entity → Prop}
    (kept : KeptBy capability snapshot admits holds sound) {program : Program}
    (hadmits : ∀ inner ∈ program.carried, admits inner) {state next : State} (hstate : holds state)
    (h : runStatements capability snapshot program state = .ok next) : holds next :=
  kept.keeps.runStatements hadmits hstate h

namespace Kept

variable {holds : State → Prop} {sound : Entity → Prop}
  (kept : Kept capability snapshot holds sound) {state next : State} (hstate : holds state)
include kept hstate

/-- A run of calls keeps what all calls keep. -/
theorem runCalls {calls : List Call}
    (h : runCalls capability snapshot calls state = .ok next) : holds next :=
  kept.keeps.runCalls (fun _ _ => trivial) hstate h

/-- A script keeps what all calls keep. -/
theorem runStatements {program : Program}
    (h : runStatements capability snapshot program state = .ok next) : holds next :=
  KeptBy.runStatements kept (fun _ _ => trivial) hstate h

end Kept

/-! ### Actions are only added -/

/-- Looking up what a call applies to uses up what a filter left, and may add a notice. -/
theorem targets_frame {call : Call} {state next : State} {targets : List Target}
    (h : state.targets call = .ok (targets, next)) :
    ∃ filtered notices, next = { state with filtered, notices } := by
  unfold State.targets at h
  split at h
  · cases h
    exact ⟨_, _, rfl⟩
  · cases h
    exact ⟨_, _, rfl⟩
  · split at h
    · cases h
      exact ⟨_, _, rfl⟩
    · split at h
      · cases h
        exact ⟨_, _, rfl⟩
      · simp at h

/-- Finding the targets of a call emits nothing. -/
theorem actions_of_targets {call : Call} {state next : State} {targets : List Target}
    (h : state.targets call = .ok (targets, next)) : next.actions = state.actions := by
  obtain ⟨_, _, rfl⟩ := targets_frame h
  rfl

/-- A method adds actions and takes none away. -/
theorem actions_of_method {call : Call} {state next : State}
    (h : Methods.apply capability snapshot call state = .ok next) :
    state.actions <+: next.actions := by
  cases capability with
  | daw =>
      cases Methods.Tracks.effect_of_apply h with
      | acted htargets hactions =>
          rw [← actions_of_targets htargets]
          exact List.prefix_append _ _
      | created => exact List.prefix_append _ _
      | referred | listed | collected => exact List.prefix_refl _
  | arranger =>
      obtain ⟨actions, rfl⟩ := Methods.Chords.emitAll_of_apply h
      exact List.prefix_append _ _
  | drummer =>
      obtain ⟨actions, rfl⟩ := Methods.Drums.emitAll_of_apply h
      exact List.prefix_append _ _

/-- That a state has certain actions in front is kept. -/
theorem kept_actions (capability : Capability) (snapshot : Snapshot) (actions : List Action) :
    Kept capability snapshot (fun state => actions <+: state.actions) fun _ => True where
  entities _ _ _ _ := trivial
  project _ _ _ := trivial
  store _ _ _ h _ := h
  setFiltered h _ := h
  dropFiltered h := h
  visit _ _ _ h _ := h
  leave h := h
  unbind h := h
  method _ h happly := h.trans (actions_of_method happly)

/-- A run of calls takes back no action. -/
theorem actions_of_runCalls {calls : List Call} {state next : State}
    (h : runCalls capability snapshot calls state = .ok next) : state.actions <+: next.actions :=
  (kept_actions capability snapshot state.actions).runCalls (List.prefix_refl _) h

/-- A script adds actions and takes none away. -/
theorem actions_of_runStatements {program : Program} {state next : State}
    (h : runStatements capability snapshot program state = .ok next) :
    state.actions <+: next.actions :=
  (kept_actions capability snapshot state.actions).runStatements (List.prefix_refl _) h

end Studio.Script
