import Studio.Proofs.Script.Filtering

/-!
# Calls on every entity

Collections hold entities of one kind (`alike_of_runStatements`). To go through a collection with a
method is to carry out its plan on the entities in order (`visitAll_eq`), which is what a call
behind a filter does with the entities that are left; so the two come to the same, faults included
(`filter_chain_eq_for_each`).
-/

namespace Studio.Script

open Methods.Tracks (Plan chained)
open Studio.Session (Entity EntityKind Snapshot)

variable {snapshot : Snapshot}

/-! ### Entities of one kind -/

/-- The entities are of one kind. -/
def Alike (entities : List Entity) : Prop :=
  ∃ kind, ∀ entity ∈ entities, entity.kind = kind

/-- Every collection holds entities of one kind. -/
def State.Uniform (state : State) : Prop :=
  ∀ name entities, state.collection? name = some entities → Alike entities

/-- The entities for the tracks of a session are of one kind. -/
theorem alike_trackEntities (snapshot : Snapshot) : Alike snapshot.trackEntities := by
  refine ⟨.track, fun entity h => ?_⟩
  obtain ⟨_, -, rfl⟩ := List.mem_map.1 h
  rfl

/-- The entities for the clips of a session are of one kind. -/
theorem alike_clipEntities (snapshot : Snapshot) : Alike snapshot.clipEntities := by
  refine ⟨.clip, fun entity h => ?_⟩
  obtain ⟨_, -, hentity⟩ := List.mem_flatMap.1 h
  obtain ⟨_, _, rfl⟩ := List.mem_mapIdx.1 hentity
  rfl

/-- The entities for the effects of a track are of one kind. -/
theorem alike_effectEntities (snapshot : Snapshot) (track : Nat) :
    Alike (snapshot.effectEntities track) := by
  refine ⟨.effect, fun entity h => ?_⟩
  unfold Snapshot.effectEntities at h
  split at h
  · obtain ⟨_, _, rfl⟩ := List.mem_mapIdx.1 h
    rfl
  · simp at h

/-- Storing entities of one kind keeps the collections uniform. -/
theorem State.Uniform.storeCollection {state : State} (uniform : state.Uniform) (name : String)
    {entities : List Entity} (h : Alike entities) :
    (state.storeCollection name entities).Uniform := by
  intro other found hfound
  rw [State.collection?, State.storeCollection, Fields.get?_insert] at hfound
  split at hfound
  · obtain rfl := Option.some.inj hfound
    exact h
  · exact uniform other found hfound

/-- A script starts with uniform collections. -/
theorem uniform_start (snapshot : Snapshot) : (State.start snapshot).Uniform := by
  have hempty : State.Uniform ⟨none, snapshot.nextTrackIndex, [], [], none, none, [], []⟩ := by
    intro name entities h
    simp [State.collection?, Fields.get?] at h
  exact (hempty.storeCollection "tracks" (alike_trackEntities snapshot)).storeCollection "clips"
    (alike_clipEntities snapshot)

/-- Structural methods keep the collections uniform. -/
theorem State.Uniform.method {call : Call} {state next : State} (uniform : state.Uniform)
    (h : Methods.apply .daw snapshot call state = .ok next) : next.Uniform := by
  cases Methods.Tracks.effect_of_apply h with
  | acted htargets =>
      obtain ⟨_, _, rfl⟩ := targets_frame htargets
      exact uniform
  | created | referred => exact uniform
  | listed => exact uniform.storeCollection _ (alike_trackEntities snapshot)
  | collected => exact uniform.storeCollection _ (alike_effectEntities snapshot _)

/-- Uniform collections are kept by all calls. -/
theorem keeps_uniform (snapshot : Snapshot) :
    Keeps .daw snapshot (fun _ => True) State.Uniform Alike where
  entities uniform h := uniform _ _ h
  sublist := fun ⟨kind, h⟩ hfound => ⟨kind, fun entity hentity => h entity (hfound.subset hentity)⟩
  project property _ := fun ⟨kind, h⟩ => by
    refine ⟨kind, fun entity hentity => ?_⟩
    obtain ⟨source, hsource, rfl⟩ := List.mem_map.1 hentity
    exact h source hsource
  store name _ _ uniform h := uniform.storeCollection name h
  setFiltered uniform _ := uniform
  dropFiltered uniform := uniform
  visit _ _ _ uniform _ := uniform
  leave uniform := uniform
  unbind uniform := uniform
  method _ uniform h := uniform.method h

/-- Whatever a script filters, maps and stores, the entities of a collection are of one kind. -/
theorem alike_of_runStatements {program : Program} {state : State}
    (h : runStatements .daw snapshot program (State.start snapshot) = .ok state) : state.Uniform :=
  (keeps_uniform snapshot).runStatements (fun _ _ => trivial) (uniform_start snapshot) h

/-! ### Going through entities -/

/-- A call on every entity of a collection. -/
def forEachOf (collection receiver : String) (call : Call) : Call :=
  ⟨"for_each", [⟨none, .string collection⟩, ⟨none, .invocation (some receiver) call⟩]⟩

/-- A call on an entity that is visited has this entity as its only target. -/
theorem targets_visit {state : State} (idle : state.Idle) (name : String) (entity : Entity)
    (call : Call) :
    ((state.visit ⟨name, entity⟩).bind entity.track).targets call =
      .ok ([.ofEntity entity], (state.visit ⟨name, entity⟩).bind entity.track) := by
  simp [State.targets, State.visit, State.bind, idle.filtered]

/-- What is emitted during a visit is all that is left of it. -/
theorem emitAll_visited {state : State} (idle : state.Idle) (name : String) (entity : Entity)
    (actions : List Action) :
    (((state.visit ⟨name, entity⟩).bind entity.track).emitAll actions).leave.unbind =
      state.emitAll actions := by
  cases state
  cases idle
  simp_all [State.emitAll, State.leave, State.unbind, State.visit, State.bind]

/-- By induction on the entities: what is bound and visited for one of them is gone before the
next, so only the actions of the state grow. -/
theorem visitAll_eq {outer : Call} {function : Function} {make : Target → Except Fault Action}
    (hplan : ∀ state, Methods.Tracks.apply snapshot function.call state =
      Plan.carryOut (.ok make) function.call state) {name : String} {entities : List Entity}
    (hanswers : ∀ entity ∈ entities, ∀ root ∈ function.receiver,
      (Binding.mk name entity).answersTo root = true) {state : State} (idle : state.Idle) :
    visitAll .daw snapshot outer function name entities state =
      ((entities.map Target.ofEntity).mapM make).map state.emitAll := by
  induction entities generalizing state with
  | nil => simp [visitAll, State.emitAll, pure, Except.pure, Except.map]
  | cons entity rest ih =>
      have hrest := fun other hother => hanswers other (List.mem_cons_of_mem entity hother)
      rw [visitAll, filter_answersTo (hanswers entity List.mem_cons_self)]
      simp only [Methods.apply, hplan, Methods.Tracks.carryOut_ok]
      rw [targets_visit idle]
      simp only [List.map_cons, List.mapM_cons, List.mapM_nil, Except.bind]
      cases make (.ofEntity entity) with
      | error fault => rfl
      | ok action =>
          have hnext : (state.emitAll [action]).Idle := ⟨idle.bound, idle.filtered, idle.visiting⟩
          show visitAll .daw snapshot outer function name rest
            (((state.visit ⟨name, entity⟩).bind entity.track).emitAll [action]).leave.unbind = _
          rw [emitAll_visited idle, ih hrest hnext]
          cases (rest.map Target.ofEntity).mapM make with
          | error fault => rfl
          | ok actions => simp [State.emitAll, bind, Except.bind, pure, Except.pure, Except.map]

/-- Faulty arguments are found at the first entity. -/
theorem visitAll_eq_error {outer : Call} {function : Function} {fault : Fault}
    (hplan : ∀ state, Methods.Tracks.apply snapshot function.call state =
      Plan.carryOut (.error fault) function.call state) {name : String} {entity : Entity}
    (hanswers : ∀ root ∈ function.receiver, (Binding.mk name entity).answersTo root = true)
    (rest : List Entity) (state : State) :
    visitAll .daw snapshot outer function name (entity :: rest) state = .error fault := by
  rw [visitAll, filter_answersTo hanswers]
  simp only [Methods.apply, hplan]
  rfl

/-- Between statements, going through a collection with a method that a chain can go on with is to
visit its entities. -/
theorem forEach_eq_visitAll {collection receiver : String} {call : Call}
    (hcall : call.name ∈ chained) {state : State} (idle : state.Idle) {entities : List Entity}
    (hentities : state.collection? collection = some entities) :
    forEach .daw snapshot (forEachOf collection receiver call) false state =
      visitAll .daw snapshot (forEachOf collection receiver call) ⟨some receiver, call, true⟩
        (itemName collection) entities state := by
  have hmethod : call.name ∈ Methods.names .daw := mem_names_of_chained hcall
  have hfunction : collectionAndFunction (forEachOf collection receiver call) =
      .ok (collection, ⟨some receiver, call, true⟩) := rfl
  have hfetched : state.entities collection = .ok entities := entities_eq_ok.2 hentities
  have hdropped : state.dropFiltered = state := by
    rw [State.dropFiltered, ← idle.filtered]
  have hknown : (Methods.names .daw).contains call.name = true := List.contains_iff_mem.2 hmethod
  have hallowed : collectionMethods.contains call.name = false := by
    simpa using not_mem_collectionMethods hmethod
  rw [forEach, hfunction]
  simp only [bind, Except.bind, idle.visiting, hallowed, hknown, hfetched, hdropped,
    Option.isSome_none, Bool.not_true, Bool.false_eq_true, if_false]
  cases visitAll .daw snapshot (forEachOf collection receiver call) ⟨some receiver, call, true⟩
    (itemName collection) entities state <;> rfl

/-- Going through entities carries out the plan of the method on them, as a call behind a filter
does. -/
theorem forEach_eq {collection receiver : String} {call : Call} (hcall : call.name ∈ chained)
    {plan : Plan}
    (hplan : ∀ state, Methods.Tracks.apply snapshot call state = plan.carryOut call state)
    {state : State} (idle : state.Idle) {entities : List Entity} (hne : entities ≠ [])
    (hentities : state.collection? collection = some entities)
    (hanswers : ∀ entity ∈ entities,
      (Binding.mk (itemName collection) entity).answersTo receiver = true) :
    forEach .daw snapshot (forEachOf collection receiver call) false state =
      plan.bind fun make => ((entities.map Target.ofEntity).mapM make).map state.emitAll := by
  rw [forEach_eq_visitAll hcall idle hentities]
  cases plan with
  | error fault =>
      obtain ⟨entity, rest, rfl⟩ := List.exists_cons_of_ne_nil hne
      exact visitAll_eq_error hplan (by simpa using hanswers entity List.mem_cons_self) rest state
  | ok make => exact visitAll_eq hplan (by simpa using hanswers) idle

/-- A call behind a filter that leaves something does the same as the call on every entity that the
filter stored, with the variable that their kind has. -/
theorem filter_chain_eq_for_each {program : Program} {state : State}
    (hrun : runStatements .daw snapshot program (State.start snapshot) = .ok state)
    {collection : String} {entities : List Entity}
    (hentities : state.collection? collection = some entities) {p : Predicate} {after : State}
    (haccepts : state.filter (filterOf collection p) = .ok after)
    (hmatches : ∃ entity ∈ entities, p.Selects entity) {call : Call} (hcall : call.name ∈ chained) :
    ∃ kind : EntityKind, (∀ entity ∈ entities, entity.kind = kind) ∧
      runStatement .daw snapshot ⟨filterOf collection p, [call]⟩ state =
        runStatements .daw snapshot [⟨filterOf collection p, []⟩,
          ⟨forEachOf (collection ++ "_filtered") kind.name call, []⟩] state := by
  have idle := (idle_start snapshot).runStatements hrun
  obtain ⟨source, q, others, found, filters, rfl⟩ := filter_eq_ok.1 haccepts
  obtain rfl : collection = source := Except.ok.inj filters.source
  obtain rfl : p = q := Except.ok.inj filters.predicate
  obtain rfl : others = entities := Option.some.inj (filters.there.symm.trans hentities)
  have hfound := eq_filter_of_matching filters.left
  obtain ⟨kind, hkind⟩ := alike_of_runStatements hrun collection others hentities
  obtain ⟨plan, hplan⟩ := @Methods.Tracks.planned_of_mem call snapshot hcall
  have hne : found ≠ [] := by
    rw [hfound]
    simpa using hmatches
  have hanswers : ∀ entity ∈ found,
      (Binding.mk (itemName (collection ++ "_filtered")) entity).answersTo kind.name = true := by
    intro entity hentity
    rw [hfound] at hentity
    simp [Binding.answersTo, hkind entity (List.mem_of_mem_filter hentity)]
  refine ⟨kind, hkind, ?_⟩
  -- The first of the two statements stores what the filter leaves, and nothing is pending then.
  let stored := (state.filtering collection found).endStatement
  have hstored : stored.collection? (collection ++ "_filtered") = some found := by
    simp [stored, State.collection?, State.filtering, State.endStatement, State.unbind,
      State.setFiltered, State.storeCollection, Fields.get?_insert]
  have hfirst : runStatement .daw snapshot ⟨filterOf collection p, []⟩ state = .ok stored := by
    rw [runStatement_single, dispatch_filter rfl, haccepts]
    rfl
  rw [runStatement_filter rfl hcall hplan filters, runStatements_cons, hfirst]
  show _ = runStatements .daw snapshot _ stored
  rw [runStatements_cons, runStatement_single]
  show _ = ((forEach .daw snapshot _ false stored).map State.endStatement).bind .ok
  rw [forEach_eq hcall hplan (idle_endStatement _) hne hstored hanswers]
  cases plan with
  | error fault => rfl
  | ok make =>
      simp only [Except.bind]
      cases (found.map Target.ofEntity).mapM make with
      | error fault => rfl
      | ok actions =>
          refine congrArg Except.ok ?_
          simp [State.chained, State.emitAll, State.endStatement, State.filtering,
            State.unbind, State.setFiltered, State.storeCollection, hne]

/-- Of three clips the two that are selected are deleted. -/
theorem filter_chain_eq_for_each_clip :
    let session : Snapshot := ⟨[{ clips := [{ selected := true }, {}] },
      { clips := [{ selected := true }] }]⟩
    let selected : Predicate := ⟨some "clip", "selected", none, .equal, .bool true⟩
    ∃ state next, runStatements .daw session [⟨⟨"track", []⟩, []⟩] (State.start session) =
        .ok state ∧
      runStatement .daw session ⟨filterOf "clips" selected, [⟨"delete_clip", []⟩]⟩ state =
        .ok next ∧ next.actions.length = 3 ∧
      runStatements .daw session [⟨filterOf "clips" selected, []⟩,
        ⟨forEachOf "clips_filtered" "clip" ⟨"delete_clip", []⟩, []⟩] state = .ok next := by
  intro session selected
  obtain ⟨state, next, hrun, hentities, ⟨after, haccepts⟩, hnext, hlength⟩ : ∃ state next,
      runStatements .daw session [⟨⟨"track", []⟩, []⟩] (State.start session) = .ok state ∧
      state.collection? "clips" = some session.clipEntities ∧
      (∃ after, state.filter (filterOf "clips" selected) = .ok after) ∧
      runStatement .daw session ⟨filterOf "clips" selected, [⟨"delete_clip", []⟩]⟩ state =
        .ok next ∧ next.actions.length = 3 :=
    ⟨_, _, rfl, rfl, ⟨_, rfl⟩, rfl, rfl⟩
  have hmatches : ∃ entity ∈ session.clipEntities, selected.Selects entity := by decide
  have hcall : (⟨"delete_clip", []⟩ : Call).name ∈ chained := by decide
  obtain ⟨kind, hkind, heq⟩ := filter_chain_eq_for_each hrun hentities haccepts hmatches hcall
  obtain rfl : .clip = kind := hkind _ List.mem_cons_self
  exact ⟨state, next, hrun, hnext, hlength, heq.symm.trans hnext⟩

end Studio.Script
