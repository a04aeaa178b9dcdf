import Studio.Proofs.Methods.Plans
import Studio.Proofs.Script.Selection

/-!
# Filters and the calls behind them

A statement that filters a collection and goes on with a call makes an action of each entity that
the filter leaves and stores these entities; nothing else changes (`runStatement_filter`). So it
does the same when it is repeated (`filter_again`), and setters behind a filter set the property of
just the tracks that the predicate selects (`filter_setter_exact`).
-/

namespace Studio.Script

open Methods.Tracks (Plan chained)
open Studio.Session (Entity Snapshot)

variable {snapshot : Snapshot}

/-! ### Between statements -/

/-- Nothing is bound, left by a filter or visited, as it is between statements. -/
structure State.Idle (state : State) : Prop where
  bound : state.bound = none
  filtered : state.filtered = none
  visiting : state.visiting = none

/-- A script starts idle. -/
theorem idle_start (snapshot : Snapshot) : (State.start snapshot).Idle :=
  ⟨rfl, rfl, rfl⟩

/-- The end of a statement leaves the state idle. -/
theorem idle_endStatement (state : State) : state.endStatement.Idle :=
  ⟨rfl, rfl, rfl⟩

/-- A script leaves the state idle between its statements. -/
theorem State.Idle.runStatements {capability : Capability} {program : Program} {state next : State}
    (idle : state.Idle) (h : runStatements capability snapshot program state = .ok next) :
    next.Idle := by
  induction program generalizing state with
  | nil =>
      obtain rfl := Except.ok.inj h
      exact idle
  | cons statement rest ih =>
      obtain ⟨after, -, hrest⟩ := runStatements_cons_eq_ok.1 h
      exact ih (idle_endStatement after) hrest

/-! ### A filter and a call behind it -/

/-- A call that filters a collection. -/
def filterOf (collection : String) (p : Predicate) : Call :=
  ⟨"filter", [⟨none, .string collection⟩, ⟨none, .predicate p⟩]⟩

/-- The state behind a statement that filters a collection and goes on with a call. -/
def State.chained (collection : String) (found : List Entity) (call : Call) (actions : List Action)
    (state : State) : State :=
  { state with
    bound := none
    filtered := none
    visiting := none
    collections := Fields.insert (collection ++ "_filtered") found state.collections
    actions := state.actions ++ actions
    notices := state.notices ++
      if found.isEmpty then [.emptyFilter collection call.name] else [] }

/-- A filter is dispatched to the collections. -/
theorem dispatch_filter {call : Call} (h : call.name = "filter") (state : State) :
    dispatch .daw snapshot call state = state.filter call := by
  unfold dispatch
  rw [h]
  rfl

/-- The methods that can be chained are structural. -/
theorem mem_names_of_chained {name : String} (h : name ∈ chained) :
    name ∈ Methods.names .daw := by
  revert name
  decide

/-- A call that can be chained is dispatched to its method. -/
theorem dispatch_chained {call : Call} (h : call.name ∈ chained) (state : State) :
    dispatch .daw snapshot call state = Methods.Tracks.apply snapshot call state := by
  rw [dispatch_of_mem (mem_names_of_chained h)]
  rfl

/-- Behind a filter, a call has the entities that were found as targets. -/
theorem targets_filtering (collection : String) (found : List Entity) (call : Call)
    (state : State) :
    ∃ next, (state.filtering collection found).targets call =
        .ok (found.map Target.ofEntity, next) ∧
      ∀ actions, (next.emitAll actions).endStatement =
        state.chained collection found call actions := by
  cases found with
  | nil => exact ⟨_, rfl, fun _ => rfl⟩
  | cons entity rest =>
      refine ⟨_, rfl, fun actions => ?_⟩
      simp [State.chained, State.emitAll, State.endStatement, State.dropFiltered, State.filtering,
        State.unbind, State.setFiltered, State.storeCollection]

/-- A statement of a filter and a planned call makes the actions of the plan of all that was
found. -/
theorem runStatement_filter {filter call : Call} (hfilter : filter.name = "filter")
    (hcall : call.name ∈ chained) {plan : Plan}
    (hplan : ∀ state, Methods.Tracks.apply snapshot call state = plan.carryOut call state)
    {state : State} {collection : String} {p : Predicate} {entities found : List Entity}
    (filters : Filters filter state collection p entities found) :
    runStatement .daw snapshot ⟨filter, [call]⟩ state =
      plan.bind fun make => ((found.map Target.ofEntity).mapM make).map
        fun actions => state.chained collection found call actions := by
  have hleaves : state.filter filter = .ok (state.filtering collection found) :=
    filter_eq_ok.2 ⟨_, _, _, _, filters, rfl⟩
  obtain ⟨next, htargets, hnext⟩ := targets_filtering collection found call state
  simp only [runStatement, Statement.calls, runCalls, dispatch_filter hfilter, hleaves,
    dispatch_chained hcall, hplan]
  cases plan with
  | error fault => rfl
  | ok make =>
      rw [Methods.Tracks.carryOut_ok, htargets]
      simp only [Except.bind]
      cases (found.map Target.ofEntity).mapM make with
      | error fault => rfl
      | ok actions => exact congrArg Except.ok (hnext actions)

/-- What it takes that a filter and a call behind it succeed, and what they come to then, in this
state and in every other in which the filter finds the same. -/
theorem exists_filters {filter call : Call} (hfilter : filter.name = "filter")
    (hcall : call.name ∈ chained) {state next : State}
    (h : runStatement .daw snapshot ⟨filter, [call]⟩ state = .ok next) :
    ∃ collection p entities found actions,
      Filters filter state collection p entities found ∧
      next = state.chained collection found call actions ∧
      ∀ other : State, Filters filter other collection p entities found →
        runStatement .daw snapshot ⟨filter, [call]⟩ other =
          .ok (other.chained collection found call actions) := by
  obtain ⟨after, hafter, -⟩ := map_eq_ok.1 h
  obtain ⟨left, hleaves, -⟩ := runCalls_cons_eq_ok.1 hafter
  rw [dispatch_filter hfilter] at hleaves
  obtain ⟨collection, p, entities, found, filters, -⟩ := filter_eq_ok.1 hleaves
  obtain ⟨plan, hplan⟩ := @Methods.Tracks.planned_of_mem call snapshot hcall
  rw [runStatement_filter hfilter hcall hplan filters] at h
  obtain ⟨make, rfl, hmake⟩ := bind_eq_ok.1 h
  obtain ⟨actions, hactions, rfl⟩ := map_eq_ok.1 hmake
  refine ⟨collection, p, entities, found, actions, filters, rfl, fun other filters => ?_⟩
  rw [runStatement_filter hfilter hcall hplan filters]
  simp only [Except.bind, hactions]
  rfl

/-- What a filter stores has another name than what it filters. -/
theorem append_filtered_ne (name : String) : name ++ "_filtered" ≠ name := by
  intro h
  have hlength := congrArg String.length h
  simp at hlength

/-- Filtering leaves the collection that is filtered as it is. -/
theorem Filters.chained {filter : Call} {state : State} {collection : String} {p : Predicate}
    {entities found : List Entity} (filters : Filters filter state collection p entities found)
    (call : Call) (actions : List Action) :
    Filters filter (state.chained collection found call actions) collection p entities found :=
  { filters with
    outside := rfl
    there := by
      rw [State.collection?, State.chained, Fields.get?_insert, if_neg (append_filtered_ne _)]
      exact filters.there }

/-- A statement that filters a collection and goes on with a call does the same when it comes
again: the same actions and notices are added, and nothing else changes. -/
theorem filter_again {program : Program} {filter call : Call} (hfilter : filter.name = "filter")
    (hcall : call.name ∈ chained) {first : State}
    (h : execute .daw snapshot (program ++ [⟨filter, [call]⟩]) = .ok first) :
    ∃ before second actions notices,
      runStatements .daw snapshot program (State.start snapshot) = .ok before ∧
      first.actions = before.actions ++ actions ∧ first.notices = before.notices ++ notices ∧
      execute .daw snapshot (program ++ [⟨filter, [call]⟩, ⟨filter, [call]⟩]) = .ok second ∧
      second.actions = first.actions ++ actions ∧ second.notices = first.notices ++ notices ∧
      second.collections = first.collections ∧ second.counter = first.counter ∧
      second.created = first.created := by
  obtain ⟨-, hrun⟩ := execute_eq_ok.1 h
  rw [runStatements_append] at hrun
  obtain ⟨before, hbefore, hfirst⟩ := bind_eq_ok.1 hrun
  rw [runStatements_cons] at hfirst
  obtain ⟨after, hstatement, hafter⟩ := bind_eq_ok.1 hfirst
  obtain rfl := Except.ok.inj hafter
  obtain ⟨collection, p, entities, found, actions, filters, rfl, hagain⟩ :=
    exists_filters hfilter hcall hstatement
  have hsecond := hagain _ (filters.chained call actions)
  refine ⟨before, (before.chained collection found call actions).chained collection found call
    actions, actions, _, hbefore, rfl, rfl, ?_, rfl, rfl, Fields.insert_insert _ _ _ _, rfl, rfl⟩
  refine execute_eq_ok.2 ⟨by simp, ?_⟩
  rw [runStatements_append, hbefore]
  show runStatements .daw snapshot _ before = _
  rw [runStatements_cons, hstatement]
  show runStatements .daw snapshot _ _ = _
  rw [runStatements_cons, hsecond]
  rfl

/-- The second time, the muted tracks of a session are unmuted again. -/
theorem filter_again_unmute :
    let session : Snapshot := ⟨[{ name := "Bass", muted := true }, { name := "Keys" }]⟩
    let muted : Predicate := ⟨some "track", "muted", none, .equal, .bool true⟩
    let unmute : Statement := ⟨filterOf "tracks" muted, [⟨"set_mute", [⟨none, .bool false⟩]⟩]⟩
    let program : Program := [⟨⟨"track", []⟩, []⟩]
    ∃ first before second actions notices,
      execute .daw session (program ++ [unmute]) = .ok first ∧ first.actions.length = 2 ∧
      runStatements .daw session program (State.start session) = .ok before ∧
      first.actions = before.actions ++ actions ∧ first.notices = before.notices ++ notices ∧
      execute .daw session (program ++ [unmute, unmute]) = .ok second ∧
      second.actions = first.actions ++ actions ∧ second.notices = first.notices ++ notices ∧
      second.collections = first.collections ∧ second.counter = first.counter ∧
      second.created = first.created := by
  intro session muted unmute program
  obtain ⟨first, hfirst, hlength⟩ : ∃ first,
      execute .daw session (program ++ [unmute]) = .ok first ∧ first.actions.length = 2 :=
    ⟨_, rfl, rfl⟩
  obtain ⟨before, second, actions, notices, h⟩ := filter_again rfl (by decide) hfirst
  exact ⟨first, before, second, actions, notices, hfirst, hlength, h⟩

/-! ### Setters behind a filter -/

/-- Where all entities are tracks, an action for tracks is made of each. -/
theorem mapM_onTrack_of_tracks {call : Call} {entities : List Entity}
    (h : ∀ entity ∈ entities, entity.kind = .track) (make : Target → Action) :
    (entities.map Target.ofEntity).mapM (Methods.Tracks.onTrack call make) =
      .ok (entities.map fun entity => make (.ofEntity entity)) := by
  have hentities : (entities.map Target.ofEntity).filterMap Target.entity = entities := by
    simp [Target.ofEntity, List.filterMap_map, Function.comp_def]
  have hnone : (entities.find? fun entity => entity.kind ≠ .track) = none := by
    simpa using h
  rw [Methods.Tracks.mapM_onTrack, hentities, hnone, List.map_map]
  rfl

/-- Behind a filter of tracks a setter with a value of its kind always succeeds. It sets the
property of just the tracks that the predicate selects, in their order; these are stored, every
other collection is as it was, and a notice says so if there are none. -/
theorem filter_setter_exact {program : Program} {state : State}
    (hrun : runStatements .daw snapshot program (State.start snapshot) = .ok state)
    {collection : String} {entities : List Entity}
    (hentities : state.collection? collection = some entities)
    (htracks : ∀ entity ∈ entities, entity.kind = .track)
    {p : Predicate} (hroot : p.root = some "track")
    (horderly : p.comparison.isOrdering = true → ∀ flag, p.literal ≠ .bool flag)
    (setter : Methods.Tracks.Setter) {argument : Argument}
    (hname : argument.name = none ∨ argument.name = some setter.field)
    (hvalue : argument.value.kind = setter.takes) :
    ∃ next, runStatement .daw snapshot
        ⟨filterOf collection p, [⟨setter.method, [argument]⟩]⟩ state = .ok next ∧
      next.actions = state.actions ++ (entities.filter (p.Selects ·)).map
        (fun entity => setter.action argument.value entity.track) ∧
      next.collection? (collection ++ "_filtered") = some (entities.filter (p.Selects ·)) ∧
      next.collection? collection = some entities ∧
      (∀ other, other ≠ collection ++ "_filtered" →
        next.collection? other = state.collection? other) ∧
      next.notices = state.notices ++
        if ∃ entity ∈ entities, p.Selects entity then []
        else [.emptyFilter collection setter.method] := by
  have idle := (idle_start snapshot).runStatements hrun
  have hanswers : ∀ entity ∈ entities, ∀ root ∈ p.root,
      (Binding.mk (itemName collection) entity).answersTo root = true := by
    intro entity hentity root hroot'
    rw [hroot, Option.mem_some_iff] at hroot'
    simp [Binding.answersTo, ← hroot', htracks entity hentity, Session.EntityKind.name]
  have filters : Filters (filterOf collection p) state collection p entities
      (entities.filter (p.Selects ·)) :=
    { source := rfl
      predicate := rfl
      orderly := horderly
      outside := idle.visiting
      there := hentities
      left := matching_eq hanswers }
  have hleft : ∀ entity ∈ entities.filter (p.Selects ·), entity.kind = .track := fun entity h =>
    htracks entity (List.mem_of_mem_filter h)
  have hplan := @Methods.Tracks.Setter.apply_eq setter snapshot argument hname hvalue
  have hrunning := runStatement_filter rfl setter.mem_chained hplan filters
  rw [Except.bind, mapM_onTrack_of_tracks hleft] at hrunning
  refine ⟨_, hrunning, rfl, ?_, (filters.chained _ _).there, ?_, ?_⟩
  · simp [State.collection?, State.chained, Fields.get?_insert]
  · intro other hother
    simp [State.collection?, State.chained, Fields.get?_insert, hother.symm]
  · by_cases hfound : ∃ entity ∈ entities, p.Selects entity
    · simp [State.chained, hfound]
    · simp [State.chained, hfound]

/-- Of three tracks the two that are muted are unmuted. -/
theorem filter_setter_exact_unmute :
    let session : Snapshot := ⟨[{ name := "Bass", muted := true }, { name := "Keys" },
      { name := "Lead", muted := true }]⟩
    let muted : Predicate := ⟨some "track", "muted", none, .equal, .bool true⟩
    let unmute := Methods.Tracks.Setter.mute.action (.bool false)
    ∃ state next, runStatements .daw session [⟨⟨"track", []⟩, []⟩] (State.start session) =
        .ok state ∧
      state.collection? "tracks" = some session.trackEntities ∧
      runStatement .daw session
        ⟨filterOf "tracks" muted, [⟨"set_mute", [⟨none, .bool false⟩]⟩]⟩ state = .ok next ∧
      next.actions = state.actions ++ [unmute 0, unmute 2] ∧
      next.collection? "tracks" = some session.trackEntities ∧ next.notices = state.notices := by
  intro session muted unmute
  obtain ⟨state, hrun, hentities⟩ : ∃ state, runStatements .daw session [⟨⟨"track", []⟩, []⟩]
        (State.start session) = .ok state ∧
      state.collection? "tracks" = some session.trackEntities := ⟨_, rfl, rfl⟩
  have htracks : ∀ entity ∈ session.trackEntities, entity.kind = .track := by decide
  have hroot : muted.root = some "track" := rfl
  have horderly : muted.comparison.isOrdering = true → ∀ flag, muted.literal ≠ .bool flag :=
    fun h => absurd h (by decide)
  have hvalue : (Argument.mk none (.bool false)).value.kind = Methods.Tracks.Setter.mute.takes :=
    rfl
  obtain ⟨next, hnext, hactions, -, hkept, -, hnotices⟩ := filter_setter_exact hrun hentities
    htracks hroot horderly .mute (.inl rfl) hvalue
  have hselected : ∃ entity ∈ session.trackEntities, muted.Selects entity := by decide
  rw [if_pos hselected, List.append_nil] at hnotices
  exact ⟨state, next, hrun, hentities, hnext, hactions, hkept, hnotices⟩

end Studio.Script
