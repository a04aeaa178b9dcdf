import Studio.Delivery.Split
import Studio.Proofs.Script.Invariants

/-!
# Actions on tracks that are there

Whatever a structural script refers to, and however it got hold of it, its actions are about tracks
that the session has or that the script created before (`execute_grounded`). The invariant is
`Sound`: entities in collections, filters and visits belong to tracks of the session, and the track
that is bound is one of these or was created.
-/

namespace Studio.Script

open Methods.Tracks (ActsOn)
open Session (Entity Snapshot Track)

variable {snapshot : Snapshot}

/-- The session has the track, or one of the actions creates it. -/
def Known (snapshot : Snapshot) (actions : List Action) (track : Nat) : Prop :=
  track ∈ snapshot.indices ∨
    ∃ creation ∈ actions, creation.isCreation = true ∧ creation.get? "index" = some (.nat track)

/-- Every action that creates no track is about one that is known when it comes. -/
def Grounded (snapshot : Snapshot) (actions : List Action) : Prop :=
  ∀ before action after, actions = before ++ action :: after → action.isCreation = false →
    ∃ track, action.get? "track" = some (.nat track) ∧ Known snapshot before track

/-- A track that is known stays known. -/
theorem Known.append {actions : List Action} {track : Nat} (h : Known snapshot actions track)
    (more : List Action) : Known snapshot (actions ++ more) track :=
  h.imp_right fun ⟨creation, hmem, h⟩ => ⟨creation, List.mem_append_left more hmem, h⟩

/-- Grounded actions stay grounded with actions about known tracks behind them. -/
theorem Grounded.append {actions more : List Action} (h : Grounded snapshot actions)
    (hmore : ∀ action ∈ more, action.isCreation = false →
      ∃ track, action.get? "track" = some (.nat track) ∧ Known snapshot actions track) :
    Grounded snapshot (actions ++ more) := by
  intro before action after hsplit hcreation
  rcases Delivery.split_of_append hsplit with ⟨rest, hactions, -⟩ | ⟨front, rfl, rfl⟩
  · exact h before action rest hactions hcreation
  · obtain ⟨track, htrack, hknown⟩ := hmore action (by simp) hcreation
    exact ⟨track, htrack, hknown.append front⟩

/-! ### Entities of a session -/

/-- The track of a track entity is one of the session. -/
theorem mem_indices_of_trackEntities {entity : Entity} (h : entity ∈ snapshot.trackEntities) :
    entity.track ∈ snapshot.indices := by
  obtain ⟨⟨index, track⟩, hmem, rfl⟩ := List.mem_map.1 h
  exact List.mem_map_of_mem (f := Prod.fst) hmem

/-- The track of a clip entity is one of the session. -/
theorem mem_indices_of_clipEntities {entity : Entity} (h : entity ∈ snapshot.clipEntities) :
    entity.track ∈ snapshot.indices := by
  obtain ⟨⟨index, track⟩, hmem, hentity⟩ := List.mem_flatMap.1 h
  obtain ⟨place, hplace, rfl⟩ := List.mem_mapIdx.1 hentity
  exact List.mem_map_of_mem (f := Prod.fst) hmem

/-- The track of an effect entity is one of the session. -/
theorem mem_indices_of_effectEntities {entity : Entity} {index : Nat}
    (h : entity ∈ snapshot.effectEntities index) : entity.track ∈ snapshot.indices := by
  unfold Snapshot.effectEntities at h
  split at h
  · next track htrack =>
    obtain ⟨place, hplace, rfl⟩ := List.mem_mapIdx.1 h
    obtain ⟨found, hfound, -⟩ := Option.map_eq_some_iff.1 htrack
    have hindex : found.1 = index := by simpa using List.find?_some hfound
    rw [← hindex]
    exact List.mem_map_of_mem (List.mem_of_find?_eq_some hfound)
  · simp at h

/-! ### The invariant -/

/-- Everything that a state refers to belongs to tracks that are known, and its actions are about
such. -/
structure Sound (snapshot : Snapshot) (state : State) : Prop where
  bound : ∀ track, state.bound = some track → Known snapshot state.actions track
  created : ∀ track ∈ state.created, Known snapshot state.actions track
  collections : ∀ name entities, state.collection? name = some entities →
    ∀ entity ∈ entities, entity.track ∈ snapshot.indices
  filtered : ∀ filtered, state.filtered = some filtered →
    ∀ entity ∈ filtered.entities, entity.track ∈ snapshot.indices
  visiting : ∀ binding, state.visiting = some binding → binding.entity.track ∈ snapshot.indices
  grounded : Grounded snapshot state.actions

namespace Sound

/-- A script starts in a sound state. -/
theorem start (snapshot : Snapshot) : Sound snapshot (State.start snapshot) where
  bound := by simp [State.start]
  created := by simp [State.start]
  collections := by
    intro name entities h entity hentity
    simp only [State.collection?, State.start, Fields.ofList, List.foldl_cons, List.foldl_nil,
      Fields.get?_insert] at h
    split at h
    · obtain rfl := Option.some.inj h
      exact mem_indices_of_clipEntities hentity
    · split at h
      · obtain rfl := Option.some.inj h
        exact mem_indices_of_trackEntities hentity
      · simp [Fields.get?] at h
  filtered := by simp [State.start]
  visiting := by simp [State.start]
  grounded := by
    intro before action after h
    simp [State.start] at h

variable {state : State} (sound : Sound snapshot state)
include sound

/-- A state stays sound with a collection of entities on tracks of the session. -/
theorem storeCollection (name : String) {entities : List Entity}
    (hentities : ∀ entity ∈ entities, entity.track ∈ snapshot.indices) :
    Sound snapshot (state.storeCollection name entities) where
  bound := sound.bound
  created := sound.created
  collections := by
    intro other found h
    rw [State.collection?, State.storeCollection, Fields.get?_insert] at h
    split at h
    · obtain rfl := Option.some.inj h
      exact hentities
    · exact sound.collections other found h
  filtered := sound.filtered
  visiting := sound.visiting
  grounded := sound.grounded

/-- A state stays sound when what a filter left is dropped. -/
theorem dropFiltered : Sound snapshot state.dropFiltered :=
  { sound with filtered := by simp [State.dropFiltered] }

/-- A state stays sound without a bound track. -/
theorem unbind : Sound snapshot state.unbind :=
  { sound with bound := by simp [State.unbind] }

/-- A state stays sound with a known track bound. -/
theorem bind {track : Nat} (htrack : Known snapshot state.actions track) :
    Sound snapshot (state.bind track) :=
  { sound with
    bound := by
      intro bound h
      obtain rfl := Option.some.inj h
      exact htrack }

/-- Actions on tracks that are known may be added. -/
theorem emitAll {actions : List Action} (hactions : ∀ action ∈ actions, action.isCreation = false →
      ∃ track, action.get? "track" = some (.nat track) ∧ Known snapshot state.actions track) :
    Sound snapshot (state.emitAll actions) where
  bound track h := (sound.bound track h).append actions
  created track h := (sound.created track h).append actions
  collections := sound.collections
  filtered := sound.filtered
  visiting := sound.visiting
  grounded := sound.grounded.append hactions

/-- What a call applies to belongs to tracks that are known. -/
theorem targets {call : Call} {targets : List Target} {next : State}
    (h : state.targets call = .ok (targets, next)) : Sound snapshot next ∧
      ∀ target ∈ targets, Known snapshot next.actions target.track := by
  unfold State.targets at h
  split at h
  · cases h
    exact ⟨{ sound.dropFiltered with }, by simp⟩
  · next collection entities hfiltered =>
    -- The entities that a filter left.
    cases h
    refine ⟨sound.dropFiltered, ?_⟩
    intro target htarget
    obtain ⟨entity, hentity, rfl⟩ := List.mem_map.1 htarget
    exact .inl (sound.filtered _ ‹_› entity hentity)
  · split at h
    · next binding hvisiting =>
      -- The entity that is visited.
      cases h
      exact ⟨sound, by simpa using .inl (sound.visiting binding hvisiting)⟩
    · split at h
      · next track hbound =>
        -- The track that is bound.
        cases h
        exact ⟨sound, by simpa using sound.bound track hbound⟩
      · simp at h

end Sound

/-- Actions that are about targets are about the tracks of these. -/
theorem exists_target_of_mem {targets : List Target} {actions : List Action}
    (h : List.Forall₂ ActsOn targets actions) {action : Action} (haction : action ∈ actions) :
    ∃ target ∈ targets, ActsOn target action := by
  induction h with
  | nil => simp at haction
  | cons hacts _ ih =>
      rcases List.mem_cons.1 haction with rfl | hrest
      · exact ⟨_, List.mem_cons_self, hacts⟩
      · obtain ⟨target, htarget, hacts⟩ := ih hrest
        exact ⟨target, List.mem_cons_of_mem _ htarget, hacts⟩

/-- The fourteen methods keep the invariant, as whatever they do is listed in `Effect`. -/
theorem Sound.method {call : Call} {state next : State} (sound : Sound snapshot state)
    (h : Methods.apply .daw snapshot call state = .ok next) : Sound snapshot next := by
  cases Methods.Tracks.effect_of_apply h with
  | acted htargets hactions =>
      obtain ⟨hnext, hknown⟩ := sound.targets htargets
      refine hnext.emitAll ?_
      intro action haction _
      obtain ⟨target, htarget, -, htrack⟩ := exists_target_of_mem hactions haction
      exact ⟨target.track, htrack, hknown target htarget⟩
  | referred htrack =>
      refine sound.dropFiltered.bind ?_
      rcases htrack with hthere | hcreated
      · exact .inl hthere
      · exact sound.created _ hcreated
  | @created action explicit hcreation hindex =>
      -- The track is known because its creation is the action that comes with it.
      have hnew : Known snapshot (state.actions ++ [action]) (state.newIndex explicit) :=
        .inr ⟨action, by simp, hcreation, hindex⟩
      have hgrown : Sound snapshot (state.emitAll [action]) :=
        sound.emitAll fun other hother hnone => by
          rw [List.mem_singleton.1 hother, hcreation] at hnone
          exact absurd hnone Bool.noConfusion
      have hbound := hgrown.dropFiltered.bind hnew
      exact { hbound with
        created := by
          intro track htrack
          rcases List.mem_cons.1 htrack with rfl | hearlier
          · exact hnew
          · exact hgrown.created track hearlier }
  | listed =>
      exact (sound.storeCollection _ fun _ h => mem_indices_of_trackEntities h).dropFiltered.unbind
  | collected _ => exact sound.storeCollection _ fun _ h => mem_indices_of_effectEntities h

/-- Soundness is kept by all calls. -/
theorem kept_sound (snapshot : Snapshot) :
    Kept .daw snapshot (Sound snapshot) fun entity => entity.track ∈ snapshot.indices where
  entities sound h := sound.collections _ _ h
  project _ _ h := h
  store name _ _ sound h := sound.storeCollection name h
  setFiltered sound h :=
    { sound with
      filtered := by
        intro filtered heq
        obtain rfl := Option.some.inj heq
        exact h }
  dropFiltered sound := sound.dropFiltered
  visit name _ _ sound h := by
    have hvisit : Sound snapshot (State.visit ⟨name, _⟩ _) :=
      { sound with
        visiting := by
          intro binding heq
          obtain rfl := Option.some.inj heq
          exact h }
    exact hvisit.bind (.inl h)
  leave sound := { sound with visiting := by simp [State.leave] }
  unbind sound := sound.unbind
  method _ sound h := sound.method h

/-- Whatever a structural script does, each of its actions that creates no track is about a track
that the session has or that the script created before. -/
theorem execute_grounded {program : Program} {state : State}
    (h : execute .daw snapshot program = .ok state) : Grounded snapshot state.actions := by
  unfold execute at h
  split at h
  · simp at h
  · exact ((kept_sound snapshot).runStatements (Sound.start snapshot) h).grounded

/-- The notes go to the track that is created in front of them. -/
theorem execute_grounded_chain :
    let program : Program := [⟨⟨"track", [⟨some "name", .string "Bass"⟩]⟩, [⟨"add_midi", []⟩]⟩]
    ∃ state, execute .daw {} program = .ok state ∧ state.actions.length = 2 ∧
      Grounded {} state.actions := by
  intro program
  obtain ⟨state, h, hlength⟩ : ∃ state, execute .daw {} program = .ok state ∧
      state.actions.length = 2 := ⟨_, rfl, rfl⟩
  exact ⟨state, h, hlength, execute_grounded h⟩

end Studio.Script
