import Mathlib.Data.List.Forall2
import Studio.Methods.Basic

/-!
# What methods do

The methods that describe music only add actions (`Chords.emitAll_of_apply`,
`Drums.emitAll_of_apply`). `Tracks.Effect` lists what the methods on tracks can do to a state, and
`Tracks.effect_of_apply` says that they do nothing else.
-/

namespace Studio

/-! ### Steps that may fail -/

section

variable {ε α β : Type} {x : Except ε α} {b : β}

/-- A sequence comes through just when both of its parts do. -/
theorem bind_eq_ok {f : α → Except ε β} :
    (x >>= f) = .ok b ↔ ∃ a, x = .ok a ∧ f a = .ok b := by
  cases x with
  | error e => simp [bind, Except.bind]
  | ok a => simp [bind, Except.bind]

/-- A result is changed just when there is one. -/
theorem map_eq_ok {f : α → β} : x.map f = .ok b ↔ ∃ a, x = .ok a ∧ f a = b := by
  cases x with
  | error e => simp [Except.map]
  | ok a => simp [Except.map]

/-- What a computation leaves of itself is its result. -/
theorem toOption_eq_some {a : α} : x.toOption = some a ↔ x = .ok a := by
  cases x with
  | error e => simp [Except.toOption]
  | ok a => simp [Except.toOption]

end

namespace Methods

open Studio.Script
open Studio.Session (Entity Snapshot)

/-- An invalid argument is no result. -/
@[simp] theorem invalid_ne_ok {α : Type} (call : Call) (param : String) (flaw : Flaw) (a : α) :
    call.invalid param flaw ≠ .ok a := by
  simp [Call.invalid]

/-! ### Music -/

/-- Harmonic calls do nothing but emit actions. -/
theorem Chords.emitAll_of_apply {call : Call} {state next : State}
    (h : Chords.apply call state = .ok next) : ∃ actions, next = state.emitAll actions := by
  obtain ⟨actions, -, rfl⟩ := map_eq_ok.1 h
  exact ⟨actions, rfl⟩

/-- Percussive calls do nothing but emit actions. -/
theorem Drums.emitAll_of_apply {call : Call} {state next : State}
    (h : Drums.apply call state = .ok next) : ∃ actions, next = state.emitAll actions := by
  unfold Drums.apply at h
  split at h
  · obtain ⟨action, -, rfl⟩ := map_eq_ok.1 h
    exact ⟨[action], rfl⟩
  · obtain ⟨actions, -, rfl⟩ := map_eq_ok.1 h
    exact ⟨actions, rfl⟩
  · simp at h

/-! ### Tracks -/

namespace Tracks

/-- An action that is about a target and creates no track. -/
def ActsOn (target : Target) (action : Action) : Prop :=
  action.isCreation = false ∧ action.get? "track" = some (.nat target.track)

/-- A field other than the track may be set. -/
theorem ActsOn.set {target : Target} {action : Action} (h : ActsOn target action) {name : String}
    (hname : name ≠ "track") (value : Json) : ActsOn target (action.set name value) :=
  ⟨h.1, by rw [Action.get?_set, if_neg hname, h.2]⟩

/-- An action that is made on a target acts on it, if it creates no track. -/
theorem actsOn_actionOn {kind : String} (hkind : kind ≠ Action.Kind.createTrack) (target : Target) :
    ActsOn target (actionOn kind target) :=
  ⟨by simpa [actionOn, Action.isCreation] using hkind, by simp [actionOn]⟩

/-- What a method on tracks can do to a state. -/
inductive Effect (snapshot : Snapshot) (call : Call) (state : State) : State → Prop
  /-- Make an action for every target. -/
  | acted {targets : List Target} {actions : List Action} {next : State}
      (htargets : state.targets call = .ok (targets, next))
      (hactions : List.Forall₂ ActsOn targets actions) :
      Effect snapshot call state (next.emitAll actions)
  /-- Bind a track that is there. -/
  | referred {track : Nat} (htrack : track ∈ snapshot.indices ∨ track ∈ state.created) :
      Effect snapshot call state (state.dropFiltered.bind track)
  /-- Create a track and bind it. -/
  | created {action : Action} (explicit : Option Nat) (hcreation : action.isCreation = true)
      (hindex : action.get? "index" = some (.nat (state.newIndex explicit)))
      (hname : call.name = "track") (hexplicit : call.count? "index" = .ok explicit) :
      Effect snapshot call state ((state.create explicit).emit action)
  /-- Start over with all tracks. -/
  | listed : Effect snapshot call state
      ((state.storeCollection "tracks" snapshot.trackEntities).dropFiltered.unbind)
  /-- Collect the effects of a track. -/
  | collected {track : Nat} (htrack : state.boundTrack call = .ok track) :
      Effect snapshot call state
        (state.storeCollection "fx_chain" (snapshot.effectEntities track))

section

variable {snapshot : Snapshot} {call : Call} {state next : State} {make : Target → Action}
  (hmake : ∀ target, ActsOn target (make target))
include hmake

/-- Actions that are made of targets act on them one by one. -/
theorem forall₂_map (targets : List Target) :
    List.Forall₂ ActsOn targets (targets.map make) := by
  rw [List.forall₂_map_right_iff, List.forall₂_same]
  intro target _
  exact hmake target

/-- To emit for the targets of a call has the effect of a method. -/
theorem effect_of_forTargets (h : forTargets call state make = .ok next) :
    Effect snapshot call state next := by
  unfold forTargets at h
  split at h
  · simp at h
  · next targets _ htargets =>
    obtain rfl := Except.ok.inj h
    exact .acted htargets (forall₂_map hmake targets)

/-- To emit for the targets of a call that are tracks has the effect of a method. -/
theorem effect_of_forTracks (h : forTracks call state make = .ok next) :
    Effect snapshot call state next := by
  unfold forTracks at h
  split at h
  · simp at h
  · next targets _ htargets =>
    split at h
    · simp at h
    · obtain rfl := Except.ok.inj h
      exact .acted htargets (forall₂_map hmake targets)

end

section

variable {snapshot : Snapshot} {call : Call} {state next : State}

/-- To set a property has the effect of a method. -/
theorem effect_of_setProperty {kind field : String} {value : Except Fault Json}
    (hkind : kind ≠ Action.Kind.createTrack) (hfield : field ≠ "track")
    (h : setProperty call state kind field value = .ok next) : Effect snapshot call state next := by
  cases value with
  | error e => simp [setProperty] at h
  | ok value =>
      exact effect_of_forTracks (fun target => (actsOn_actionOn hkind target).set hfield value) h

/-- The selected track is one of the session. -/
theorem mem_indices_of_selectedTrack? {track : Nat} (h : snapshot.selectedTrack? = some track) :
    track ∈ snapshot.indices := by
  obtain ⟨found, hfound, rfl⟩ := Option.map_eq_some_iff.1 h
  exact List.mem_map_of_mem (List.mem_of_find?_eq_some hfound)

/-- To refer to a track by its index has the effect of a method. -/
theorem effect_of_refer {id : Nat} (h : state.refer snapshot call id = .ok next) :
    Effect snapshot call state next := by
  unfold State.refer at h
  split at h
  · simp at h
  · split at h
    · next hknown =>
      obtain rfl := Except.ok.inj h
      refine .referred ?_
      simpa [Snapshot.containsTrack, State.wasCreated] using hknown
    · simp at h

/-- To refer to the selected track has the effect of a method. -/
theorem effect_of_referSelected (h : state.referSelected snapshot call = .ok next) :
    Effect snapshot call state next := by
  unfold State.referSelected at h
  split at h
  · next hselected =>
    obtain rfl := Except.ok.inj h
    exact .referred (.inl (mem_indices_of_selectedTrack? hselected))
  · simp at h

/-- A field that may be set leaves the others. -/
theorem setSome_get?_of_ne {name other : String} (hname : name ≠ other) (action : Action)
    (value : Option Json) : (action.setSome name value).get? other = action.get? other := by
  cases value with
  | none => rfl
  | some value => exact (Action.get?_set action name other value).trans (if_neg hname)

/-- To refer to a track or to create one has the effect of a method. -/
theorem effect_of_track (hname : call.name = "track")
    (h : track snapshot call state = .ok next) : Effect snapshot call state next := by
  obtain ⟨id, -, h⟩ := bind_eq_ok.1 h
  -- A track is referred to by its number or as the selected one, and is created otherwise.
  cases id with
  | some id => exact effect_of_refer h
  | none =>
      obtain ⟨selected, -, h⟩ := bind_eq_ok.1 h
      split at h
      · exact effect_of_referSelected h
      · obtain ⟨instrument, -, h⟩ := bind_eq_ok.1 h
        obtain ⟨name, -, h⟩ := bind_eq_ok.1 h
        obtain ⟨explicit, hexplicit, h⟩ := bind_eq_ok.1 h
        obtain rfl := Except.ok.inj h
        refine .created explicit rfl ?_ hname hexplicit
        rw [setSome_get?_of_ne (by decide), setSome_get?_of_ne (by decide), Action.get?_set,
          if_pos rfl]

/-- To make a clip has the effect of a method. -/
theorem effect_of_newClip (h : newClip call state = .ok next) :
    Effect snapshot call state next := by
  obtain ⟨bar, -, h⟩ := bind_eq_ok.1 h
  cases bar with
  | some bar =>
      dsimp only at h
      split at h
      · simp at h
      · obtain ⟨length, -, h⟩ := bind_eq_ok.1 h
        exact effect_of_forTargets (fun target =>
          ((actsOn_actionOn (by decide) target).set (by decide) _).set (by decide) _) h
  | none =>
      obtain ⟨position, -, h⟩ := bind_eq_ok.1 h
      obtain ⟨length, -, h⟩ := bind_eq_ok.1 h
      exact effect_of_forTargets (fun target =>
        ((actsOn_actionOn (by decide) target).set (by decide) _).set (by decide) _) h

/-- To add notes has the effect of a method. -/
theorem effect_of_addMidi (h : addMidi call state = .ok next) :
    Effect snapshot call state next := by
  obtain ⟨notes, -, h⟩ := bind_eq_ok.1 h
  exact effect_of_forTargets
    (fun target => (actsOn_actionOn (by decide) target).set (by decide) _) h

/-- The action that adds an effect or an instrument creates no track. -/
theorem effectName_ne_createTrack {kind name : String} (h : effectName call = .ok (kind, name)) :
    kind ≠ Action.Kind.createTrack := by
  obtain ⟨effect, -, h⟩ := bind_eq_ok.1 h
  cases effect with
  | some effect =>
      cases h
      decide
  | none =>
      obtain ⟨instrument, -, h⟩ := bind_eq_ok.1 h
      cases instrument with
      | some instrument =>
          cases h
          decide
      | none => simp at h

/-- To add an effect or an instrument has the effect of a method. -/
theorem effect_of_addEffect (h : addEffect call state = .ok next) :
    Effect snapshot call state next := by
  obtain ⟨⟨kind, name⟩, hname, h⟩ := bind_eq_ok.1 h
  exact effect_of_forTargets (fun target =>
    (actsOn_actionOn (effectName_ne_createTrack hname) target).set (by decide) _) h

/-- The field that tells which clip is meant is not the track. -/
theorem clipField_ne_track {clip bar : Option Nat} {position : Option Float} {target : Target}
    {field : String} {value : Json} (h : clipField clip position bar target = some (field, value)) :
    field ≠ "track" := by
  unfold clipField at h
  split at h
  · cases h
    decide
  · cases h
    decide
  · cases h
    decide
  · split at h
    · cases h
      decide
    · simp at h
  · simp at h

/-- A list of targets each of which gives an action. -/
theorem forall₂_of_mapM {make : Target → Option Action}
    (hmake : ∀ target action, make target = some action → ActsOn target action)
    {targets : List Target} {actions : List Action} (h : targets.mapM make = some actions) :
    List.Forall₂ ActsOn targets actions := by
  induction targets generalizing actions with
  | nil =>
      obtain rfl : [] = actions := by simpa using h
      exact .nil
  | cons target rest ih =>
      simp only [List.mapM_cons, Option.bind_eq_bind, Option.bind_eq_some_iff, Option.pure_def,
        Option.some.injEq] at h
      obtain ⟨action, haction, more, hmore, rfl⟩ := h
      exact .cons (hmake target action haction) (ih hmore)

/-- To delete a clip has the effect of a method. -/
theorem effect_of_deleteClip (h : deleteClip call state = .ok next) :
    Effect snapshot call state next := by
  obtain ⟨clip, -, h⟩ := bind_eq_ok.1 h
  obtain ⟨position, -, h⟩ := bind_eq_ok.1 h
  obtain ⟨bar, -, h⟩ := bind_eq_ok.1 h
  obtain ⟨⟨targets, rest⟩, htargets, h⟩ := bind_eq_ok.1 h
  dsimp only at h
  split at h
  · next actions hactions =>
    obtain rfl := Except.ok.inj h
    refine .acted htargets (forall₂_of_mapM (fun target action haction => ?_) hactions)
    obtain ⟨⟨field, value⟩, hfield, rfl⟩ := Option.map_eq_some_iff.1 haction
    exact (actsOn_actionOn (by decide) target).set (clipField_ne_track hfield) value
  · simp at h

/-- A method on tracks does what `Effect` lists and nothing else. -/
theorem effect_of_apply (h : apply snapshot call state = .ok next) :
    Effect snapshot call state next := by
  unfold apply at h
  split at h
  · next hname => exact effect_of_track hname h
  · exact effect_of_newClip h
  · exact effect_of_addMidi h
  · exact effect_of_addEffect h
  · exact effect_of_setProperty (by decide) (by decide) h
  · exact effect_of_setProperty (by decide) (by decide) h
  · exact effect_of_setProperty (by decide) (by decide) h
  · exact effect_of_setProperty (by decide) (by decide) h
  · exact effect_of_setProperty (by decide) (by decide) h
  · exact effect_of_setProperty (by decide) (by decide) h
  · exact effect_of_forTracks (actsOn_actionOn (by decide)) h
  · exact effect_of_deleteClip h
  · obtain rfl := Except.ok.inj h
    exact .listed
  · obtain ⟨track, htrack, h⟩ := bind_eq_ok.1 h
    obtain rfl := Except.ok.inj h
    exact .collected htrack
  · simp at h

end

end Tracks

end Methods

end Studio
