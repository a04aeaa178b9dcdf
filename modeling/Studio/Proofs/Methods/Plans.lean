import Studio.Proofs.Methods.Effects

/-!
# What methods make of their targets

The methods that a chain can go on with (`chained`) first read their arguments and then make one
action of each thing they apply to, in order; a fault in the arguments does not depend on what that
is, and the first target that is at fault decides the rest (`planned_of_mem`). `Setter` is the
family of methods that set a property of a track, and `Setter.apply_eq` says what they make.
-/

namespace Studio.Methods.Tracks

open Studio.Action
open Studio.Script
open Studio.Session (Entity Snapshot)

/-- The methods that a chain can go on with. -/
def chained : List String :=
  ["new_clip", "add_midi", "add_fx", "set_volume", "set_pan", "set_mute", "set_solo", "set_name",
    "set_selected", "delete", "delete_clip"]

/-- What a call makes of each target once its arguments are read, or the fault of the arguments. -/
abbrev Plan := Except Fault (Target → Except Fault Action)

/-- Make an action of every target of a call. -/
def Plan.carryOut (plan : Plan) (call : Call) (state : State) : Except Fault State := do
  let make ← plan
  let (targets, next) ← state.targets call
  let actions ← targets.mapM make
  pure (next.emitAll actions)

/-- In every state, all that is done is to carry out one plan. -/
def Planned (call : Call) (act : State → Except Fault State) : Prop :=
  ∃ plan : Plan, ∀ state, act state = plan.carryOut call state

variable {call : Call}

/-- To carry out a plan without a fault is to make its actions of the targets and emit them. -/
theorem carryOut_ok {make : Target → Except Fault Action} {state : State} :
    Plan.carryOut (.ok make) call state =
      (state.targets call).bind fun found => (found.1.mapM make).map found.2.emitAll := by
  rw [Plan.carryOut]
  cases state.targets call with
  | error fault => rfl
  | ok found =>
    show (found.1.mapM make >>= fun actions => pure (found.2.emitAll actions)) = _
    simp only [Except.bind]
    cases found.1.mapM make <;> rfl

/-! ### One action for each target -/

section

variable {α β ε : Type}

/-- What never fails makes something of every item. -/
theorem mapM_ok (f : α → β) (items : List α) :
    items.mapM (fun item => (.ok (f item) : Except ε β)) = .ok (items.map f) := by
  induction items with
  | nil => rfl
  | cons item rest ih => simp [List.mapM_cons, ih, bind, Except.bind, pure, Except.pure]

/-- What may fail with one fault makes something of every item, or fails with that fault. -/
theorem mapM_elim (f : α → Option β) (fault : ε) (items : List α) :
    items.mapM (fun item => (f item).elim (.error fault : Except ε β) .ok) =
      (items.mapM f).elim (.error fault) .ok := by
  induction items with
  | nil => rfl
  | cons item rest ih =>
    simp only [List.mapM_cons, ih]
    cases f item with
    | none => rfl
    | some b => cases rest.mapM f <;> rfl

end

/-- An action on a track; another kind of entity is a fault. -/
def onTrack (call : Call) (make : Target → Action) (target : Target) : Except Fault Action :=
  match target.entity.filter fun entity => entity.kind ≠ .track with
  | some entity => call.invalid "target" (.tracksOnly call.name entity.kind.name)
  | none => .ok (make target)

/-- Actions for tracks are made of all targets, unless one of these is an entity of another kind. -/
theorem mapM_onTrack (make : Target → Action) (targets : List Target) :
    targets.mapM (onTrack call make) =
      match (targets.filterMap Target.entity).find? fun entity => entity.kind ≠ .track with
      | some entity => call.invalid "target" (.tracksOnly call.name entity.kind.name)
      | none => .ok (targets.map make) := by
  induction targets with
  | nil => rfl
  | cons target rest ih =>
    obtain ⟨track, entity⟩ := target
    rw [List.mapM_cons, ih]
    cases entity with
    | none =>
      simp only [onTrack, Option.filter_none, List.filterMap_cons]
      cases (rest.filterMap Target.entity).find? fun entity => entity.kind ≠ .track <;> rfl
    | some entity =>
      by_cases hkind : entity.kind = .track
      · simp only [onTrack, Option.filter, hkind, List.filterMap_cons, List.find?_cons]
        cases (rest.filterMap Target.entity).find? fun entity => entity.kind ≠ .track <;> rfl
      · simp only [onTrack, Option.filter, hkind, List.filterMap_cons, List.find?_cons, ne_eq,
          not_false_eq_true, decide_true]
        rfl

/-- To emit for the targets of a call is to carry out a plan. -/
theorem forTargets_eq (make : Target → Action) (state : State) :
    forTargets call state make =
      Plan.carryOut (.ok fun target => .ok (make target)) call state := by
  simp only [forTargets, carryOut_ok, mapM_ok]
  cases state.targets call <;> rfl

/-- To emit for targets that are tracks is to carry out a plan. -/
theorem forTracks_eq (make : Target → Action) (state : State) :
    forTracks call state make = Plan.carryOut (.ok (onTrack call make)) call state := by
  simp only [forTracks, carryOut_ok, mapM_onTrack]
  cases state.targets call with
  | error fault => rfl
  | ok found =>
    simp only [Except.bind]
    cases (found.1.filterMap Target.entity).find? fun entity => entity.kind ≠ .track <;> rfl

/-- To set a property is to carry out a plan that has the fault of its value. -/
theorem setProperty_eq (kind field : String) (value : Except Fault Json) (state : State) :
    setProperty call state kind field value =
      Plan.carryOut (value.map fun value =>
        onTrack call fun target => (actionOn kind target).set field value) call state := by
  cases value with
  | error fault => rfl
  | ok value => exact forTracks_eq _ state

/-! ### Plans of the methods -/

/-- Reading an argument first leaves what follows a plan, as it does not look at the state. -/
theorem planned_bind {α : Type} {x : Except Fault α} {act : α → State → Except Fault State}
    (h : ∀ a, Planned call (act a)) : Planned call fun state => x >>= fun a => act a state := by
  cases x with
  | error fault => exact ⟨.error fault, fun _ => rfl⟩
  | ok a => exact h a

/-- What emits for the targets of a call is planned. -/
theorem planned_forTargets (make : Target → Action) :
    Planned call fun state => forTargets call state make :=
  ⟨_, forTargets_eq make⟩

/-- What emits for targets that are tracks is planned. -/
theorem planned_forTracks (make : Target → Action) :
    Planned call fun state => forTracks call state make :=
  ⟨_, forTracks_eq make⟩

/-- What sets a property is planned. -/
theorem planned_setProperty (kind field : String) (value : Except Fault Json) :
    Planned call fun state => setProperty call state kind field value :=
  ⟨_, setProperty_eq kind field value⟩

/-- A new clip is planned. -/
theorem planned_newClip : Planned call (newClip call) := by
  refine planned_bind fun bar => ?_
  cases bar with
  | some bar =>
    by_cases hbar : bar = 0
    · exact ⟨.error _, fun state => by simp only [if_pos hbar]; rfl⟩
    · simp only [if_neg hbar]
      exact planned_bind fun length => planned_forTargets _
  | none => exact planned_bind fun position => planned_bind fun length => planned_forTargets _

/-- Adding notes is planned. -/
theorem planned_addMidi : Planned call (addMidi call) :=
  planned_bind fun _ => planned_forTargets _

/-- Adding an effect is planned. -/
theorem planned_addEffect : Planned call (addEffect call) :=
  planned_bind fun _ => planned_forTargets _

/-- What makes an action of every target or fails with one fault is planned. -/
theorem planned_mapM (make : Target → Option Action) (fault : Fault) :
    Planned call (fun state => do
      let (targets, next) ← state.targets call
      match targets.mapM make with
      | some actions => pure (next.emitAll actions)
      | none => throw fault) := by
  refine ⟨.ok fun target => (make target).elim (.error fault) .ok, fun state => ?_⟩
  simp only [carryOut_ok, mapM_elim]
  cases state.targets call with
  | error fault => rfl
  | ok found =>
    simp only [bind, Except.bind]
    cases found.1.mapM make <;> rfl

/-- Deleting a clip is planned. -/
theorem planned_deleteClip : Planned call (deleteClip call) :=
  planned_bind fun _ => planned_bind fun _ => planned_bind fun _ => planned_mapM _ _

/-- The methods that a chain can go on with carry out plans. -/
theorem planned_of_mem {snapshot : Snapshot} (h : call.name ∈ chained) :
    Planned call (apply snapshot call) := by
  unfold apply
  simp only [chained, List.mem_cons, List.not_mem_nil, or_false] at h
  rcases h with h | h | h | h | h | h | h | h | h | h | h <;> simp only [h]
  · exact planned_newClip
  · exact planned_addMidi
  · exact planned_addEffect
  · exact planned_setProperty ..
  · exact planned_setProperty ..
  · exact planned_setProperty ..
  · exact planned_setProperty ..
  · exact planned_setProperty ..
  · exact planned_setProperty ..
  · exact planned_forTracks _
  · exact planned_deleteClip

/-! ### Setters -/

/-- The properties of tracks that have a method to set them. -/
inductive Setter where
  | volume
  | pan
  | mute
  | solo
  | name
  | selected
deriving DecidableEq, Repr

namespace Setter

/-- The method that sets the property. -/
def method : Setter → String
  | volume => "set_volume"
  | pan => "set_pan"
  | mute => "set_mute"
  | solo => "set_solo"
  | name => "set_name"
  | selected => "set_selected"

/-- The kind of the actions. -/
def kind : Setter → String
  | volume => Kind.setTrackVolume
  | pan => Kind.setTrackPan
  | mute => Kind.setTrackMute
  | solo => Kind.setTrackSolo
  | name => Kind.setTrackName
  | selected => Kind.setTrackSelected

/-- The name of the parameter and of the field of the actions. -/
def field : Setter → String
  | volume => "volume_db"
  | pan => "pan"
  | mute => "mute"
  | solo => "solo"
  | name => "name"
  | selected => "selected"

/-- The kind of values that the property has. -/
def takes : Setter → ValueKind
  | volume | pan => .number
  | mute | solo | selected => .bool
  | name => .string

/-- The value that a call gives. -/
def read (call : Call) : Setter → Except Fault Json
  | volume => (call.number (.inSlot "volume_db" 0)).map .ofNumber
  | pan => (call.number (.inSlot "pan" 0)).map .ofNumber
  | mute => (call.bool (.inSlot "mute" 0)).map .bool
  | solo => (call.bool (.inSlot "solo" 0)).map .bool
  | name => (call.string (.inSlot "name" 0)).map .string
  | selected => (call.bool (.inSlot "selected" 0)).map .bool

/-- The action that sets the property of a track. -/
def action (setter : Setter) (value : Value) (track : Nat) : Action :=
  ((⟨setter.kind, []⟩ : Action).set "track" (.nat track)).set setter.field value.toJson

end Setter

section

variable {param : Param}

/-- A parameter that holds a text gives it. -/
theorem string_of_param? {text : String} (h : call.param? param = some (.string text)) :
    call.string param = .ok text := by
  simp [Call.string, Call.string?, Call.typed, Call.required, Value.asString?, h]

/-- A parameter that holds a number gives it. -/
theorem number_of_param? {x : Float} (h : call.param? param = some (.number x)) :
    call.number param = .ok x := by
  simp [Call.number, Call.number?, Call.typed, Call.required, Value.asNumber?, h]

/-- A parameter that holds a truth value gives it. -/
theorem bool_of_param? {flag : Bool} (h : call.param? param = some (.bool flag)) :
    call.bool param = .ok flag := by
  simp [Call.bool, Call.bool?, Call.typed, Call.required, Value.asBool?, h]

/-- A parameter that holds an array gives its items. -/
theorem array_of_param? {items : List Value} (h : call.param? param = some (.array items)) :
    call.array param = .ok items := by
  simp [Call.array, Call.array?, Call.typed, Call.required, Value.asArray?, h]

end

/-- The only argument gives the parameter in the first slot, named or not. -/
theorem param?_single {method name : String} {argument : Argument}
    (hname : argument.name = none ∨ argument.name = some name)
    (hvalue : argument.value.kind ≠ .none) :
    (⟨method, [argument]⟩ : Call).param? (.inSlot name 0) = some argument.value := by
  obtain ⟨label, value⟩ := argument
  have hfound : ((⟨method, [⟨label, value⟩]⟩ : Call).named? name).or
      ((some 0).bind (⟨method, [⟨label, value⟩]⟩ : Call).positional?) = some value := by
    rcases hname with rfl | rfl <;> simp [Call.named?, Call.positional?]
  simp only [Call.param?, Param.inSlot, hfound]
  cases value <;> first | rfl | exact absurd rfl hvalue

namespace Setter

/-- A setter reads the value of its parameter, if it is of the kind that the setter takes. -/
theorem read_eq {setter : Setter} {value : Value}
    (h : call.param? (.inSlot setter.field 0) = some value) (hvalue : value.kind = setter.takes) :
    setter.read call = .ok value.toJson := by
  cases setter <;> cases value <;> try cases hvalue
  · exact congrArg (Except.map Json.ofNumber) (number_of_param? h)
  · exact congrArg (Except.map Json.ofNumber) (number_of_param? h)
  · exact congrArg (Except.map Json.bool) (bool_of_param? h)
  · exact congrArg (Except.map Json.bool) (bool_of_param? h)
  · exact congrArg (Except.map Json.string) (string_of_param? h)
  · exact congrArg (Except.map Json.bool) (bool_of_param? h)

/-- The methods of setters can be chained. -/
theorem mem_chained (setter : Setter) : setter.method ∈ chained := by
  cases setter <;> decide

/-- A setter with a value of the right kind makes an action with that value of each track. -/
theorem apply_eq (setter : Setter) {snapshot : Snapshot} {argument : Argument}
    (hname : argument.name = none ∨ argument.name = some setter.field)
    (hvalue : argument.value.kind = setter.takes) (state : State) :
    apply snapshot ⟨setter.method, [argument]⟩ state =
      Plan.carryOut (.ok (onTrack ⟨setter.method, [argument]⟩ fun target =>
        setter.action argument.value target.track)) ⟨setter.method, [argument]⟩ state := by
  have hnone : argument.value.kind ≠ .none := by
    rw [hvalue]
    cases setter <;> decide
  have happly (call : Call) (h : call.name = setter.method) :
      apply snapshot call state =
        setProperty call state setter.kind setter.field (setter.read call) := by
    unfold apply
    rw [h]
    cases setter <;> rfl
  rw [happly _ rfl, setProperty_eq, read_eq (param?_single hname hnone) hvalue]
  rfl

end Setter

end Studio.Methods.Tracks
