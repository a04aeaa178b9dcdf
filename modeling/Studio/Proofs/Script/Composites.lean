import Studio.Proofs.Methods.Plans
import Studio.Proofs.Script.Steps

/-!
# Calls that are made of calls

A choice and a beat take calls in a list. A choice does what the calls of its list do one after
another; a beat puts its settings in front of what they add (`Drums.beat_eq`). The two differ in how
they fail: a choice has by then added what the calls in front of the failing one add, a beat has
added nothing. Carrying a call out either gives a state or a fault, which does not show this; so
both are also carried out in place (`Chords.inPlace`, `Drums.inPlace`), where a fault leaves the
state as it is by then.
-/

namespace Studio

open Studio.Action
open Studio.Script
open Studio.Session (Snapshot)

/-! ### Lists of calls -/

namespace Script

/-- The items of a list are methods that are handed over, and amount to these calls. -/
def HandsOver (items : List Value) (calls : List Call) : Prop :=
  List.Forall₂ (fun item call => item.asFunction?.map Function.call = some call) items calls

/-- To emit nothing changes nothing. -/
@[simp] theorem State.emitAll_nil (state : State) : state.emitAll [] = state := by
  simp [State.emitAll]

/-- To emit twice is to emit both runs at once. -/
@[simp] theorem State.emitAll_emitAll (state : State) (first second : List Action) :
    (state.emitAll first).emitAll second = state.emitAll (first ++ second) := by
  simp [State.emitAll]

section

variable (capability : Capability) (snapshot : Snapshot)

/-- One of the calls fails so, and those in front of it succeed. -/
def FailsFirst (calls : List Call) (state : State) (fault : Fault) : Prop :=
  ∃ before first after reached, calls = before ++ first :: after ∧
    runCalls capability snapshot before state = .ok reached ∧
    dispatch capability snapshot first reached = .error fault

variable {capability snapshot}

/-- Calls one after another fail just as the first of them that fails. -/
theorem runCalls_eq_error {calls : List Call} {state : State} {fault : Fault} :
    runCalls capability snapshot calls state = .error fault ↔
      FailsFirst capability snapshot calls state fault := by
  constructor
  · intro h
    induction calls generalizing state with
    | nil => cases h
    | cons call rest ih =>
        rw [runCalls] at h
        cases hcall : dispatch capability snapshot call state with
        | error e =>
            rw [hcall] at h
            exact ⟨[], call, rest, state, rfl, rfl, hcall.trans h⟩
        | ok next =>
            rw [hcall] at h
            obtain ⟨before, first, after, reached, rfl, hbefore, hfirst⟩ := ih h
            exact ⟨call :: before, first, after, reached, rfl,
              runCalls_cons_eq_ok.2 ⟨next, hcall, hbefore⟩, hfirst⟩
  · rintro ⟨before, first, after, reached, rfl, hbefore, hfirst⟩
    rw [runCalls_append, hbefore, Except.bind, runCalls, hfirst]

end

/-! ### In place -/

/-- Work on a state in place. Where it fails, the state stays as it is by then. -/
abbrev Work := EStateM Fault State Unit

namespace Work

/-- Add actions, if they can be made. -/
def add (made : Except Fault (List Action)) : Work := do
  let actions ← MonadExcept.ofExcept made
  modify fun state => state.emitAll actions

/-- What is left of work when the state at a fault is given up. -/
def outcome (work : Work) (state : State) : Except Fault State :=
  match work state with
  | .ok () next => .ok next
  | .error fault _ => .error fault

variable {state : State}

/-- Work that does nothing leaves the state. -/
@[simp] theorem outcome_pure : outcome (pure ()) state = .ok state := rfl

/-- Work that fails has its fault as outcome. -/
@[simp] theorem outcome_throw (fault : Fault) : outcome (throw fault) state = .error fault := rfl

/-- Work that adds actions has them emitted, or the fault of making them. -/
@[simp] theorem outcome_add (made : Except Fault (List Action)) :
    outcome (add made) state = made.map state.emitAll := by
  cases made <;> rfl

/-- Work behind work goes on where the first left the state. -/
@[simp] theorem outcome_bind (first : Work) (second : Unit → Work) :
    outcome (first >>= second) state = (outcome first state).bind (outcome (second ())) := by
  simp only [outcome, bind, EStateM.bind]
  cases first state <;> rfl

/-- If every call is carried out in place, so are they one after another. -/
theorem outcome_forM {capability : Capability} {snapshot : Snapshot} {inPlace : Call → Work}
    {calls : List Call} (h : ∀ call ∈ calls, ∀ state,
      outcome (inPlace call) state = dispatch capability snapshot call state) :
    outcome (forM calls inPlace) state = runCalls capability snapshot calls state := by
  induction calls generalizing state with
  | nil => rfl
  | cons call rest ih =>
      obtain ⟨hcall, hrest⟩ := List.forall_mem_cons.1 h
      rw [List.forM_cons, outcome_bind, hcall, runCalls]
      cases dispatch capability snapshot call state with
      | error fault => rfl
      | ok next => exact ih hrest

end Work

end Script

/-! ### Choices -/

namespace Methods.Chords

/-- Carry out the calls of a choice in place, each before the next is looked at. -/
def chooseInPlace (call : Call) : List Value → Work
  | [] => pure ()
  | item :: rest =>
    match item.asFunction? with
    | none => throw (.typeMismatch call.name "calls" .function item.kind)
    | some function => do
      Work.add (describe function.call)
      chooseInPlace call rest

/-- Carry out a call in place. -/
def inPlace (call : Call) : Work :=
  if call.name = "choice" then do
    chooseInPlace call (← MonadExcept.ofExcept (call.array (.inSlot "calls" 1)))
  else Work.add (describe call)

/-- A choice of calls, behind any description. The calls are to methods of musical content, and none
is a choice itself. -/
structure Chooses (call : Call) (calls : List Call) : Prop where
  name : call.name = "choice"
  handed : ∃ items, call.param? (.inSlot "calls" 1) = some (.array items) ∧ HandsOver items calls
  methods : ∀ inner ∈ calls, inner.name ∈ names ∧ inner.name ≠ "choice"

/-- A choice in place emits what its calls make together, or fails with the fault of one. -/
theorem outcome_chooseInPlace (call : Call) (items : List Value) (state : State) :
    (chooseInPlace call items).outcome state = (chosen call items).map state.emitAll := by
  induction items generalizing state with
  | nil => simp [chooseInPlace, chosen, Except.map]
  | cons item rest ih =>
      rw [chooseInPlace, chosen]
      cases item.asFunction? with
      | none => rfl
      | some function =>
          dsimp only
          rw [Work.outcome_bind, Work.outcome_add]
          cases describe function.call with
          | error fault => rfl
          | ok actions =>
              refine (ih (state.emitAll actions)).trans ?_
              cases chosen call rest with
              | error fault => rfl
              | ok more => exact congrArg Except.ok (State.emitAll_emitAll ..)

/-- A harmonic call in place does what its method does. -/
theorem outcome_inPlace (call : Call) (state : State) :
    (inPlace call).outcome state = apply call state := by
  rw [inPlace, apply]
  split
  · rw [choice]
    cases call.array (.inSlot "calls" 1) with
    | error fault => rfl
    | ok items => exact outcome_chooseInPlace call items state
  · exact Work.outcome_add _

/-- A choice of calls that are no choices carries each of them out in place. -/
theorem chooseInPlace_eq (call : Call) {items : List Value} {calls : List Call}
    (handed : HandsOver items calls) (h : ∀ inner ∈ calls, inner.name ≠ "choice") :
    chooseInPlace call items = forM calls inPlace := by
  induction handed with
  | nil => rfl
  | cons hitem _ ih =>
      obtain ⟨hname, hrest⟩ := List.forall_mem_cons.1 h
      obtain ⟨function, hfunction, rfl⟩ := Option.map_eq_some_iff.1 hitem
      rw [chooseInPlace, hfunction, List.forM_cons, inPlace, if_neg hname, ← ih hrest]

/-- A choice is carried out in place as its calls are. -/
theorem Chooses.inPlace_eq {call : Call} {calls : List Call} (chooses : Chooses call calls) :
    inPlace call = forM calls inPlace := by
  obtain ⟨items, hitems, handed⟩ := chooses.handed
  have hchoose := chooseInPlace_eq call handed fun inner hinner => (chooses.methods inner hinner).2
  rw [← hchoose, inPlace, if_pos chooses.name, Tracks.array_of_param? hitems]
  rfl

section

variable {snapshot : Snapshot} {call : Call} {calls : List Call} {state : State}

/-- A harmonic call is dispatched to what it does in place. -/
theorem dispatch_eq_outcome (h : call.name ∈ names) :
    dispatch .arranger snapshot call state = (inPlace call).outcome state := by
  rw [dispatch_of_mem h, outcome_inPlace]
  rfl

/-- A choice is carried out as the calls of its list are, one after another. -/
theorem Chooses.dispatch_eq (chooses : Chooses call calls) :
    dispatch .arranger snapshot call state = runCalls .arranger snapshot calls state := by
  rw [dispatch_eq_outcome (by rw [chooses.name]; decide), chooses.inPlace_eq]
  refine Work.outcome_forM fun inner hinner state => ?_
  exact (dispatch_eq_outcome (chooses.methods inner hinner).1).symm

end

end Methods.Chords

/-! ### Beats -/

namespace Methods.Drums

/-- Carry out a call in place. A beat makes all its actions before it adds the first. -/
def inPlace (call : Call) : Work :=
  match call.name with
  | "pattern" => Work.add ((pattern call).map ([·]))
  | "beat" => Work.add (beat call)
  | name => throw (.unknownMethod .drummer name)

/-- The settings of a beat. -/
structure BeatSettings where
  bars : Nat
  tempo : Option Float
  swing : Float
  subdivision : Nat

namespace BeatSettings

/-- The action for the settings. -/
def action (settings : BeatSettings) : Action :=
  (⟨Kind.drumBeat, []⟩ : Action)
    |>.set "bars" (.nat settings.bars)
    |>.setSome "tempo" (settings.tempo.map Json.ofNumber)
    |>.set "swing" (.ofNumber settings.swing)
    |>.set "subdivision" (.nat settings.subdivision)

/-- A call gives the settings. Without them a beat is one bar long, without swing, in sixteen cells
and at no tempo of its own. -/
structure GivenBy (settings : BeatSettings) (call : Call) : Prop where
  bars : (call.count? "bars").map (·.getD 1) = .ok settings.bars
  tempo : call.number? "tempo" = .ok settings.tempo
  swing : (call.number? "swing").map (·.getD 0) = .ok settings.swing
  subdivision : (call.count? "subdivision").map (·.getD 16) = .ok settings.subdivision

/-- The settings are in their ranges. -/
structure Valid (settings : BeatSettings) : Prop where
  bars : 1 ≤ settings.bars ∧ settings.bars ≤ barsLimit
  tempo : ∀ tempo ∈ settings.tempo, ¬ tempo ≤ 0
  swing : 0 ≤ settings.swing ∧ settings.swing ≤ 100
  subdivision : 1 ≤ settings.subdivision ∧ settings.subdivision ≤ subdivisionLimit

end BeatSettings

/-- A beat of at least one pattern, with settings in their ranges. -/
structure Beats (call : Call) (settings : BeatSettings) (calls : List Call) : Prop where
  name : call.name = "beat"
  handed : ∃ items, call.param? (.inSlot "patterns" 0) = some (.array items) ∧
    HandsOver items calls
  nonempty : calls ≠ []
  patterns : ∀ inner ∈ calls, inner.name = "pattern"
  given : settings.GivenBy call
  valid : settings.Valid

/-- A pattern in place adds its action. -/
theorem inPlace_of_pattern {call : Call} (h : call.name = "pattern") :
    inPlace call = Work.add ((pattern call).map ([·])) := by
  simp only [inPlace, h]

/-- A beat in place adds its settings and its patterns. -/
theorem inPlace_of_beat {call : Call} (h : call.name = "beat") :
    inPlace call = Work.add (beat call) := by
  simp only [inPlace, h]

/-- A percussive call in place does what its method does. -/
theorem outcome_inPlace (call : Call) (state : State) :
    (inPlace call).outcome state = apply call state := by
  by_cases hpattern : call.name = "pattern"
  · rw [inPlace_of_pattern hpattern, Work.outcome_add]
    simp only [apply, hpattern]
    cases pattern call <;> rfl
  · by_cases hbeat : call.name = "beat"
    · rw [inPlace_of_beat hbeat, Work.outcome_add]
      simp only [apply, hbeat]
    · simp [inPlace, apply]

/-- A count within its bounds is given or is the default. -/
theorem countUpTo_eq_ok {call : Call} {param : String} {default limit n : Nat}
    (hn : (call.count? param).map (·.getD default) = .ok n) (hrange : 1 ≤ n ∧ n ≤ limit) :
    countUpTo call param default limit = .ok n := by
  obtain ⟨given, hgiven, rfl⟩ := map_eq_ok.1 hn
  have hin : ¬ (given.getD default = 0 ∨ limit < given.getD default) := by omega
  simp only [countUpTo, hgiven, bind, Except.bind, Bool.or_eq_true, decide_eq_true_eq, hin,
    if_false]
  rfl

/-- Settings in their ranges make the first action, and the patterns make the others. -/
theorem beat_eq {call : Call} {items : List Value} {settings : BeatSettings}
    (hitems : call.param? (.inSlot "patterns" 0) = some (.array items)) (hne : items ≠ [])
    (given : settings.GivenBy call) (valid : settings.Valid) :
    beat call = (patterns call items).map (settings.action :: ·) := by
  obtain ⟨swing, hswing, hsettings⟩ := map_eq_ok.1 given.swing
  have hpositive : ¬ settings.tempo.any (· ≤ 0) = true := by
    simpa [Option.any_eq_true] using valid.tempo
  have hbetween : isBetween 0 100 settings.swing = true := by
    simpa [isBetween] using valid.swing
  simp only [beat, Tracks.array_of_param? hitems, countUpTo_eq_ok given.bars valid.bars,
    countUpTo_eq_ok given.subdivision valid.subdivision, given.tempo, hswing, bind, Except.bind,
    List.isEmpty_iff, hne, hpositive, hsettings, hbetween, Bool.not_true, Bool.false_eq_true,
    if_false]
  cases patterns call items <;> rfl

/-- A percussive call is dispatched to what it does in place. -/
theorem dispatch_eq_outcome {snapshot : Snapshot} {call : Call} {state : State}
    (h : call.name ∈ names) :
    dispatch .drummer snapshot call state = (inPlace call).outcome state := by
  rw [dispatch_of_mem h, outcome_inPlace]
  rfl

/-- The patterns of a beat add the same as calls of their own. -/
theorem runCalls_eq {snapshot : Snapshot} (call : Call) {items : List Value} {calls : List Call}
    (handed : HandsOver items calls) (h : ∀ inner ∈ calls, inner.name = "pattern")
    (state : State) :
    runCalls .drummer snapshot calls state = (patterns call items).map state.emitAll := by
  induction handed generalizing state with
  | nil => simp [runCalls, patterns, Except.map]
  | @cons _ _ rest _ hitem _ ih =>
      obtain ⟨hname, hrest⟩ := List.forall_mem_cons.1 h
      obtain ⟨function, hfunction, rfl⟩ := Option.map_eq_some_iff.1 hitem
      rw [runCalls, dispatch_eq_outcome (by rw [hname]; decide), inPlace_of_pattern hname,
        Work.outcome_add, patterns, hfunction]
      simp only [hname, ne_eq, not_true_eq_false, if_false]
      cases pattern function.call with
      | error fault => rfl
      | ok action =>
          -- What a pattern adds does not depend on the state.
          refine (ih hrest (state.emitAll [action])).trans ?_
          cases patterns call rest with
          | error fault => rfl
          | ok more => exact congrArg Except.ok (State.emitAll_emitAll state [action] more)

end Methods.Drums

/-! ### Both -/

namespace Script

open Methods

/-- A choice fails or goes on just as the calls of its list do one after another, with what they
have added by then. A beat adds its settings in front of what its patterns add as calls of their
own; where one of these fails, it fails in the same way and has added nothing. -/
theorem composites_flatten (snapshot : Snapshot) (call : Call) (calls : List Call) (state : State) :
    (Chords.Chooses call calls →
      dispatch .arranger snapshot call state = runCalls .arranger snapshot calls state ∧
      Chords.inPlace call state = forM calls Chords.inPlace state) ∧
    ∀ settings, Drums.Beats call settings calls →
      (∃ actions, runCalls .drummer snapshot calls state = .ok (state.emitAll actions) ∧
        dispatch .drummer snapshot call state =
          .ok (state.emitAll (settings.action :: actions))) ∨
      ∃ fault, FailsFirst .drummer snapshot calls state fault ∧
        dispatch .drummer snapshot call state = .error fault ∧
        Drums.inPlace call state = .error fault state := by
  refine ⟨fun chooses => ⟨chooses.dispatch_eq, congrFun chooses.inPlace_eq state⟩, ?_⟩
  intro settings beats
  obtain ⟨items, hitems, handed⟩ := beats.handed
  have hne : items ≠ [] := by
    rintro rfl
    exact beats.nonempty (List.forall₂_nil_left_iff.1 handed)
  have hrun : runCalls .drummer snapshot calls state =
      (Drums.patterns call items).map state.emitAll :=
    Drums.runCalls_eq call handed beats.patterns state
  rw [Drums.dispatch_eq_outcome (by rw [beats.name]; decide), Drums.inPlace_of_beat beats.name,
    Drums.beat_eq hitems hne beats.given beats.valid, Work.outcome_add]
  -- A beat fails before its first action, so either all is added or nothing.
  cases hpatterns : Drums.patterns call items with
  | ok actions =>
      rw [hpatterns] at hrun
      exact .inl ⟨actions, hrun, rfl⟩
  | error fault =>
      rw [hpatterns] at hrun
      exact .inr ⟨fault, runCalls_eq_error.1 hrun, rfl, rfl⟩

/-- A choice of a chord and of a reference, and a beat of a kick and a snare over two bars. -/
theorem composites_flatten_alternatives :
    let chord : Call := ⟨"chord", [⟨none, .string "F"⟩]⟩
    let choice : Call := ⟨"choice", [⟨none, .string "brighter"⟩,
      ⟨none, .array [.invocation none chord, .reference "composition"]⟩]⟩
    let kick : Call := ⟨"pattern", [⟨none, .string "kick"⟩, ⟨none, .string "x---"⟩]⟩
    let snare : Call := ⟨"pattern", [⟨none, .string "snare"⟩, ⟨none, .string "--x-"⟩]⟩
    let beat : Call := ⟨"beat",
      [⟨some "patterns", .array [.invocation none kick, .invocation none snare]⟩,
        ⟨some "bars", .number 2⟩, ⟨some "tempo", .number 120⟩]⟩
    let settings : Drums.BeatSettings := ⟨2, some 120, 0, 16⟩
    let session : Snapshot := ⟨[]⟩
    let state := State.start session
    Chords.Chooses choice [chord, ⟨"composition", []⟩] ∧
      dispatch .arranger session choice state =
        runCalls .arranger session [chord, ⟨"composition", []⟩] state ∧
      Drums.Beats beat settings [kick, snare] ∧
      ∃ actions, runCalls .drummer session [kick, snare] state = .ok (state.emitAll actions) ∧
        dispatch .drummer session beat state =
          .ok (state.emitAll (settings.action :: actions)) := by
  intro chord choice kick snare beat settings session state
  have chooses : Chords.Chooses choice [chord, ⟨"composition", []⟩] := {
    name := rfl
    handed := ⟨_, rfl, .cons rfl (.cons rfl .nil)⟩
    methods := by decide }
  have beats : Drums.Beats beat settings [kick, snare] := {
    name := rfl
    handed := ⟨_, rfl, .cons rfl (.cons rfl .nil)⟩
    nonempty := List.cons_ne_nil _ _
    patterns := by decide
    given := ⟨rfl, rfl, rfl, rfl⟩
    valid := ⟨by decide, by decide +kernel, by decide +kernel, by decide⟩ }
  refine ⟨chooses, ((composites_flatten session choice _ state).1 chooses).1, beats, ?_⟩
  refine ((composites_flatten session beat [kick, snare] state).2 settings beats).resolve_right ?_
  rintro ⟨fault, hfails, -⟩
  cases runCalls_eq_error.2 hfails

end Script

end Studio
