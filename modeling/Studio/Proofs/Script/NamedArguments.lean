import Mathlib.Data.List.Forall2
import Studio.Proofs.Methods.Parameters
import Studio.Proofs.Script.Steps

/-!
# Where named arguments stand

A call that is replaced by an interchangeable one (`Call.Interchangeable`) leaves what a script
amounts to as it is (`interpretProgram_congr`). Named arguments may therefore stand anywhere among
the others (`interpretProgram_rearranged`), and one that is `none` may be left out
(`interpretProgram_without_none`) unless it hides a value that stands in the slot of its parameter
(`hidden_by_none`).
-/

namespace Studio.Script

open Studio.Session (Entity Snapshot)

variable {capability : Capability} {snapshot : Snapshot} {a b : Call}

/-- Two calls that nothing tells apart: they give the same values to the parameters, among them the
method and the collection in the same order. -/
structure Call.Interchangeable (a b : Call) : Prop where
  order : a.handsOverFirst = b.handsOverFirst
  alike : a.Alike a.parameters b

/-- A call may take its own place. -/
theorem Call.Interchangeable.refl (call : Call) : call.Interchangeable call :=
  ⟨rfl, rfl, fun _ _ => rfl⟩

/-! ### Collections -/

/-- Which entities match depends on a call through its name only. -/
theorem matching_congr (hname : a.name = b.name) (p : Predicate) (name : String)
    (entities : List Entity) : matching a p name entities = matching b p name entities := by
  induction entities with
  | nil => rfl
  | cons entity rest ih => simp only [matching, ih, hname]

/-- A filter depends on its collection and its predicate only. -/
theorem filter_congr (h : a.Alike [.inSlot "collection" 0, .inSlot "predicate" 1] b)
    (state : State) : state.filter a = state.filter b := by
  have hcollection : a.string (.inSlot "collection" 0) = b.string (.inSlot "collection" 0) :=
    h.string (by simp)
  have hpredicate : a.predicate (.inSlot "predicate" 1) = b.predicate (.inSlot "predicate" 1) :=
    h.predicate (by simp)
  simp only [State.filter, hcollection, hpredicate, matching_congr h.name, h.name, h.invalid]

/-- What is stored depends on the name and the collection only. -/
theorem store_congr (h : a.Alike [.inSlot "name" 0, .inSlot "collection" 1] b)
    (state : State) : state.store a = state.store b := by
  have hname : a.string (.inSlot "name" 0) = b.string (.inSlot "name" 0) := h.string (by simp)
  have hcollection : a.string (.inSlot "collection" 1) = b.string (.inSlot "collection" 1) :=
    h.string (by simp)
  simp only [State.store, hname, hcollection]

/-- The collection and the method to walk through it depend on their parameters and their order
only. -/
theorem collectionAndFunction_congr (horder : a.handsOverFirst = b.handsOverFirst)
    (h : a.Alike a.walked b) : collectionAndFunction a = collectionAndFunction b := by
  simp only [collectionAndFunction, ← Call.handsOverFirst.eq_def, ← horder]
  unfold Call.walked at h
  split
  · next hfirst =>
    rw [if_pos hfirst] at h
    rw [h.function (by simp), h.string (by simp)]
  · next hfirst =>
    rw [if_neg hfirst] at h
    rw [h.string (by simp), h.function (by simp)]

/-- A walk through entities depends on a call through its name only. -/
theorem visitAll_congr (hname : a.name = b.name) (function : Function) (name : String)
    (entities : List Entity) (state : State) :
    visitAll capability snapshot a function name entities state =
      visitAll capability snapshot b function name entities state := by
  induction entities generalizing state with
  | nil => rfl
  | cons entity rest ih => simp only [visitAll, ih, hname]

/-- A loop depends on what it walks through only. -/
theorem forEach_congr (hname : a.name = b.name)
    (hwalk : collectionAndFunction a = collectionAndFunction b) (keep : Bool) (state : State) :
    forEach capability snapshot a keep state = forEach capability snapshot b keep state := by
  simp only [forEach, hwalk, visitAll_congr hname, hname]

/-- A map depends on what it walks through only. -/
theorem mapCollection_congr (hname : a.name = b.name)
    (hwalk : collectionAndFunction a = collectionAndFunction b) (state : State) :
    mapCollection capability snapshot a state = mapCollection capability snapshot b state := by
  simp only [mapCollection, hwalk, forEach_congr hname hwalk]

/-! ### Scripts -/

/-- Interchangeable calls do the same in every state. -/
theorem dispatch_congr (h : a.Interchangeable b) (state : State) :
    dispatch capability snapshot a state = dispatch capability snapshot b state := by
  obtain ⟨horder, h⟩ := h
  have hname := h.name
  by_cases hcollection : a.name ∈ collectionMethods
  · simp only [collectionMethods, List.mem_cons, List.not_mem_nil, or_false] at hcollection
    rcases hcollection with ha | ha | ha | ha <;>
      simp only [Call.parameters, ha] at h <;>
      simp only [dispatch, ha, ha ▸ hname.symm]
    · exact filter_congr h state
    · exact forEach_congr hname (collectionAndFunction_congr horder h) false state
    · exact mapCollection_congr hname (collectionAndFunction_congr horder h) state
    · exact store_congr h state
  · rw [dispatch_of_not_mem hcollection, dispatch_of_not_mem (hname ▸ hcollection)]
    simp only [unknownMethod, ← hname]
    split
    · next hmethod => exact Methods.apply_congr (List.contains_iff_mem.1 hmethod) h
    · rfl

/-- Calls that may take the place of others run as these do. -/
theorem runCalls_congr {calls others : List Call}
    (h : List.Forall₂ Call.Interchangeable calls others) (state : State) :
    runCalls capability snapshot calls state = runCalls capability snapshot others state := by
  induction h generalizing state with
  | nil => rfl
  | cons hcall _ ih => simp only [runCalls, dispatch_congr hcall, ih]

/-- Two scripts of the same statements but for calls, at the same places, that are related. -/
def Program.Matches (related : Call → Call → Prop) (program other : Program) : Prop :=
  List.Forall₂ (fun statement changed => List.Forall₂ related statement.calls changed.calls)
    program other

/-- Programs match under a wider relation when they match. -/
theorem Program.Matches.mono {related other : Call → Call → Prop}
    (hle : ∀ a b, related a b → other a b) {program changed : Program}
    (h : Program.Matches related program changed) : Program.Matches other program changed :=
  h.imp fun _ _ hcalls => hcalls.imp hle

/-- Programs with calls that may take the place of others run as these do. -/
theorem runStatements_congr {program other : Program}
    (h : Program.Matches Call.Interchangeable program other) (state : State) :
    runStatements capability snapshot program state =
      runStatements capability snapshot other state := by
  induction h generalizing state with
  | nil => rfl
  | cons hcalls _ ih => simp only [runStatements, runStatement, runCalls_congr hcalls, ih]

/-- A script amounts to the same with interchangeable calls in the places of its own. -/
theorem interpretProgram_congr {program other : Program}
    (h : Program.Matches Call.Interchangeable program other) :
    interpretProgram capability snapshot program = interpretProgram capability snapshot other := by
  have hempty : program.isEmpty = other.isEmpty := by cases h <;> rfl
  simp only [interpretProgram, execute, hempty, runStatements_congr h]

/-! ### Other places -/

namespace Call

/-- The arguments of a call without names. -/
def unnamed (call : Call) : List Argument :=
  call.arguments.filter fun argument => argument.name.isNone

/-- The values in slots depend on the arguments without a name only. -/
theorem positional?_congr (h : a.unnamed = b.unnamed) : a.positional? = b.positional? :=
  funext fun slot => congrArg (fun arguments => arguments[slot]?.map Argument.value) h

/-- Whether a method comes first depends on the arguments without a name only. -/
theorem handsOverFirst_congr (h : a.unnamed = b.unnamed) : a.handsOverFirst = b.handsOverFirst := by
  rw [handsOverFirst, positional?_congr h, handsOverFirst]

/-- A call of the same method with the same arguments, of which those with names, each name once,
may stand at other places. -/
structure Rearranged (a b : Call) : Prop where
  name : a.name = b.name
  arguments : a.arguments.Perm b.arguments
  unnamed : a.unnamed = b.unnamed
  distinct : (a.arguments.filterMap Argument.name).Nodup

/-- Where every name occurs once, an argument is found by its name wherever it stands. -/
theorem named?_eq_some_iff {call : Call} (h : (call.arguments.filterMap Argument.name).Nodup)
    {name : String} {value : Value} :
    call.named? name = some value ↔ ⟨some name, value⟩ ∈ call.arguments := by
  obtain ⟨method, arguments⟩ := call
  simp only [named?] at h ⊢
  induction arguments with
  | nil => simp
  | cons argument rest ih =>
    obtain ⟨own, given⟩ := argument
    cases own with
    | none => simpa using ih h
    | some own =>
      obtain ⟨hfresh, hrest⟩ := List.nodup_cons.1 h
      by_cases hown : own = name
      · subst hown
        have habsent : ⟨some own, value⟩ ∉ rest := fun hmem =>
          hfresh (List.mem_filterMap.2 ⟨_, hmem, rfl⟩)
        simp [habsent, eq_comm]
      · simpa [hown, Ne.symm hown] using ih hrest

/-- An order of named arguments leaves what is found under a name. -/
theorem Rearranged.named? (h : Rearranged a b) (name : String) : a.named? name = b.named? name := by
  have hdistinct : (b.arguments.filterMap Argument.name).Nodup :=
    (h.arguments.filterMap Argument.name).nodup_iff.1 h.distinct
  ext value
  rw [named?_eq_some_iff h.distinct, named?_eq_some_iff hdistinct, h.arguments.mem_iff]

/-- Calls that differ in the order of their named arguments may take each other's place. -/
theorem Rearranged.interchangeable (h : Rearranged a b) : a.Interchangeable b where
  order := handsOverFirst_congr h.unnamed
  alike := ⟨h.name, fun param _ => by
    rw [param?, h.named?, positional?_congr h.unnamed, param?]⟩

end Call

/-- The places of named arguments do not matter. -/
theorem interpretProgram_rearranged {program other : Program}
    (h : Program.Matches (fun a b => a = b ∨ a.Rearranged b) program other) :
    interpretProgram capability snapshot program = interpretProgram capability snapshot other := by
  refine interpretProgram_congr (h.mono ?_)
  rintro a b (rfl | hcalls)
  · exact .refl a
  · exact hcalls.interchangeable

/-- A track with an effect, each with its instrument in front of what stood first. -/
theorem interpretProgram_rearranged_effect :
    let name : Argument := ⟨some "name", .string "Bass"⟩
    let instrument : Argument := ⟨some "instrument", .string "Synth"⟩
    let effect : Argument := ⟨none, .string "Reverb"⟩
    let program : Program :=
      [⟨⟨"track", [name, instrument]⟩, [⟨"add_fx", [effect, instrument]⟩]⟩]
    let other : Program :=
      [⟨⟨"track", [instrument, name]⟩, [⟨"add_fx", [instrument, effect]⟩]⟩]
    Program.Matches (fun a b => a = b ∨ a.Rearranged b) program other ∧
      interpretProgram .daw {} program = interpretProgram .daw {} other ∧
      (interpretProgram .daw {} program).toOption.map (·.actions.map Action.kind) =
        some [Action.Kind.createTrack, Action.Kind.addTrackFx] := by
  intro name instrument effect program other
  have hcalls : Program.Matches (fun a b => a = b ∨ a.Rearranged b) program other :=
    .cons (.cons (.inr ⟨rfl, .swap .., rfl, by decide⟩)
      (.cons (.inr ⟨rfl, .swap .., rfl, by decide⟩) .nil)) .nil
  exact ⟨hcalls, interpretProgram_rearranged hcalls, by decide +kernel⟩

/-! ### Arguments that are `none` -/

namespace Call

variable {param : String}

/-- A call of the same method without one argument, which gives `none` under a name that no other
argument has. -/
structure LeavesOut (a : Call) (param : String) (b : Call) : Prop where
  name : a.name = b.name
  arguments : ∃ before after, a.arguments = before ++ ⟨some param, .none⟩ :: after ∧
    b.arguments = before ++ after
  once : ∀ argument ∈ b.arguments, argument.name ≠ some param

/-- A value other than `none` stands in the slot of a parameter. -/
def FillsSlot (call : Call) (param : String) : Prop :=
  ∃ slot value, .inSlot param slot ∈ call.parameters ∧ call.positional? slot = some value ∧
    value ≠ .none

section

variable (h : a.LeavesOut param b)
include h

/-- The arguments without a name stay. -/
theorem LeavesOut.unnamed : a.unnamed = b.unnamed := by
  obtain ⟨before, after, ha, hb⟩ := h.arguments
  simp [Call.unnamed, ha, hb]

/-- Nothing is left under the name. -/
theorem LeavesOut.named?_eq_none : b.named? param = none := by
  simpa [Call.named?] using h.once

/-- What stood under the name is `none`. -/
theorem LeavesOut.named?_eq_some : a.named? param = some .none := by
  obtain ⟨before, after, ha, hb⟩ := h.arguments
  have hbefore : before.find? (fun argument => argument.name = some param) = none := by
    simpa using fun argument hmem => h.once argument (hb ▸ List.mem_append_left _ hmem)
  simp [Call.named?, ha, List.find?_append, hbefore]

/-- What stands under other names stays. -/
theorem LeavesOut.named?_of_ne {name : String} (hne : name ≠ param) :
    a.named? name = b.named? name := by
  obtain ⟨before, after, ha, hb⟩ := h.arguments
  simp [Call.named?, ha, hb, List.find?_append, Ne.symm hne]

/-- An argument that is `none` says as much as none at all just when it hides no value. -/
theorem LeavesOut.param?_eq_iff :
    (∀ p ∈ a.parameters, a.param? p = b.param? p) ↔ ¬ a.FillsSlot param := by
  have hpositional := positional?_congr h.unnamed
  constructor
  · rintro hparam ⟨slot, value, hmem, hvalue, hne⟩
    have hgiven := hparam _ hmem
    -- The name is found first, and the slot is not looked at any more.
    simp only [Call.param?, Param.inSlot, h.named?_eq_some, h.named?_eq_none, ← hpositional,
      Option.some_or, Option.none_or, Option.bind_some, hvalue] at hgiven
    split at hgiven
    · next hnone => exact hne (Option.some.inj hnone)
    · cases hgiven
  · rintro hempty ⟨name, slot⟩ hmem
    by_cases hname : name = param
    · subst hname
      simp only [Call.param?, h.named?_eq_some, h.named?_eq_none, ← hpositional, Option.some_or,
        Option.none_or]
      cases slot with
      | none => rfl
      | some slot =>
        cases hvalue : a.positional? slot with
        | none => simp [hvalue]
        | some value =>
          have hnone : value = .none := by_contra fun hne => hempty ⟨slot, value, hmem, hvalue, hne⟩
          simp [hvalue, hnone]
    · rw [Call.param?, Call.param?, h.named?_of_ne hname, hpositional]

/-- A `none` may be left out unless it hides a value in the slot of its parameter. -/
theorem LeavesOut.interchangeable (hempty : ¬ a.FillsSlot param) : a.Interchangeable b where
  order := handsOverFirst_congr h.unnamed
  alike := ⟨h.name, h.param?_eq_iff.2 hempty⟩

end

end Call

/-- A named argument that is `none` may be left out where no value stands in the slot of its
parameter. -/
theorem interpretProgram_without_none {program other : Program}
    (h : Program.Matches
      (fun a b => a = b ∨ ∃ param, a.LeavesOut param b ∧ ¬ a.FillsSlot param) program other) :
    interpretProgram capability snapshot program = interpretProgram capability snapshot other := by
  refine interpretProgram_congr (h.mono ?_)
  rintro a b (rfl | ⟨param, hcalls, hempty⟩)
  · exact .refl a
  · exact hcalls.interchangeable hempty

/-- A track that is created under no number. -/
theorem interpretProgram_without_none_track :
    let name : Argument := ⟨some "name", .string "Bass"⟩
    let program : Program := [⟨⟨"track", [⟨some "id", .none⟩, name]⟩, []⟩]
    let other : Program := [⟨⟨"track", [name]⟩, []⟩]
    Program.Matches (fun a b => a = b ∨ ∃ param, a.LeavesOut param b ∧ ¬ a.FillsSlot param)
        program other ∧
      interpretProgram .daw {} program = interpretProgram .daw {} other ∧
      (interpretProgram .daw {} program).toOption.map (·.actions.map Action.kind) =
        some [Action.Kind.createTrack] := by
  intro name program other
  have hcalls : Program.Matches
      (fun a b => a = b ∨ ∃ param, a.LeavesOut param b ∧ ¬ a.FillsSlot param) program other := by
    refine .cons (.cons (.inr ⟨"id", ⟨rfl, ⟨[], [name], rfl, rfl⟩, ?_⟩, ?_⟩) .nil) .nil
    · simp [name]
    · rintro ⟨slot, value, -, hvalue, -⟩
      simp [Call.positional?, name] at hvalue
  exact ⟨hcalls, interpretProgram_without_none hcalls, by decide +kernel⟩

/-- The `none` hides the number of the track, so that a track is created and muted; without it the
first track is muted. -/
theorem hidden_by_none :
    let snapshot : Snapshot := { tracks := [{ name := "Drums" }] }
    let number : Argument := ⟨none, .number 1⟩
    let mute : Call := ⟨"set_mute", [⟨none, .bool true⟩]⟩
    let program : Program := [⟨⟨"track", [number, ⟨some "id", .none⟩]⟩, [mute]⟩]
    let other : Program := [⟨⟨"track", [number]⟩, [mute]⟩]
    Program.Matches (fun a b => a = b ∨ ∃ param, a.LeavesOut param b) program other ∧
      (interpretProgram .daw snapshot program).toOption.map (·.actions.map Action.kind) =
        some [Action.Kind.createTrack, Action.Kind.setTrackMute] ∧
      (interpretProgram .daw snapshot other).toOption.map (·.actions.map Action.kind) =
        some [Action.Kind.setTrackMute] := by
  intro snapshot number mute program other
  have hcalls : Call.LeavesOut ⟨"track", [number, ⟨some "id", .none⟩]⟩ "id" ⟨"track", [number]⟩ :=
    ⟨rfl, ⟨[number], [], rfl, rfl⟩, by simp [number]⟩
  exact ⟨.cons (.cons (.inr ⟨"id", hcalls⟩) (.cons (.inl rfl) .nil)) .nil, by decide +kernel,
    by decide +kernel⟩

end Studio.Script
