import Studio.Proofs.Script.Freshness

/-!
# Automatic numbers

A track that is created without a number of its own gets one that no track of the session has and
under which the script created none before, unless the numbers have reached the largest index
(`automatic_fresh`). To say which calls the actions come from, `deeds` lists the methods that a
script carries out; `Linked` says that each of them starts with the actions of all before it.
-/

namespace Studio.Script

open Session (Entity Snapshot)

/-! ### What a script carries out -/

/-- A method that is carried out, with the states in front of it and behind it. -/
structure Deed where
  call : Call
  before : State
  after : State

/-- The actions that a method adds. -/
def Deed.added (deed : Deed) : List Action :=
  deed.after.actions.drop deed.before.actions.length

section

variable (capability : Capability) (snapshot : Snapshot)

/-- The methods that are carried out when entities are visited. -/
def visitDeeds (function : Function) (name : String) : List Entity → State → List Deed
  | [], _ => []
  | entity :: rest, state =>
    let before := (state.visit ⟨name, entity⟩).bind entity.track
    match Methods.apply capability snapshot function.call before with
    | .error _ => []
    | .ok after =>
      ⟨function.call, before, after⟩ :: visitDeeds function name rest after.leave.unbind

/-- The methods that are carried out when a collection is gone through. -/
def forEachDeeds (call : Call) (state : State) : List Deed :=
  match collectionAndFunction call with
  | .error _ => []
  | .ok (collection, function) =>
    visitDeeds capability snapshot function (itemName collection)
      ((state.collection? collection).getD []) state.dropFiltered

/-- The methods that are carried out when a collection is mapped; a projection is none. -/
def mapDeeds (call : Call) (state : State) : List Deed :=
  match collectionAndFunction call with
  | .error _ => []
  | .ok (_, function) =>
    if function.written || (Methods.names capability).contains function.call.name then
      forEachDeeds capability snapshot call state
    else []

/-- The methods that a call carries out: its own, or that on every entity of a collection. -/
def callDeeds (call : Call) (state : State) : List Deed :=
  match call.name with
  | "filter" => []
  | "for_each" => forEachDeeds capability snapshot call state
  | "map" => mapDeeds capability snapshot call state
  | "store" => []
  | _ =>
    match Methods.apply capability snapshot call state with
    | .error _ => []
    | .ok after => [⟨call, state, after⟩]

/-- The methods that calls carry out one after another. -/
def chainDeeds : List Call → State → List Deed
  | [], _ => []
  | call :: rest, state =>
    match dispatch capability snapshot call state with
    | .error _ => []
    | .ok next => callDeeds capability snapshot call state ++ chainDeeds rest next

/-- The methods that a script carries out. -/
def deeds : Program → State → List Deed
  | [], _ => []
  | statement :: rest, state =>
    match runStatement capability snapshot statement state with
    | .error _ => []
    | .ok next => chainDeeds capability snapshot statement.calls state ++ deeds rest next

end

variable {capability : Capability} {snapshot : Snapshot} {holds : State → Prop}

/-- Methods that are carried out in states with a property, each of which starts with the actions
that the ones before it have left. -/
inductive Linked (capability : Capability) (snapshot : Snapshot) (holds : State → Prop) :
    List Action → List Deed → List Action → Prop
  | nil (actions : List Action) : Linked capability snapshot holds actions [] actions
  | cons {deed : Deed} {rest : List Deed} {last : List Action} (hbefore : holds deed.before)
      (happly : Methods.apply capability snapshot deed.call deed.before = .ok deed.after)
      (hrest : Linked capability snapshot holds deed.after.actions rest last) :
      Linked capability snapshot holds deed.before.actions (deed :: rest) last

/-- What a method adds is what stands behind the actions that were there. -/
theorem Deed.added_eq {deed : Deed} {more : List Action}
    (h : deed.after.actions = deed.before.actions ++ more) : deed.added = more := by
  rw [Deed.added, h, List.drop_left]

/-- A method leaves the actions that were there and adds its own behind them. -/
theorem Deed.actions_after {deed : Deed}
    (happly : Methods.apply capability snapshot deed.call deed.before = .ok deed.after) :
    deed.after.actions = deed.before.actions ++ deed.added := by
  obtain ⟨more, hmore⟩ := actions_of_method happly
  rw [Deed.added_eq hmore.symm, hmore]

namespace Linked

/-- Methods are linked when the first run leaves what the second begins with. -/
theorem append {first middle last : List Action} {front back : List Deed}
    (hfront : Linked capability snapshot holds first front middle)
    (hback : Linked capability snapshot holds middle back last) :
    Linked capability snapshot holds first (front ++ back) last := by
  induction hfront with
  | nil => exact hback
  | cons hbefore happly _ ih => exact .cons hbefore happly (ih hback)

/-- The actions are those of the methods. -/
theorem actions_eq {first last : List Action} {deeds : List Deed}
    (h : Linked capability snapshot holds first deeds last) :
    last = first ++ deeds.flatMap Deed.added := by
  induction h with
  | nil => simp
  | cons _ happly _ ih => rw [ih, Deed.actions_after happly, List.flatMap_cons, List.append_assoc]

/-- Each method starts with the actions of all before it. -/
theorem of_split {first last : List Action} {earlier later : List Deed} {deed : Deed}
    (h : Linked capability snapshot holds first (earlier ++ deed :: later) last) :
    deed.before.actions = first ++ earlier.flatMap Deed.added ∧ holds deed.before ∧
      Methods.apply capability snapshot deed.call deed.before = .ok deed.after := by
  induction earlier generalizing first with
  | nil =>
      cases h with
      | cons hbefore happly _ => exact ⟨by simp, hbefore, happly⟩
  | cons head rest ih =>
      cases h with
      | cons _ happly hrest =>
          obtain ⟨hactions, hdeed⟩ := ih hrest
          rw [hactions, Deed.actions_after happly, List.flatMap_cons, List.append_assoc]
          exact ⟨rfl, hdeed⟩

end Linked

/-- A call of a method carries this method out and no other. -/
theorem callDeeds_of_apply {call : Call} {state next : State}
    (hname : call.name ∉ collectionMethods)
    (h : Methods.apply capability snapshot call state = .ok next) :
    callDeeds capability snapshot call state = [⟨call, state, next⟩] := by
  simp only [collectionMethods, List.mem_cons, List.not_mem_nil, or_false, not_or] at hname
  obtain ⟨hfilter, heach, hmap, hstore⟩ := hname
  unfold callDeeds
  split
  · next hfound => exact absurd hfound hfilter
  · next hfound => exact absurd hfound heach
  · next hfound => exact absurd hfound hmap
  · next hfound => exact absurd hfound hstore
  · rw [h]

namespace Keeps

variable {admits : Call → Prop} {sound : List Entity → Prop}
  (kept : Keeps capability snapshot admits holds sound) {call : Call} {state next : State}
include kept

/-- By induction on the entities, as the visits themselves. -/
theorem linked_visitAll {function : Function} (hadmits : admits function.call) {name : String}
    {entities : List Entity} (hentities : sound entities) (hstate : holds state)
    (h : Script.visitAll capability snapshot call function name entities state = .ok next) :
    Linked capability snapshot holds state.actions
      (visitDeeds capability snapshot function name entities state) next.actions := by
  induction entities generalizing state with
  | nil =>
      obtain rfl := Except.ok.inj h
      exact .nil _
  | cons entity rest ih =>
      obtain ⟨-, after, happly, h⟩ := visitAll_cons_eq_ok.1 h
      have hentity := kept.sublist hentities (List.singleton_sublist.2 List.mem_cons_self)
      have hvisit := kept.visit name hstate hentity
      have hafter := kept.unbind (kept.leave (kept.method hadmits hvisit happly))
      have hrest := ih (kept.sublist hentities (List.sublist_cons_self entity rest)) hafter h
      simp only [visitDeeds, happly]
      exact @Linked.cons _ _ _ ⟨function.call, _, after⟩ _ _ hvisit happly hrest

/-- The methods of a loop are linked. -/
theorem linked_forEach {keep : Bool} (hadmits : ∀ inner ∈ call.carried, admits inner)
    (hstate : holds state) (h : Script.forEach capability snapshot call keep state = .ok next) :
    Linked capability snapshot holds state.actions (forEachDeeds capability snapshot call state)
      next.actions := by
  obtain ⟨collection, function, entities, visited, hfunction, hentities, hvisited, rfl⟩ :=
    exists_of_forEach h
  have hcarried := hadmits function.call (mem_carried_of_function hfunction)
  have hlinked := kept.linked_visitAll hcarried (kept.entities hstate hentities)
    (kept.dropFiltered hstate) hvisited
  simp only [forEachDeeds, hfunction, hentities, Option.getD_some]
  cases keep <;> exact hlinked

/-- The methods of a map are linked. -/
theorem linked_map (hadmits : ∀ inner ∈ call.carried, admits inner) (hstate : holds state)
    (h : Script.mapCollection capability snapshot call state = .ok next) :
    Linked capability snapshot holds state.actions (mapDeeds capability snapshot call state)
      next.actions := by
  obtain ⟨collection, function, hfunction, hmap⟩ := exists_of_mapCollection h
  simp only [mapDeeds, hfunction]
  split at hmap
  · next hmethod =>
    rw [if_pos hmethod]
    exact kept.linked_forEach hadmits hstate hmap
  · next hmethod =>
    obtain ⟨entities, -, rfl⟩ := hmap
    rw [if_neg hmethod]
    exact .nil _

/-- The methods of a call are linked. -/
theorem linked_dispatch (hadmits : ∀ inner ∈ call.carried, admits inner) (hstate : holds state)
    (h : Script.dispatch capability snapshot call state = .ok next) :
    Linked capability snapshot holds state.actions (callDeeds capability snapshot call state)
      next.actions := by
  unfold Script.dispatch at h
  split at h
  · next hname =>
    rw [callDeeds, hname]
    obtain ⟨_, _, _, _, _, rfl⟩ := filter_eq_ok.1 h
    exact .nil _
  · next hname =>
    rw [callDeeds, hname]
    exact kept.linked_forEach hadmits hstate h
  · next hname =>
    rw [callDeeds, hname]
    exact kept.linked_map hadmits hstate h
  · next hname =>
    rw [callDeeds, hname]
    obtain ⟨_, _, _, _, _, _, rfl⟩ := store_eq_ok.1 h
    exact .nil _
  · next hfilter heach hmap hstore =>
    split at h
    · have hname : call.name ∉ collectionMethods := by
        simpa [collectionMethods] using ⟨hfilter, heach, hmap, hstore⟩
      rw [callDeeds_of_apply hname h]
      exact @Linked.cons _ _ _ ⟨call, state, next⟩ _ _ hstate h (.nil _)
    · simp [unknownMethod] at h

/-- The methods of a run of calls are linked. -/
theorem linked_runCalls {calls : List Call}
    (hadmits : ∀ inner ∈ calls.flatMap Call.carried, admits inner) (hstate : holds state)
    (h : Script.runCalls capability snapshot calls state = .ok next) :
    Linked capability snapshot holds state.actions (chainDeeds capability snapshot calls state)
      next.actions := by
  induction calls generalizing state with
  | nil =>
      obtain rfl := Except.ok.inj h
      exact .nil _
  | cons call rest ih =>
      obtain ⟨after, hafter, h⟩ := runCalls_cons_eq_ok.1 h
      obtain ⟨hcall, hrest⟩ := List.forall_mem_append.1 hadmits
      simp only [chainDeeds, hafter]
      exact (kept.linked_dispatch hcall hstate hafter).append
        (ih hrest (kept.dispatch hstate hcall hafter) h)

/-- The methods of a statement are linked. -/
theorem linked_runStatement {statement : Statement}
    (hadmits : ∀ inner ∈ statement.calls.flatMap Call.carried, admits inner) (hstate : holds state)
    (h : Script.runStatement capability snapshot statement state = .ok next) :
    Linked capability snapshot holds state.actions
      (chainDeeds capability snapshot statement.calls state) next.actions := by
  obtain ⟨after, hafter, rfl⟩ := map_eq_ok.1 h
  have hlinked := kept.linked_runCalls hadmits hstate hafter
  exact hlinked

/-- The actions of a script are those of the methods that it carries out, and what is kept holds in
front of each of these. -/
theorem linked_runStatements {program : Program} (hadmits : ∀ inner ∈ program.carried, admits inner)
    (hstate : holds state)
    (h : Script.runStatements capability snapshot program state = .ok next) :
    Linked capability snapshot holds state.actions (deeds capability snapshot program state)
      next.actions := by
  induction program generalizing state with
  | nil =>
      obtain rfl := Except.ok.inj h
      exact .nil _
  | cons statement rest ih =>
      rw [Script.runStatements] at h
      split at h
      · simp at h
      · next after hafter =>
        obtain ⟨hstatement, hrest⟩ := List.forall_mem_append.1 hadmits
        simp only [deeds, hafter]
        exact (kept.linked_runStatement hstatement hstate hafter).append
          (ih hrest (kept.runStatement hstate hstatement hafter) h)

end Keeps

/-! ### Fresh numbers -/

/-- A number that a carried call asks for is asked for by the script. -/
theorem mem_asked_of_carried {program : Program} :
    ∀ call ∈ program.carried, ∀ index, call.asked? = some index → index ∈ program.asked :=
  fun call hcall _ hindex => List.mem_filterMap.2 ⟨call, hcall, hindex⟩

/-- A script keeps its numbers in order. -/
theorem numbered_of_runStatements {program : Program} {state : State}
    (h : runStatements .daw snapshot program (State.start snapshot) = .ok state) :
    Numbered snapshot program.asked state :=
  (kept_numbered snapshot program.asked).runStatements mem_asked_of_carried
    (Numbered.start snapshot program.asked) h

/-- A count that is not given is none. -/
theorem count?_of_not_given {call : Call} {param : Param} (h : call.param? param = none) :
    call.count? param = .ok none := by
  simp [Call.count?, Call.number?, Call.typed, h]

/-- The automatic number is behind all that are known, or it is the largest index. -/
theorem Numbered.counter_behind {asked : List Nat} {state : State}
    (numbered : Numbered snapshot asked state) :
    state.counter = lastIndex ∨
      ∀ track, Known snapshot state.actions track → track < state.counter := by
  have hlimit := numbered.limit
  by_cases hlast : state.counter = lastIndex
  · exact .inl hlast
  · refine .inr fun track hknown => ?_
    have hbehind := numbered.behind track hknown
    unfold Number.nextIndex at hbehind
    unfold lastIndex at hlimit hlast
    omega

/-- A method that creates a track without being asked for a number takes the automatic one, and
does nothing else. -/
theorem created_automatically {deed : Deed}
    (happly : Methods.apply .daw snapshot deed.call deed.before = .ok deed.after)
    (hindex : deed.call.param? "index" = none) {creation : Action} (hmem : creation ∈ deed.added)
    (hcreation : creation.isCreation = true) :
    deed.call.name = "track" ∧ deed.added = [creation] ∧
      creation.get? "index" = some (.nat deed.before.counter) := by
  obtain ⟨call, before, after⟩ := deed
  dsimp only at happly hindex ⊢
  cases Methods.Tracks.effect_of_apply happly with
  | acted htargets hactions =>
      rw [Deed.added_eq (congrArg (· ++ _) (actions_of_targets htargets))] at hmem
      obtain ⟨target, -, hnone, -⟩ := exists_target_of_mem hactions hmem
      rw [hnone] at hcreation
      cases hcreation
  | @created action explicit _ hnumber hname hexplicit =>
      have hadded : Deed.added ⟨call, before, (before.create explicit).emit action⟩ = [action] :=
        Deed.added_eq rfl
      rw [hadded, List.mem_singleton] at hmem
      obtain rfl := hmem
      have hnone := (count?_of_not_given hindex).symm.trans hexplicit
      obtain rfl : none = explicit := Except.ok.inj hnone
      exact ⟨hname, hadded, hnumber⟩
  | referred | listed | collected =>
      rw [Deed.added_eq (List.append_nil _).symm] at hmem
      cases hmem

/-- The actions of a script are those of the methods that it carries out, in their order. A method
that creates a track without being asked for a number adds nothing else, and takes a number that no
track of the session has and under which none was created before, or the largest index; and after
every statement the automatic number is behind all these numbers, or is the largest index. -/
theorem automatic_fresh {program : Program} {final : State}
    (h : execute .daw snapshot program = .ok final) :
    final.actions = (deeds .daw snapshot program (State.start snapshot)).flatMap Deed.added ∧
    (∀ earlier deed later, deeds .daw snapshot program (State.start snapshot) =
        earlier ++ deed :: later →
      Methods.apply .daw snapshot deed.call deed.before = .ok deed.after ∧
      (deed.call.param? "index" = none → ∀ creation ∈ deed.added, creation.isCreation = true →
        deed.call.name = "track" ∧ deed.added = [creation] ∧
        ∃ track, creation.get? "index" = some (.nat track) ∧
          (track = lastIndex ∨ ¬ Known snapshot (earlier.flatMap Deed.added) track))) ∧
    ∀ front rest, program = front ++ rest → ∃ state,
      runStatements .daw snapshot front (State.start snapshot) = .ok state ∧
      (state.counter = lastIndex ∨
        ∀ track, Known snapshot state.actions track → track < state.counter) := by
  have hrun := (execute_eq_ok.1 h).2
  have hlinked := (kept_numbered snapshot program.asked).keeps.linked_runStatements
    mem_asked_of_carried (Numbered.start snapshot program.asked) hrun
  refine ⟨hlinked.actions_eq, ?_, ?_⟩
  · intro earlier deed later hsplit
    rw [hsplit] at hlinked
    obtain ⟨hactions, numbered, happly⟩ := hlinked.of_split
    refine ⟨happly, fun hindex creation hmem hcreation => ?_⟩
    obtain ⟨hname, hadded, hnumber⟩ := created_automatically happly hindex hmem hcreation
    refine ⟨hname, hadded, deed.before.counter, hnumber, ?_⟩
    refine numbered.counter_behind.imp_right fun hbehind hknown => ?_
    have hearlier : deed.before.actions = earlier.flatMap Deed.added := hactions
    rw [← hearlier] at hknown
    exact Nat.lt_irrefl _ (hbehind _ hknown)
  · rintro front rest rfl
    rw [runStatements_append] at hrun
    obtain ⟨state, hstate, -⟩ := bind_eq_ok.1 hrun
    exact ⟨state, hstate, (numbered_of_runStatements hstate).counter_behind⟩

/-- Behind a track that is asked for under a number, one more is created, and one for each track of
the session. -/
theorem automatic_fresh_each :
    let session : Snapshot := ⟨[{ index := some 3 }, {}]⟩
    let seven : Argument := ⟨some "index", .number (ofDecimal false ['7'] [])⟩
    let each : Call := ⟨"for_each", [⟨none, .string "tracks"⟩, ⟨none, .reference "track"⟩]⟩
    let program : Program := [⟨⟨"track", [seven]⟩, []⟩, ⟨⟨"track", []⟩, []⟩, ⟨each, []⟩]
    let carriedOut := deeds .daw session program (State.start session)
    ∃ final, execute .daw session program = .ok final ∧
      final.actions.map Action.target? = [some 7, some 8, some 9, some 10] ∧
      carriedOut.countP (fun deed => (deed.call.param? "index").isNone) = 3 ∧
      final.actions = carriedOut.flatMap Deed.added ∧
      ∀ earlier deed later, carriedOut = earlier ++ deed :: later →
        deed.call.param? "index" = none → ∀ creation ∈ deed.added, creation.isCreation = true →
          deed.call.name = "track" ∧ deed.added = [creation] ∧
          ∃ track, creation.get? "index" = some (.nat track) ∧
            (track = lastIndex ∨ ¬ Known session (earlier.flatMap Deed.added) track) := by
  intro session seven each program carriedOut
  obtain ⟨final, h, htargets, hcount⟩ : ∃ final, execute .daw session program = .ok final ∧
      final.actions.map Action.target? = [some 7, some 8, some 9, some 10] ∧
      carriedOut.countP (fun deed => (deed.call.param? "index").isNone) = 3 :=
    ⟨_, rfl, rfl, rfl⟩
  obtain ⟨hactions, hfresh, -⟩ := automatic_fresh h
  exact ⟨final, h, htargets, hcount, hactions,
    fun earlier deed later hsplit => (hfresh earlier deed later hsplit).2⟩

end Studio.Script
