import Mathlib.Data.List.Basic
import Studio.Delivery.Buffer

/-!
# An account of a delivery

Every action that a buffer hands on has one of the origins in `Entry`. An `Account` says that a list
of entries explains what was handed on: what was pushed is in it or held back, and what was released
is in it in order. `Account.run` keeps the account through any events; what they release is
`releases`, a function of the events alone.
-/

namespace Studio.Delivery

open Session (Snapshot)

/-- What the first element amounts to comes first. -/
theorem filterMap_cons_toList {α β : Type} (f : α → Option β) (a : α) (rest : List α) :
    (a :: rest).filterMap f = (f a).toList ++ rest.filterMap f := by
  rw [List.filterMap_cons]
  cases f a <;> rfl

/-- The structural action that came with an event. -/
def Event.action? : Event → Option Action
  | .pushed action => some action
  | _ => none

/-- Only the arrival of a structural action brings one. -/
theorem Event.eq_pushed {event : Event} {action : Action} (h : event.action? = some action) :
    event = .pushed action := by
  cases event with
  | pushed => rw [Option.some.inj h]
  | structuralFinished | contentFinished | flushed => cases h

/-- The contribution that came with an event. -/
def Event.part? : Event → Option Contribution
  | .contentFinished _ part => part
  | _ => none

/-- A contribution that is released, and the target at that moment. -/
structure Release where
  part : Contribution
  target : Option Nat

/-- The actions of a release: those of the contribution, with the target as their track. -/
def Release.described (release : Release) : List Action :=
  release.part.actions.map (tag release.target)

/-- The notes of a release and the track they go to, if there are any and there is one. -/
def Release.payload? (release : Release) : Option (Nat × List Json) :=
  if release.part.notes.isEmpty then none
  else release.target.map fun track => (track, release.part.notes.map Music.Note.toJson)

/-- The releases of contributions at one moment: in the order of the capabilities, and with the
target that the structural actions so far lead to. -/
def releaseAll (snapshot : Snapshot) (pushed : List Action) (parts : List Contribution) :
    List Release :=
  (Capability.sortBy Contribution.capability parts).map fun part =>
    ⟨part, resolveTarget pushed snapshot⟩

/-- What events release, when some structural actions and contributions came before. Contributions
wait until the structural actions are complete. -/
def releases (snapshot : Snapshot) (settled : Bool) (pushed : List Action)
    (waiting : List Contribution) : List Event → List Release
  | [] => []
  | .pushed action :: rest => releases snapshot settled (pushed ++ [action]) waiting rest
  | .contentFinished _ part :: rest =>
      if settled then
        releaseAll snapshot pushed (waiting ++ part.toList) ++ releases snapshot true pushed [] rest
      else releases snapshot false pushed (waiting ++ part.toList) rest
  | .structuralFinished :: rest | .flushed :: rest =>
      releaseAll snapshot pushed waiting ++ releases snapshot true pushed [] rest

/-- Where an action that was handed on came from. -/
inductive Entry where
  /-- It was pushed. -/
  | structural (action : Action)
  /-- It was pushed without notes, and the notes of a contribution were put into it. -/
  | filled (action : Action) (target : Nat) (notes : List Json)
  /-- It was made for the notes of a contribution. -/
  | attached (target : Nat) (notes : List Json)
  /-- It belongs to a contribution. -/
  | described (action : Action)

namespace Entry

/-- The action that was handed on. -/
def action : Entry → Action
  | structural action | described action => action
  | filled action _ notes => action.appendNotes notes
  | attached target notes => .attaching target notes

/-- The action that was pushed. -/
def pushed? : Entry → Option Action
  | structural action | filled action _ _ => some action
  | _ => none

/-- The notes of a contribution, and the track they go to. -/
def payload? : Entry → Option (Nat × List Json)
  | filled _ target notes | attached target notes => some (target, notes)
  | _ => none

/-- The action of a contribution. -/
def described? : Entry → Option Action
  | described action => some action
  | _ => none

/-- Notes are only put into actions that attach none yet, and that are about their track. -/
def Proper : Entry → Prop
  | filled action target _ => attachesTo target action = true ∧ action.notes = []
  | _ => True

/-- The entries for actions of contributions push no structural action. -/
theorem pushed?_described (actions : List Action) :
    (actions.map described).filterMap pushed? = [] := by
  simp [pushed?]

/-- The entries for actions of contributions release no notes. -/
theorem payload?_described (actions : List Action) :
    (actions.map described).filterMap payload? = [] := by
  simp [payload?]

/-- The entries for actions of contributions bring these actions. -/
theorem described?_described (actions : List Action) :
    (actions.map described).filterMap described? = actions := by
  simp [List.filterMap_map, Function.comp_def, described?]

/-- The entries for structural actions push these actions. -/
theorem pushed?_structural (actions : List Action) :
    (actions.map structural).filterMap pushed? = actions := by
  simp [List.filterMap_map, Function.comp_def, pushed?]

/-- The entries for structural actions release no notes. -/
theorem payload?_structural (actions : List Action) :
    (actions.map structural).filterMap payload? = [] := by
  simp [payload?]

/-- The entries for structural actions bring no actions of contributions. -/
theorem described?_structural (actions : List Action) :
    (actions.map structural).filterMap described? = [] := by
  simp [described?]

end Entry

namespace Buffer

variable {buffer : Buffer} {part : Contribution}

/-- What releasing a contribution now amounts to. -/
def releasing (buffer : Buffer) (part : Contribution) : Release :=
  ⟨part, resolveTarget buffer.structural buffer.snapshot⟩

/-- Without notes or without a track, only the actions are handed on. -/
theorem release_of_none (h : (buffer.releasing part).payload? = none) : ∃ unattached,
    buffer.release part = { buffer.emit (buffer.releasing part).described with unattached } := by
  unfold Release.payload? releasing at h
  unfold release Release.described releasing
  cases htarget : resolveTarget buffer.structural buffer.snapshot with
  | none => exact ⟨_, rfl⟩
  | some track =>
      have hnotes : part.notes.isEmpty = true := by simpa [htarget] using h
      exact ⟨buffer.unattached, by simp [hnotes, emit]⟩

/-- Notes are handed on in front of the actions. -/
theorem release_of_some {track : Nat} {notes : List Json}
    (h : (buffer.releasing part).payload? = some (track, notes)) :
    buffer.release part =
      Buffer.emit (buffer.releasing part).described
        { buffer.emit [(fill track notes buffer.withheld).1] with
          withheld := (fill track notes buffer.withheld).2 } := by
  unfold Release.payload? releasing at h
  unfold release Release.described releasing
  cases htarget : resolveTarget buffer.structural buffer.snapshot with
  | none => simp [htarget] at h
  | some target =>
      by_cases hnotes : part.notes.isEmpty = true
      · simp [hnotes] at h
      · obtain ⟨rfl, rfl⟩ : target = track ∧ part.notes.map Music.Note.toJson = notes := by
          simpa [htarget, hnotes] using h
        simp [hnotes, emit]

/-- Releasing a contribution changes nothing but what is handed on or held back. -/
theorem release_frame (buffer : Buffer) (part : Contribution) : ∃ emitted withheld unattached,
    buffer.release part = { buffer with emitted, withheld, unattached } := by
  cases hpayload : (buffer.releasing part).payload? with
  | none =>
      obtain ⟨unattached, hrelease⟩ := release_of_none hpayload
      exact ⟨_, _, _, hrelease⟩
  | some payload =>
      obtain ⟨track, notes⟩ := payload
      exact ⟨_, _, _, release_of_some hpayload⟩

/-- Contributions that are released change what is handed on, held back and without a target, and
nothing else. -/
theorem foldl_release_frame (parts : List Contribution) (buffer : Buffer) :
    ∃ emitted withheld unattached,
      parts.foldl (fun state part => state.release part) buffer =
        { buffer with emitted, withheld, unattached } := by
  induction parts generalizing buffer with
  | nil => exact ⟨_, _, _, rfl⟩
  | cons part rest ih =>
      obtain ⟨_, _, _, hfirst⟩ := release_frame buffer part
      obtain ⟨emitted, withheld, unattached, hrest⟩ := ih (buffer.release part)
      refine ⟨emitted, withheld, unattached, ?_⟩
      rw [List.foldl_cons, hrest, hfirst]

/-- Once the structural actions are complete no contribution waits; nothing is held back when no
further one is awaited. -/
theorem resolve_frame (buffer : Buffer) (hsettled : buffer.settled = true) :
    ∃ emitted withheld unattached,
      buffer.resolve = { buffer with emitted, withheld, unattached, ready := [] } ∧
        (buffer.pending = [] → withheld = []) := by
  obtain ⟨emitted, withheld, unattached, hreleased⟩ := foldl_release_frame
    (Capability.sortBy Contribution.capability buffer.ready) { buffer with ready := [] }
  unfold resolve
  rw [if_pos hsettled]
  dsimp only at hreleased ⊢
  rw [hreleased]
  dsimp only
  split
  · exact ⟨_, [], unattached, rfl, fun _ => rfl⟩
  · next hpending =>
    exact ⟨emitted, withheld, unattached, rfl, fun h => absurd (List.isEmpty_iff.2 h) hpending⟩

/-- Until the structural actions are complete, nothing is handed on. -/
theorem resolve_of_unsettled (h : buffer.settled = false) : buffer.resolve = buffer := by
  rw [resolve, if_neg (by simp [h])]

/-- A buffer that has been resolved releases later what it would have released with nothing
waiting. -/
theorem releases_resolve (buffer : Buffer) (hsettled : buffer.settled = true)
    (events : List Event) :
    releases buffer.resolve.snapshot buffer.resolve.settled buffer.resolve.structural
        buffer.resolve.ready events =
      releases buffer.snapshot true buffer.structural [] events := by
  obtain ⟨_, _, _, hframe, -⟩ := resolve_frame buffer hsettled
  rw [hframe, ← hsettled]

/-- To release a contribution does not change what is to be released. -/
theorem releasing_release (buffer : Buffer) (part : Contribution) :
    (buffer.release part).releasing = buffer.releasing := by
  obtain ⟨_, _, _, h⟩ := release_frame buffer part
  rw [h]
  rfl

/-- What an event releases from a buffer. -/
def released (buffer : Buffer) : Event → List Release
  | .pushed _ => []
  | .contentFinished _ part =>
      if buffer.settled then
        releaseAll buffer.snapshot buffer.structural (buffer.ready ++ part.toList)
      else []
  | .structuralFinished | .flushed =>
      releaseAll buffer.snapshot buffer.structural buffer.ready

/-- A buffer with what an event other than a structural action brings, before it is resolved. -/
def arrived (buffer : Buffer) : Event → Buffer
  | .pushed _ => buffer
  | .structuralFinished => { buffer with settled := true }
  | .contentFinished capability part => { buffer with
      pending := buffer.pending.filter (· ≠ capability)
      ready := buffer.ready ++ part.toList }
  | .flushed => { buffer with settled := true, pending := [] }

/-- What arrives changes what is complete and awaited, and lets a contribution wait. -/
theorem arrived_frame (buffer : Buffer) (event : Event) : ∃ settled pending,
    buffer.arrived event =
      { buffer with settled, pending, ready := buffer.ready ++ event.part?.toList } ∧
        (buffer.settled = true → settled = true) := by
  cases event with
  | pushed => exact ⟨buffer.settled, buffer.pending, by simp [arrived, Event.part?], id⟩
  | structuralFinished => exact ⟨true, buffer.pending, by simp [arrived, Event.part?], fun _ => rfl⟩
  | contentFinished => exact ⟨buffer.settled, _, rfl, id⟩
  | flushed => exact ⟨true, [], by simp [arrived, Event.part?], fun _ => rfl⟩

/-- Every event other than a structural action is resolved when it has arrived. -/
theorem step_eq_resolve {event : Event} (h : event.action? = none) :
    buffer.step event = (buffer.arrived event).resolve := by
  cases event with
  | pushed => simp [Event.action?] at h
  | structuralFinished | contentFinished | flushed => rfl

/-- An event other than a structural action releases what waits once the structural actions are
complete. -/
theorem released_eq_releaseAll {event : Event} (h : event.action? = none) :
    let next := buffer.arrived event
    buffer.released event =
      if next.settled then releaseAll next.snapshot next.structural next.ready else [] := by
  cases event with
  | pushed => simp [Event.action?] at h
  | structuralFinished | contentFinished | flushed => rfl

/-- The first event releases what it releases, and the others what they release then. -/
theorem releases_cons (buffer : Buffer) (event : Event) (rest : List Event) :
    releases buffer.snapshot buffer.settled buffer.structural buffer.ready (event :: rest) =
      buffer.released event ++ releases (buffer.step event).snapshot (buffer.step event).settled
        (buffer.step event).structural (buffer.step event).ready rest := by
  cases event with
  | pushed action =>
      simp only [step, push]
      split <;> rfl
  | structuralFinished =>
      -- What later events release depends on the fields that resolving leaves alone.
      exact congrArg _ (releases_resolve { buffer with settled := true } rfl rest).symm
  | contentFinished capability part =>
      let next := buffer.arrived (.contentFinished capability part)
      cases hsettled : buffer.settled with
      | true =>
          rw [released, if_pos hsettled]
          exact congrArg _ (releases_resolve next hsettled rest).symm
      | false =>
          -- Until the structural actions are complete a contribution only waits.
          have hstep : buffer.step (.contentFinished capability part) = next :=
            resolve_of_unsettled hsettled
          rw [hstep, released, if_neg (by simp [hsettled])]
          simp [releases, next, arrived, hsettled]
  | flushed =>
      exact congrArg _ (releases_resolve { buffer with settled := true, pending := [] } rfl
        rest).symm

end Buffer

/-- The log explains what a buffer handed on: structural actions, the actions of contributions, and
their notes. -/
structure Account (buffer : Buffer) (log : List Entry) (described : List Action)
    (payloads : List (Nat × List Json)) : Prop where
  emitted : buffer.emitted = log.map Entry.action
  proper : ∀ entry ∈ log, entry.Proper
  /-- What was pushed was handed on or is held back. -/
  pushed : (log.filterMap Entry.pushed? ++ buffer.withheld).Perm buffer.structural
  /-- Only actions that attach no notes yet are held back. -/
  withheld : ∀ action ∈ buffer.withheld, action.isAttach = true ∧ action.notes = []
  described : log.filterMap Entry.described? = described
  payloads : log.filterMap Entry.payload? = payloads

namespace Account

variable {buffer : Buffer} {log : List Entry} {described : List Action}
  {payloads : List (Nat × List Json)} (account : Account buffer log described payloads)
include account

/-- The account is about what was handed on, what came and what is held back. -/
theorem of_fields (next : Buffer) (hemitted : next.emitted = buffer.emitted)
    (hstructural : next.structural = buffer.structural)
    (hwithheld : next.withheld = buffer.withheld) : Account next log described payloads where
  emitted := by rw [hemitted, account.emitted]
  proper := account.proper
  pushed := by rw [hstructural, hwithheld]; exact account.pushed
  withheld := by rw [hwithheld]; exact account.withheld
  described := account.described
  payloads := account.payloads

/-- More entries explain what is handed on next, if what arrived or was held back is among them or
is held back now. -/
theorem extend (next : Buffer) (more : List Entry) (arrived : List Action)
    (hemitted : next.emitted = buffer.emitted ++ more.map Entry.action)
    (hproper : ∀ entry ∈ more, entry.Proper)
    (hstructural : next.structural = buffer.structural ++ arrived)
    (hpushed : (more.filterMap Entry.pushed? ++ next.withheld).Perm (buffer.withheld ++ arrived))
    (hwithheld : ∀ action ∈ next.withheld, action.isAttach = true ∧ action.notes = []) :
    Account next (log ++ more) (described ++ more.filterMap Entry.described?)
      (payloads ++ more.filterMap Entry.payload?) where
  emitted := by rw [hemitted, account.emitted, List.map_append]
  proper := List.forall_mem_append.2 ⟨account.proper, hproper⟩
  pushed := by
    rw [hstructural, List.filterMap_append, List.append_assoc]
    refine (hpushed.append_left _).trans ?_
    rw [← List.append_assoc]
    exact account.pushed.append_right arrived
  withheld := hwithheld
  described := by rw [List.filterMap_append, account.described]
  payloads := by rw [List.filterMap_append, account.payloads]

/-- Actions of contributions are handed on. -/
theorem describe (actions : List Action) :
    Account (buffer.emit actions) (log ++ actions.map .described) (described ++ actions)
      payloads := by
  have hemitted : (buffer.emit actions).emitted =
      buffer.emitted ++ (actions.map Entry.described).map Entry.action := by
    simp [Buffer.emit, Function.comp_def, Entry.action]
  have hpushed : ((actions.map Entry.described).filterMap Entry.pushed? ++ buffer.withheld).Perm
      (buffer.withheld ++ []) := by
    rw [Entry.pushed?_described, List.append_nil, List.nil_append]
  have h := account.extend (buffer.emit actions) (actions.map .described) [] hemitted
    (by simp [Entry.Proper]) (List.append_nil _).symm hpushed account.withheld
  rwa [Entry.described?_described, Entry.payload?_described, List.append_nil] at h

/-- What is held back is handed on as it is. -/
theorem letGo :
    Account { buffer.emit buffer.withheld with withheld := [] }
      (log ++ buffer.withheld.map .structural) described payloads := by
  have hemitted : (buffer.emit buffer.withheld).emitted =
      buffer.emitted ++ (buffer.withheld.map Entry.structural).map Entry.action := by
    simp [Buffer.emit, Function.comp_def, Entry.action]
  have hpushed : ((buffer.withheld.map Entry.structural).filterMap Entry.pushed? ++ []).Perm
      (buffer.withheld ++ []) := by
    rw [Entry.pushed?_structural]
  have h := account.extend { buffer.emit buffer.withheld with withheld := [] }
    (buffer.withheld.map .structural) [] hemitted (by simp [Entry.Proper])
    (List.append_nil _).symm hpushed (by simp)
  rwa [Entry.described?_structural, Entry.payload?_structural, List.append_nil,
    List.append_nil] at h

/-- Notes are put into an action that is held back for their track, or into a new one. -/
theorem fill (target : Nat) (notes : List Json) : ∃ entry,
    Account { buffer.emit [(Buffer.fill target notes buffer.withheld).1] with
        withheld := (Buffer.fill target notes buffer.withheld).2 }
      (log ++ [entry]) described (payloads ++ [(target, notes)]) := by
  unfold Buffer.fill
  cases hsplit : splitFirst? (touches target) buffer.withheld with
  | some parts =>
      obtain ⟨before, found, after⟩ := parts
      obtain ⟨hwithheld, htouches, -⟩ := splitFirst?_eq_some hsplit
      -- The action that takes the notes was held back; the others still are.
      have hperm : (found :: (before ++ after)).Perm buffer.withheld := by
        rw [hwithheld]
        exact List.perm_middle.symm
      have hfound := account.withheld found (hperm.subset List.mem_cons_self)
      have hattaches : attachesTo target found = true := by
        rw [attachesTo, hfound.1, Bool.true_and]
        exact htouches
      have hrest : ∀ action ∈ before ++ after, action.isAttach = true ∧ action.notes = [] := by
        intro action haction
        exact account.withheld action (hperm.subset (List.mem_cons_of_mem found haction))
      have h := account.extend
        { buffer.emit [found.appendNotes notes] with withheld := before ++ after }
        [.filled found target notes] [] rfl
        (by simpa [Entry.Proper] using ⟨hattaches, hfound.2⟩) (List.append_nil _).symm
        (by rwa [List.append_nil]) hrest
      rw [List.filterMap_cons_none rfl, List.filterMap_nil, List.append_nil] at h
      exact ⟨.filled found target notes, h⟩
  | none =>
      have h := account.extend (buffer.emit [Action.attaching target notes])
        [.attached target notes] [] rfl (by simp [Entry.Proper]) (List.append_nil _).symm
        (by rw [List.append_nil]; exact .refl _) account.withheld
      rw [List.filterMap_cons_none rfl, List.filterMap_nil, List.append_nil] at h
      exact ⟨.attached target notes, h⟩

/-- A contribution is handed on: its notes, and then its actions. -/
theorem release (part : Contribution) : ∃ more,
    Account (buffer.release part) (log ++ more) (described ++ (buffer.releasing part).described)
      (payloads ++ (buffer.releasing part).payload?.toList) := by
  cases hpayload : (buffer.releasing part).payload? with
  | none =>
      obtain ⟨unattached, hrelease⟩ := Buffer.release_of_none hpayload
      rw [hrelease, Option.toList_none, List.append_nil]
      exact ⟨_, (account.describe _).of_fields _ rfl rfl rfl⟩
  | some payload =>
      obtain ⟨track, notes⟩ := payload
      obtain ⟨entry, h⟩ := account.fill track notes
      rw [Buffer.release_of_some hpayload, Option.toList_some]
      refine ⟨entry :: (buffer.releasing part).described.map .described, ?_⟩
      have h := h.describe (buffer.releasing part).described
      rwa [List.append_assoc, List.singleton_append] at h

omit account in
/-- Contributions are handed on one after another. None of them changes what is known of targets. -/
theorem foldl_release (parts : List Contribution) {buffer : Buffer} {log : List Entry}
    {described : List Action} {payloads : List (Nat × List Json)}
    (account : Account buffer log described payloads) : ∃ more,
    Account (parts.foldl (fun state part => state.release part) buffer) (log ++ more)
      (described ++ (parts.map buffer.releasing).flatMap Release.described)
      (payloads ++ (parts.map buffer.releasing).filterMap Release.payload?) := by
  induction parts generalizing buffer log described payloads with
  | nil => exact ⟨[], by simpa using account⟩
  | cons part rest ih =>
      obtain ⟨first, h⟩ := account.release part
      obtain ⟨second, h⟩ := ih h
      refine ⟨first ++ second, ?_⟩
      rw [Buffer.releasing_release] at h
      simpa [List.filterMap_eq_flatMap_toList] using h

/-- Once the structural actions are complete, every contribution that waits is handed on. -/
theorem resolve (hsettled : buffer.settled = true) : ∃ more,
    Account buffer.resolve (log ++ more)
      (described ++ (releaseAll buffer.snapshot buffer.structural buffer.ready).flatMap
        Release.described)
      (payloads ++ (releaseAll buffer.snapshot buffer.structural buffer.ready).filterMap
        Release.payload?) := by
  obtain ⟨more, h⟩ := Account.foldl_release
    (Capability.sortBy Contribution.capability buffer.ready)
    (account.of_fields { buffer with ready := [] } rfl rfl rfl)
  unfold Buffer.resolve
  rw [if_pos hsettled]
  dsimp only
  split
  · -- Nothing is awaited, so what is held back follows.
    have h := h.letGo
    rw [List.append_assoc] at h
    exact ⟨_, h⟩
  · exact ⟨more, h⟩

/-- A structural action is handed on or held back. -/
theorem push (action : Action) : ∃ more,
    Account (buffer.push action) (log ++ more) described payloads := by
  unfold Buffer.push
  dsimp only
  split
  · next hhold =>
    simp only [Bool.and_eq_true, List.isEmpty_iff] at hhold
    let next : Buffer := { buffer with
      structural := buffer.structural ++ [action]
      withheld := buffer.withheld ++ [action] }
    have h := account.extend next [] [action]
      (List.append_nil _).symm (by simp) rfl (.refl _)
      (List.forall_mem_append.2 ⟨account.withheld, by simpa using hhold.1⟩)
    rw [List.filterMap_nil, List.filterMap_nil, List.append_nil, List.append_nil,
      List.append_nil] at h
    exact ⟨[], by rwa [List.append_nil]⟩
  · let next : Buffer := { buffer with
      structural := buffer.structural ++ [action]
      emitted := buffer.emitted ++ [action] }
    have h := account.extend next [.structural action] [action]
      rfl (by simp [Entry.Proper]) rfl (List.perm_append_comm) account.withheld
    rw [List.filterMap_cons_none rfl, List.filterMap_cons_none rfl, List.filterMap_nil,
      List.filterMap_nil, List.append_nil, List.append_nil] at h
    exact ⟨[.structural action], h⟩

/-- The account is kept through an event, which hands on what it releases. -/
theorem step (event : Event) : ∃ more,
    Account (buffer.step event) (log ++ more)
      (described ++ (buffer.released event).flatMap Release.described)
      (payloads ++ (buffer.released event).filterMap Release.payload?) := by
  cases haction : event.action? with
  | some action =>
      obtain rfl := Event.eq_pushed haction
      obtain ⟨more, h⟩ := account.push action
      exact ⟨more, by simpa [Buffer.step, Buffer.released] using h⟩
  | none =>
      obtain ⟨_, _, hframe, -⟩ := buffer.arrived_frame event
      have hnext : Account (buffer.arrived event) log described payloads := by
        rw [hframe]
        exact account.of_fields _ rfl rfl rfl
      rw [Buffer.step_eq_resolve haction, Buffer.released_eq_releaseAll haction]
      cases hsettled : (buffer.arrived event).settled with
      | true => exact hnext.resolve hsettled
      | false =>
          rw [Buffer.resolve_of_unsettled hsettled]
          exact ⟨[], by simpa using hnext⟩

omit account in
/-- The account is kept through any events, which hand on what they release. -/
theorem run (events : List Event) {buffer : Buffer} {log : List Entry} {described : List Action}
    {payloads : List (Nat × List Json)} (account : Account buffer log described payloads) :
    ∃ more, Account (buffer.run events) (log ++ more)
      (described ++ (releases buffer.snapshot buffer.settled buffer.structural buffer.ready
        events).flatMap Release.described)
      (payloads ++ (releases buffer.snapshot buffer.settled buffer.structural buffer.ready
        events).filterMap Release.payload?) := by
  induction events generalizing buffer log described payloads with
  | nil => exact ⟨[], by simpa [releases, Buffer.run] using account⟩
  | cons event rest ih =>
      obtain ⟨first, h⟩ := account.step event
      obtain ⟨second, h⟩ := ih h
      refine ⟨first ++ second, ?_⟩
      show Account ((buffer.step event).run rest) _ _ _
      rw [Buffer.releases_cons, List.flatMap_append, List.filterMap_append, ← List.append_assoc,
        ← List.append_assoc, ← List.append_assoc]
      exact h

end Account

/-- What a buffer hands on from the start has an account. -/
theorem exists_account (snapshot : Snapshot) (structural : Bool) (content : List Capability)
    (events : List Event) : ∃ log,
    Account ((Buffer.start snapshot structural content).run events) log
      ((releases snapshot (!structural) [] [] events).flatMap Release.described)
      ((releases snapshot (!structural) [] [] events).filterMap Release.payload?) := by
  have hstart : Account (Buffer.start snapshot structural content) [] [] [] :=
    ⟨rfl, by simp, .refl _, by simp [Buffer.start], rfl, rfl⟩
  obtain ⟨log, account⟩ := hstart.run events
  exact ⟨log, account⟩

end Studio.Delivery
