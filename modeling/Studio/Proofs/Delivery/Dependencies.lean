import Mathlib.Data.List.Induction
import Studio.Proofs.Delivery.Agreement

/-!
# Content behind what it depends on

Until the structural actions are complete a buffer hands on structural actions only, each at once
and as it came, except for those that wait for notes. Its state is then a function of the events
(`Buffer.run_start_eq_opened`). `content_behind_structure` is the main statement: at every moment of
a delivery, what was handed on is the structural actions that do not wait, in their order, and
behind them what the contributions brought that came in so far.
-/

namespace Studio.Delivery

open Session (Snapshot)

/-! ### What was pushed -/

/-- The structural actions that came with events, as far as they pass a test that may depend on the
events in front of them. -/
def pushedWhere (test : List Event → Action → Bool) (past : List Event) : List Event → List Action
  | [] => []
  | event :: rest =>
    (event.action?.filter (test past)).toList ++ pushedWhere test (past ++ [event]) rest

section

variable {test : List Event → Action → Bool}

/-- The actions that are pushed in two runs of events are those of each, the second behind the
first. -/
theorem pushedWhere_append (past first second : List Event) :
    pushedWhere test past (first ++ second) =
      pushedWhere test past first ++ pushedWhere test (past ++ first) second := by
  induction first generalizing past with
  | nil => simp [pushedWhere]
  | cons event rest ih => simp [pushedWhere, ih]

/-- An event more adds the action that it pushes, if that passes the test. -/
theorem pushedWhere_concat (events : List Event) (event : Event) :
    pushedWhere test [] (events ++ [event]) =
      pushedWhere test [] events ++ (event.action?.filter (test events)).toList := by
  rw [pushedWhere_append, List.nil_append, pushedWhere, pushedWhere, List.append_nil]

/-- An action that was pushed passes the test or fails it. -/
theorem pushedWhere_perm (test : List Event → Action → Bool) (past events : List Event) :
    (pushedWhere (fun past action => !test past action) past events ++
      pushedWhere test past events).Perm (events.filterMap Event.action?) := by
  induction events generalizing past with
  | nil => exact .refl _
  | cons event rest ih =>
      have ih := ih (past ++ [event])
      cases haction : event.action? with
      | none => simpa [pushedWhere, haction] using ih
      | some action =>
          rw [List.filterMap_cons_some haction]
          simp only [pushedWhere, haction, Option.filter_some]
          cases test past action with
          | true => exact List.perm_middle.trans (ih.cons action)
          | false => exact ih.cons action

/-- An action that was pushed passed its test behind some events. -/
theorem test_of_mem_pushedWhere {past events : List Event} {action : Action}
    (h : action ∈ pushedWhere test past events) : ∃ before, test before action = true := by
  induction events generalizing past with
  | nil => simp [pushedWhere] at h
  | cons event rest ih =>
      rcases List.mem_append.1 h with hnow | hlater
      · exact ⟨past, (Option.filter_eq_some_iff.1 (Option.mem_toList.1 hnow)).2⟩
      · exact ih hlater

end

/-- Whether a capability finished with an event. -/
def Event.finishes (capability : Capability) (event : Event) : Bool :=
  event.finished?.any fun finished => finished.1 = capability

/-- Whether contributions are outstanding after events: a capability that was announced has not
finished, or a contribution came in, as none is handed on before the structural actions are
complete. -/
def outstandingAfter (announced : List Capability) (past : List Event) : Bool :=
  announced.any (fun capability => !past.any (Event.finishes capability)) ||
    past.any fun event => event.part?.isSome

/-- Whether a structural action that comes behind events waits: it attaches no notes yet, and
contributions are outstanding. -/
def waits (announced : List Capability) (past : List Event) (action : Action) : Bool :=
  action.isAttach && action.notes.isEmpty && outstandingAfter announced past

/-- The structural actions that wait. -/
def waiting (announced : List Capability) (events : List Event) : List Action :=
  pushedWhere (waits announced) [] events

/-- The structural actions that do not wait. -/
def prompt (announced : List Capability) (events : List Event) : List Action :=
  pushedWhere (fun past action => !waits announced past action) [] events

/-! ### Before the structural actions are complete -/

/-- The capabilities that were announced and have not finished. -/
def awaited (announced : List Capability) (past : List Event) : List Capability :=
  (Capability.all.filter announced.contains).filter fun capability =>
    !past.any (Event.finishes capability)

/-- What is awaited behind an event more is what it did not finish. -/
theorem awaited_concat (announced : List Capability) (past : List Event) (event : Event) :
    awaited announced (past ++ [event]) =
      (awaited announced past).filter fun capability => !event.finishes capability := by
  have htest (capability : Capability) :
      (!(past ++ [event]).any (Event.finishes capability)) =
        (!event.finishes capability && !past.any (Event.finishes capability)) := by
    rw [List.any_append, List.any_cons, List.any_nil, Bool.or_false, Bool.not_or, Bool.and_comm]
  simp only [awaited, htest, List.filter_filter, Bool.and_assoc]

namespace Buffer

/-- The state of a buffer after events in front of the completion of the structural actions. -/
def opened (snapshot : Snapshot) (announced : List Capability) (events : List Event) : Buffer where
  snapshot := snapshot
  emitted := prompt announced events
  structural := events.filterMap Event.action?
  withheld := waiting announced events
  settled := false
  pending := awaited announced events
  ready := events.filterMap Event.part?

/-- An action that is pushed is handed on or held back. -/
theorem push_eq (buffer : Buffer) (action : Action) :
    let held := action.isAttach && action.notes.isEmpty && buffer.outstanding
    buffer.push action = { buffer with
      structural := buffer.structural ++ [action]
      emitted := buffer.emitted ++ if held then [] else [action]
      withheld := buffer.withheld ++ if held then [action] else [] } := by
  intro held
  have hheld : held = (action.isAttach && action.notes.isEmpty &&
      { buffer with structural := buffer.structural ++ [action] }.outstanding) := rfl
  rw [push, ← hheld]
  cases held <;> simp [emit]

/-- A buffer that was opened has contributions outstanding as its events say. -/
theorem outstanding_opened (snapshot : Snapshot) (announced : List Capability)
    (events : List Event) :
    (opened snapshot announced events).outstanding = outstandingAfter announced events := by
  have hpending : (!(awaited announced events).isEmpty) =
      announced.any fun capability => !events.any (Event.finishes capability) := by
    rw [Bool.eq_iff_iff]
    simp [awaited, Capability.mem_all, and_comm]
  have hready : (!(events.filterMap Event.part?).isEmpty) =
      events.any fun event => event.part?.isSome := by
    rw [Bool.eq_iff_iff]
    simp [← Option.isSome_iff_ne_none]
  rw [outstandingAfter, ← hpending, ← hready]
  rfl

/-- Before the structural actions are complete, a structural action is handed on or waits, and a
contribution waits. -/
theorem step_opened (snapshot : Snapshot) (announced : List Capability) (events : List Event)
    {event : Event} (hfinished : event ≠ .structuralFinished) (hflushed : event ≠ .flushed) :
    (opened snapshot announced events).step event =
      opened snapshot announced (events ++ [event]) := by
  cases event with
  | pushed action =>
      have hawaited : awaited announced (events ++ [.pushed action]) =
          awaited announced events := by
        rw [awaited_concat]
        exact List.filter_eq_self.2 fun _ _ => rfl
      show push action _ = _
      rw [push_eq, outstanding_opened, ← waits]
      simp only [opened, hawaited, prompt, waiting, pushedWhere_concat]
      cases hwaits : waits announced events action <;>
        simp [Event.action?, Event.part?, Option.filter_some, hwaits]
  | structuralFinished => exact absurd rfl hfinished
  | contentFinished capability part =>
      have hawaited : awaited announced (events ++ [.contentFinished capability part]) =
          (awaited announced events).filter (· ≠ capability) := by
        rw [awaited_concat]
        simp [Event.finishes, Event.finished?, ne_comm]
      have hready : (events ++ [Event.contentFinished capability part]).filterMap Event.part? =
          events.filterMap Event.part? ++ part.toList := by
        rw [List.filterMap_append]
        cases part <;> rfl
      show finishContent capability part _ = _
      rw [finishContent, resolve_of_unsettled rfl]
      simp only [opened, prompt, waiting, pushedWhere_concat, hawaited, hready]
      simp [Event.action?]
  | flushed => exact absurd rfl hflushed

/-- Until the structural actions are complete, a delivery is a buffer that was opened. -/
theorem run_start_eq_opened (snapshot : Snapshot) (announced : List Capability)
    {events : List Event} (hfinished : .structuralFinished ∉ events)
    (hflushed : .flushed ∉ events) :
    (start snapshot true announced).run events = opened snapshot announced events := by
  induction events using List.reverseRecOn with
  | nil =>
      have hawaited : awaited announced [] = Capability.all.filter announced.contains :=
        List.filter_eq_self.2 fun _ _ => rfl
      rw [opened, hawaited]
      rfl
  | append_singleton events event ih =>
      simp only [List.mem_append, List.mem_singleton, not_or] at hfinished hflushed
      rw [run_append, ih hfinished.1 hflushed.1]
      exact step_opened snapshot announced events (Ne.symm hfinished.2) (Ne.symm hflushed.2)

/-- The account of a buffer whose structural actions are not complete: they were handed on as they
came. -/
theorem account_opened (snapshot : Snapshot) (announced : List Capability) (events : List Event) :
    Account (opened snapshot announced events) ((prompt announced events).map .structural) []
      [] where
  emitted := by simp [opened, Function.comp_def, Entry.action]
  proper := by simp [Entry.Proper]
  pushed := by
    rw [Entry.pushed?_structural]
    exact pushedWhere_perm (waits announced) [] events
  withheld := by
    intro action haction
    obtain ⟨past, hwaits⟩ := test_of_mem_pushedWhere haction
    simp only [waits, Bool.and_eq_true, List.isEmpty_iff] at hwaits
    exact hwaits.1
  described := Entry.described?_structural _
  payloads := Entry.payload?_structural _

end Buffer

/-! ### Moments of a delivery -/

/-- A release has a payload just where its contribution has notes and there is a target. -/
theorem Release.payload?_eq_some {release : Release} {track : Nat} {notes : List Json}
    (h : release.payload? = some (track, notes)) : release.target = some track ∧
      release.part.notes ≠ [] ∧ notes = release.part.notes.map Music.Note.toJson := by
  unfold payload? at h
  split at h
  · simp at h
  · next hsome =>
    obtain ⟨target, htarget, heq⟩ := Option.map_eq_some_iff.1 h
    obtain ⟨rfl, rfl⟩ := Prod.mk.inj heq
    exact ⟨htarget, fun hnone => hsome (List.isEmpty_iff.2 hnone), rfl⟩

/-- What is released is a contribution that waits or comes in. -/
theorem part_of_mem_releases {snapshot : Snapshot} {settled : Bool} {pushed : List Action}
    {waiting : List Contribution} {events : List Event} {release : Release}
    (h : release ∈ releases snapshot settled pushed waiting events) :
    release.part ∈ waiting ++ events.filterMap Event.part? := by
  have hall (pushed : List Action) {parts : List Contribution}
      (hmem : release ∈ releaseAll snapshot pushed parts) : release.part ∈ parts :=
    (part_releaseAll snapshot pushed parts).subset (List.mem_map_of_mem hmem)
  induction events generalizing settled pushed waiting with
  | nil => simp [releases] at h
  | cons event rest ih =>
      cases event with
      | pushed action => exact ih h
      | structuralFinished | flushed =>
          rcases List.mem_append.1 h with hnow | hlater
          · exact List.mem_append_left _ (hall pushed hnow)
          · exact List.mem_append_right waiting (ih hlater)
      | contentFinished capability part =>
          have harrived : waiting ++ (Event.contentFinished capability part :: rest).filterMap
              Event.part? = (waiting ++ part.toList) ++ rest.filterMap Event.part? := by
            rw [filterMap_cons_toList, List.append_assoc]
            rfl
          rw [harrived]
          cases settled with
          | true =>
              rcases List.mem_append.1 h with hnow | hlater
              · exact List.mem_append_left _ (hall pushed hnow)
              · exact List.mem_append_right _ (ih hlater)
          | false => exact ih h

/-- An entry for what is handed on late: a structural action that waited, or notes or an action of
one of the contributions, for the target. -/
structure Entry.Late (waited : List Action) (parts : List Contribution) (target : Option Nat)
    (entry : Entry) : Prop where
  proper : entry.Proper
  waited : ∀ action, entry.pushed? = some action → action ∈ waited
  notes : ∀ track notes, entry.payload? = some (track, notes) →
    target = some track ∧ ∃ part ∈ parts, part.notes ≠ [] ∧ notes = part.notes.map Music.Note.toJson
  described : ∀ action, entry.described? = some action →
    ∃ part ∈ parts, ∃ original ∈ part.actions, action = tag target original

/-- As long as only structural actions were handed on, all that comes behind them is late when no
more structural actions come. -/
theorem Account.late {buffer : Buffer} {front : List Action} {after : List Event}
    (account : Account buffer (front.map .structural) [] [])
    (complete : ∀ event ∈ after, event.action? = none) :
    let released := releases buffer.snapshot buffer.settled buffer.structural buffer.ready after
    ∃ late, Account (buffer.run after) (front.map .structural ++ late)
        (released.flatMap Release.described) (released.filterMap Release.payload?) ∧
      ∀ entry ∈ late, entry.Late buffer.withheld (buffer.ready ++ after.filterMap Event.part?)
        (resolveTarget buffer.structural buffer.snapshot) := by
  intro released
  obtain ⟨late, later⟩ := account.run after
  refine ⟨late, later, ?_⟩
  have hnone : after.filterMap Event.action? = [] := List.filterMap_eq_nil_iff.2 complete
  have hreleased : ∀ release ∈ released,
      release.target = resolveTarget buffer.structural buffer.snapshot ∧
        release.part ∈ buffer.ready ++ after.filterMap Event.part? := fun release hrelease =>
    ⟨target_of_mem_releases hnone hrelease, part_of_mem_releases hrelease⟩
  -- What was held back is handed on late or still held back.
  have hwaiting : (late.filterMap Entry.pushed? ++ (buffer.run after).withheld).Perm
      buffer.withheld := by
    have hbefore := account.pushed
    have hpushed := later.pushed
    rw [Entry.pushed?_structural] at hbefore
    rw [List.filterMap_append, Entry.pushed?_structural, List.append_assoc, Buffer.structural_run,
      hnone, List.append_nil] at hpushed
    exact (List.perm_append_left_iff _).1 (hpushed.trans hbefore.symm)
  have hpayloads : (front.map Entry.structural ++ late).filterMap Entry.payload? =
      released.filterMap Release.payload? := later.payloads
  have hdescribed : (front.map Entry.structural ++ late).filterMap Entry.described? =
      released.flatMap Release.described := later.described
  intro entry hentry
  refine ⟨later.proper entry (List.mem_append_right _ hentry), ?_, ?_, ?_⟩
  · intro action haction
    exact hwaiting.subset
      (List.mem_append_left _ (List.mem_filterMap.2 ⟨entry, hentry, haction⟩))
  · intro track notes hpayload
    have hmem : (track, notes) ∈ released.filterMap Release.payload? := by
      rw [← hpayloads]
      exact List.mem_filterMap.2 ⟨entry, List.mem_append_right _ hentry, hpayload⟩
    obtain ⟨release, hrelease, hbrings⟩ := List.mem_filterMap.1 hmem
    obtain ⟨htarget, hpart⟩ := hreleased release hrelease
    obtain ⟨htrack, hnotes, rfl⟩ := Release.payload?_eq_some hbrings
    exact ⟨htarget.symm.trans htrack, release.part, hpart, hnotes, rfl⟩
  · intro action haction
    have hmem : action ∈ released.flatMap Release.described := by
      rw [← hdescribed]
      exact List.mem_filterMap.2 ⟨entry, List.mem_append_right _ hentry, haction⟩
    obtain ⟨release, hrelease, hbrings⟩ := List.mem_flatMap.1 hmem
    obtain ⟨htarget, hpart⟩ := hreleased release hrelease
    obtain ⟨original, horiginal, rfl⟩ := List.mem_map.1 hbrings
    exact ⟨release.part, hpart, original, horiginal, by rw [htarget]⟩

/-- Before the structural actions are complete, what was handed on is those of them that do not
wait, as they came and in their order. That only grows: at every later moment, also within an event,
a listener has heard all of them and behind them what is late, that is notes and actions of
contributions that have come in, and structural actions that waited. -/
theorem content_behind_structure (snapshot : Snapshot) (announced : List Capability)
    {before after : List Event} (unfinished : .structuralFinished ∉ before)
    (unflushed : .flushed ∉ before) (complete : ∀ event ∈ after, event.action? = none) :
    let delivery := Buffer.start snapshot true announced
    (delivery.run before).emitted = prompt announced before ∧
      (delivery.run before).emitted <+: (delivery.run (before ++ after)).emitted ∧
      ∀ heard, (delivery.run before).emitted <+: heard →
        heard <+: (delivery.run (before ++ after)).emitted →
          ∃ late : List Entry, heard = prompt announced before ++ late.map Entry.action ∧
            ∀ entry ∈ late, entry.Late (waiting announced before)
              ((before ++ after).filterMap Event.part?)
              (resolveTarget (before.filterMap Event.action?) snapshot) := by
  intro delivery
  have hbefore : (delivery.run before).emitted = prompt announced before := by
    rw [Buffer.run_start_eq_opened snapshot announced unfinished unflushed]
    rfl
  obtain ⟨late, account, hlate⟩ :=
    (Buffer.account_opened snapshot announced before).late complete
  have hemitted : (delivery.run (before ++ after)).emitted =
      prompt announced before ++ late.map Entry.action := by
    rw [Buffer.run_append, Buffer.run_start_eq_opened snapshot announced unfinished unflushed,
      account.emitted, List.map_append, List.map_map]
    simp [Function.comp_def, Entry.action]
  refine ⟨hbefore, ⟨_, hbefore ▸ hemitted.symm⟩, ?_⟩
  rintro heard hfront hheard
  obtain ⟨rest, rfl⟩ := hbefore ▸ hfront
  rw [hemitted, List.prefix_append_right_inj, List.prefix_iff_eq_take, ← List.map_take] at hheard
  refine ⟨late.take rest.length, by rw [← hheard], ?_⟩
  intro entry hentry
  rw [List.filterMap_append]
  exact hlate entry (List.mem_of_mem_take hentry)

/-- A beat that comes in before the action that takes its notes is heard behind the new track. -/
theorem content_behind_structure_beat :
    let create : Action := ⟨Action.Kind.createTrack, [("index", .nat 0)]⟩
    let clip : Action := ⟨Action.Kind.addMidi, [("track", .nat 0)]⟩
    let beat : Contribution := ⟨.drummer, [⟨Action.Kind.drumPattern, []⟩], [⟨36, 100, 0, 1⟩]⟩
    let before : List Event := [.pushed create, .contentFinished .drummer (some beat),
      .pushed clip]
    let after : List Event := [.structuralFinished]
    let delivery := Buffer.start {} true [.drummer]
    (.structuralFinished ∉ before ∧ .flushed ∉ before ∧ ∀ event ∈ after, event.action? = none) ∧
      (delivery.run before).emitted = [create] ∧
      ∃ late : List Entry,
        (delivery.run (before ++ after)).emitted = create :: late.map Entry.action ∧
          ∀ entry ∈ late, entry.Late [clip] [beat] (some 0) := by
  intro create clip beat before after delivery
  have unfinished : .structuralFinished ∉ before := by simp [before]
  have unflushed : .flushed ∉ before := by simp [before]
  have complete : ∀ event ∈ after, event.action? = none := by simp [after, Event.action?]
  obtain ⟨hbefore, hgrows, hlate⟩ :=
    content_behind_structure {} [.drummer] unfinished unflushed complete
  exact ⟨⟨unfinished, unflushed, complete⟩, hbefore, hlate _ hgrows (List.prefix_refl _)⟩

end Studio.Delivery
