import Studio.Proofs.Delivery.Account

/-!
# Nothing is lost, nothing comes twice

`run_conserves` says what the actions are that a buffer hands on until it is flushed: each
structural action, each action of a contribution and the notes of each contribution, all of them
once. A buffer that awaits nothing holds nothing back (`Buffer.Quiet`), so once everything has
finished nothing is left in it.
-/

namespace Studio

/-! ### Actions that attach notes -/

namespace Action

/-- The target of an action that attaches notes is the track. -/
theorem targetField_of_isAttach {action : Action} (h : action.isAttach = true) :
    action.targetField = "track" := by
  have hcreation : action.isCreation = false := by
    simp only [isAttach, isCreation, beq_iff_eq] at h ⊢
    rw [h]
    decide
  rw [targetField, hcreation]
  rfl

/-- What an action attaches notes to is its track. -/
theorem target?_of_isAttach {action : Action} (h : action.isAttach = true) :
    action.target? = (action.get? "track").bind Json.asIndex? := by
  rw [target?, targetField_of_isAttach h]

/-- A value that is read as an index is the number of this index. -/
theorem eq_nat_of_asIndex? {value : Json} {n : Nat} (h : value.asIndex? = some n) :
    value = .nat n := by
  unfold Json.asIndex? at h
  split at h
  · split at h
    · obtain rfl := Option.some.inj h
      rfl
    · simp at h
  · simp at h

/-- The track of an action that attaches notes to a target is that target. -/
theorem get?_track_of_attachesTo {action : Action} {target : Nat}
    (h : Delivery.attachesTo target action = true) : action.get? "track" = some (.nat target) := by
  simp only [Delivery.attachesTo, Bool.and_eq_true, beq_iff_eq] at h
  obtain ⟨hattach, htarget⟩ := h
  rw [target?_of_isAttach hattach] at htarget
  obtain ⟨value, hvalue, hindex⟩ := Option.bind_eq_some_iff.1 htarget
  rw [hvalue, eq_nat_of_asIndex? hindex]

/-- More notes do not change whether an action attaches some. -/
@[simp] theorem isAttach_appendNotes (action : Action) (notes : List Json) :
    (action.appendNotes notes).isAttach = action.isAttach := rfl

/-- More notes leave the track of an action as it is. -/
theorem get?_track_appendNotes (action : Action) (notes : List Json) :
    (action.appendNotes notes).get? "track" = action.get? "track" := by
  rw [appendNotes, get?_set, if_neg (by decide)]

/-- An attachment attaches notes. -/
@[simp] theorem isAttach_attaching (target : Nat) (notes : List Json) :
    (attaching target notes).isAttach = true := rfl

/-- An attachment has its notes. -/
@[simp] theorem notes_attaching (target : Nat) (notes : List Json) :
    (attaching target notes).notes = notes := by
  rw [attaching, notes_appendNotes]
  rfl

/-- An attachment has its target as track. -/
theorem get?_track_attaching (target : Nat) (notes : List Json) :
    (attaching target notes).get? "track" = some (.nat target) := by
  rw [attaching, get?_track_appendNotes]
  rfl

end Action

namespace Delivery

open Session (Snapshot)

/-- The action that brings notes is about their track and attaches just these notes. -/
theorem Entry.Proper.payload {entry : Entry} (h : entry.Proper) {target : Nat} {notes : List Json}
    (hpayload : entry.payload? = some (target, notes)) : entry.action.isAttach = true ∧
      entry.action.get? "track" = some (.nat target) ∧ entry.action.notes = notes := by
  cases entry with
  | structural | described => simp [payload?] at hpayload
  | filled action =>
      obtain ⟨rfl, rfl⟩ := Prod.mk.inj (Option.some.inj hpayload)
      obtain ⟨hattaches, hnotes⟩ := h
      refine ⟨?_, ?_, ?_⟩
      · exact (Bool.and_eq_true_iff.1 hattaches).1
      · exact (Action.get?_track_appendNotes _ _).trans (Action.get?_track_of_attachesTo hattaches)
      · rw [Entry.action, Action.notes_appendNotes, hnotes, List.nil_append]
  | attached =>
      obtain ⟨rfl, rfl⟩ := Prod.mk.inj (Option.some.inj hpayload)
      exact ⟨rfl, Action.get?_track_attaching _ _, Action.notes_attaching _ _⟩

/-! ### What is released -/

/-- To release contributions uses each of them once. -/
theorem part_releaseAll (snapshot : Snapshot) (pushed : List Action) (parts : List Contribution) :
    ((releaseAll snapshot pushed parts).map Release.part).Perm parts := by
  simpa [releaseAll, Capability.sortBy, Function.comp_def] using List.mergeSort_perm parts _

/-- Every contribution is released once, at the latest when the buffer is flushed. -/
theorem part_releases (snapshot : Snapshot) (settled : Bool) (pushed : List Action)
    (waiting : List Contribution) (events : List Event) :
    ((releases snapshot settled pushed waiting (events ++ [.flushed])).map Release.part).Perm
      (waiting ++ events.filterMap Event.part?) := by
  induction events generalizing settled pushed waiting with
  | nil => simpa [releases] using part_releaseAll snapshot pushed waiting
  | cons event rest ih =>
      cases event with
      | pushed action =>
          show ((releases snapshot settled (pushed ++ [action]) waiting
            (rest ++ [.flushed])).map Release.part).Perm (waiting ++ rest.filterMap Event.part?)
          exact ih settled (pushed ++ [action]) waiting
      | structuralFinished | flushed =>
          show ((releaseAll snapshot pushed waiting ++
            releases snapshot true pushed [] (rest ++ [.flushed])).map Release.part).Perm
              (waiting ++ rest.filterMap Event.part?)
          rw [List.map_append]
          exact (part_releaseAll snapshot pushed waiting).append (ih true pushed [])
      | contentFinished capability part =>
          have harrived : (waiting ++ part.toList) ++ rest.filterMap Event.part? =
              waiting ++ (.contentFinished capability part :: rest).filterMap Event.part? := by
            rw [filterMap_cons_toList, List.append_assoc]
            rfl
          rw [← harrived]
          cases settled with
          | true =>
              show ((releaseAll snapshot pushed (waiting ++ part.toList) ++
                releases snapshot true pushed [] (rest ++ [.flushed])).map Release.part).Perm
                  (waiting ++ part.toList ++ rest.filterMap Event.part?)
              rw [List.map_append]
              exact (part_releaseAll snapshot pushed _).append (ih true pushed [])
          | false =>
              show ((releases snapshot false pushed (waiting ++ part.toList)
                (rest ++ [.flushed])).map Release.part).Perm _
              exact ih false pushed (waiting ++ part.toList)

/-! ### What is left in a buffer -/

namespace Buffer

variable {buffer : Buffer}

/-- A buffer that awaits nothing holds nothing back. -/
def Quiet (buffer : Buffer) : Prop :=
  buffer.settled = true → buffer.pending = [] → buffer.ready = [] ∧ buffer.withheld = []

/-- A buffer that has released what is ready is quiet. -/
theorem quiet_resolve (buffer : Buffer) : buffer.resolve.Quiet := by
  intro hsettled hpending
  cases hbefore : buffer.settled with
  | true =>
      obtain ⟨_, _, _, hframe, hwithheld⟩ := resolve_frame buffer hbefore
      rw [hframe] at hpending ⊢
      exact ⟨rfl, hwithheld hpending⟩
  | false =>
      rw [resolve_of_unsettled hbefore] at hsettled
      simp [hbefore] at hsettled

/-- Nothing is held back unless a contribution is awaited or waits, so a buffer stays quiet. -/
theorem Quiet.step (h : buffer.Quiet) (event : Event) : (buffer.step event).Quiet := by
  cases event with
  | pushed action =>
      simp only [Buffer.step, push]
      split
      · next hhold =>
        -- An action is held back only while contributions are outstanding.
        intro hsettled hpending
        obtain ⟨hready, -⟩ := h hsettled hpending
        have hnone : buffer.pending = [] := hpending
        simp [outstanding, hready, hnone] at hhold
      · exact h
  | structuralFinished | flushed | contentFinished => exact quiet_resolve _

/-- A quiet buffer stays quiet over a run of events. -/
theorem Quiet.run (h : buffer.Quiet) (events : List Event) : (buffer.run events).Quiet := by
  induction events generalizing buffer with
  | nil => exact h
  | cons event rest ih =>
      show ((buffer.step event).run rest).Quiet
      exact ih (h.step event)

/-- A delivery begins quiet. -/
theorem quiet_start (snapshot : Snapshot) (structural : Bool) (content : List Capability) :
    (start snapshot structural content).Quiet :=
  fun _ _ => ⟨rfl, rfl⟩

/-! ### What events change -/

/-- Releasing changes nothing in what was said of the structural actions and of contents. -/
theorem resolve_fields (buffer : Buffer) : buffer.resolve.settled = buffer.settled ∧
    buffer.resolve.pending = buffer.pending ∧ buffer.resolve.structural = buffer.structural := by
  cases hsettled : buffer.settled with
  | true =>
      obtain ⟨_, _, _, hframe, -⟩ := resolve_frame buffer hsettled
      rw [hframe]
      exact ⟨hsettled, rfl, rfl⟩
  | false =>
      rw [resolve_of_unsettled hsettled]
      exact ⟨hsettled, rfl, rfl⟩

/-- A structural action that comes in is added to the structural ones, and nothing else is said. -/
theorem push_fields (buffer : Buffer) (action : Action) :
    (buffer.push action).settled = buffer.settled ∧
      (buffer.push action).pending = buffer.pending ∧
      (buffer.push action).structural = buffer.structural ++ [action] := by
  simp only [push]
  split <;> exact ⟨rfl, rfl, rfl⟩

/-- An event adds the structural action that it brings, and no other. -/
theorem structural_step (buffer : Buffer) (event : Event) :
    (buffer.step event).structural = buffer.structural ++ event.action?.toList := by
  cases event with
  | pushed action => exact (push_fields buffer action).2.2
  | structuralFinished | flushed | contentFinished =>
      exact (resolve_fields _).2.2.trans (List.append_nil _).symm

/-- The structural actions of a buffer are those that were pushed. -/
theorem structural_run (buffer : Buffer) (events : List Event) :
    (buffer.run events).structural = buffer.structural ++ events.filterMap Event.action? := by
  induction events generalizing buffer with
  | nil => simp [run]
  | cons event rest ih =>
      show ((buffer.step event).run rest).structural = _
      rw [ih, structural_step, List.append_assoc, filterMap_cons_toList]

/-- Structural actions that are complete stay complete. -/
theorem settled_step (h : buffer.settled = true) (event : Event) :
    (buffer.step event).settled = true := by
  cases event with
  | pushed action => exact (push_fields buffer action).1.trans h
  | structuralFinished | flushed => exact (resolve_fields _).1
  | contentFinished => exact (resolve_fields _).1.trans h

/-- Once the structural actions are complete they stay so. -/
theorem settled_run {events : List Event}
    (h : buffer.settled = true ∨ .structuralFinished ∈ events) :
    (buffer.run events).settled = true := by
  induction events generalizing buffer with
  | nil => simpa [run] using h
  | cons event rest ih =>
      show ((buffer.step event).run rest).settled = true
      refine ih ?_
      rcases h with hsettled | hfinished
      · exact .inl (settled_step hsettled event)
      · rcases List.mem_cons.1 hfinished with rfl | hrest
        · left
          show buffer.finishStructural.settled = true
          exact (resolve_fields _).1
        · exact .inr hrest

/-- What is awaited behind an event was awaited in front of it, and did not finish with it. -/
theorem pending_step {capability : Capability} {event : Event}
    (h : capability ∈ (buffer.step event).pending) :
    capability ∈ buffer.pending ∧ ∀ part, event ≠ .contentFinished capability part := by
  cases event with
  | pushed action =>
      have hpending : capability ∈ (buffer.push action).pending := h
      rw [(push_fields buffer action).2.1] at hpending
      exact ⟨hpending, fun part => nofun⟩
  | structuralFinished =>
      have hpending : capability ∈ buffer.finishStructural.pending := h
      rw [finishStructural, (resolve_fields _).2.1] at hpending
      exact ⟨hpending, fun part => nofun⟩
  | contentFinished finished part =>
      have hpending : capability ∈ (buffer.finishContent finished part).pending := h
      rw [finishContent, (resolve_fields _).2.1] at hpending
      obtain ⟨hmem, hne⟩ := List.mem_filter.1 hpending
      refine ⟨hmem, ?_⟩
      intro other heq
      obtain ⟨rfl, -⟩ := Event.contentFinished.inj heq
      simp at hne
  | flushed =>
      have hpending : capability ∈ buffer.flush.pending := h
      rw [flush, (resolve_fields _).2.1] at hpending
      simp at hpending

/-- Only capabilities whose contribution did not come are awaited. -/
theorem pending_run {capability : Capability} {events : List Event}
    (h : capability ∈ (buffer.run events).pending) :
    capability ∈ buffer.pending ∧ ∀ part, .contentFinished capability part ∉ events := by
  induction events generalizing buffer with
  | nil => exact ⟨h, by simp⟩
  | cons event rest ih =>
      obtain ⟨hmem, hrest⟩ := ih h
      obtain ⟨hmem, hevent⟩ := pending_step hmem
      refine ⟨hmem, ?_⟩
      intro part hpart
      rcases List.mem_cons.1 hpart with heq | hlater
      · exact hevent part heq.symm
      · exact hrest part hlater

/-- A flushed buffer holds nothing back, and nothing waits in it. -/
theorem empty_of_flushed (buffer : Buffer) (events : List Event) :
    (buffer.run (events ++ [.flushed])).ready = [] ∧
      (buffer.run (events ++ [.flushed])).withheld = [] := by
  rw [run_append]
  obtain ⟨_, _, _, hframe, hwithheld⟩ := resolve_frame
    { buffer.run events with settled := true, pending := [] } rfl
  show (buffer.run events).flush.ready = [] ∧ (buffer.run events).flush.withheld = []
  rw [flush, hframe]
  exact ⟨rfl, hwithheld rfl⟩

/-- Once everything has finished, nothing is left in a buffer. -/
theorem empty_of_finished {snapshot : Snapshot} {structural : Bool} {content : List Capability}
    {events : List Event} (hstructural : structural = false ∨ .structuralFinished ∈ events)
    (hcontent : ∀ capability ∈ content, ∃ part, .contentFinished capability part ∈ events) :
    ((start snapshot structural content).run events).ready = [] ∧
      ((start snapshot structural content).run events).withheld = [] := by
  refine (quiet_start snapshot structural content).run events (settled_run ?_) ?_
  · exact hstructural.imp_left fun h => by simp [start, h]
  · refine List.eq_nil_iff_forall_not_mem.2 ?_
    intro capability hpending
    obtain ⟨hmem, hnone⟩ := pending_run hpending
    obtain ⟨part, hpart⟩ := hcontent capability (by simpa [start] using (List.mem_filter.1 hmem).2)
    exact hnone part hpart

end Buffer

/-! ### Conservation -/

/-- In a flushed buffer, the log has the structural actions that were pushed and no others. -/
theorem Account.pushed_of_flushed {snapshot : Snapshot} {structural : Bool}
    {content : List Capability} {events : List Event} {log : List Entry} {described : List Action}
    {payloads : List (Nat × List Json)}
    (account : Account ((Buffer.start snapshot structural content).run (events ++ [.flushed])) log
      described payloads) :
    (log.filterMap Entry.pushed?).Perm (events.filterMap Event.action?) := by
  have h := account.pushed
  have hflushed : [Event.flushed].filterMap Event.action? = [] := rfl
  rwa [(Buffer.empty_of_flushed _ events).2, List.append_nil, Buffer.structural_run,
    List.filterMap_append, hflushed, List.append_nil] at h

/-- What a buffer hands on until it is flushed is explained by a log: every structural action once,
as it was pushed or with the notes of one contribution put into it; every action of a contribution
once and in order, with the target at its release as its track; and for all notes of a contribution
one action that attaches them to that target. Every contribution is released once. Once everything
has finished nothing is left in the buffer, even before it is flushed. -/
theorem run_conserves (snapshot : Snapshot) (structural : Bool) (content : List Capability)
    (events : List Event) :
    let start := Buffer.start snapshot structural content
    let released := releases snapshot (!structural) [] [] (events ++ [.flushed])
    (∃ log : List Entry,
      (start.run (events ++ [.flushed])).emitted = log.map Entry.action ∧
      (∀ entry ∈ log, entry.Proper) ∧
      (log.filterMap Entry.pushed?).Perm (events.filterMap Event.action?) ∧
      log.filterMap Entry.described? = released.flatMap Release.described ∧
      log.filterMap Entry.payload? = released.filterMap Release.payload? ∧
      ∀ entry ∈ log, ∀ target notes, entry.payload? = some (target, notes) →
        entry.action.isAttach = true ∧ entry.action.get? "track" = some (.nat target) ∧
          entry.action.notes = notes) ∧
    (released.map Release.part).Perm (events.filterMap Event.part?) ∧
    ((structural = false ∨ .structuralFinished ∈ events) →
      (∀ capability ∈ content, ∃ part, .contentFinished capability part ∈ events) →
        (start.run events).ready = [] ∧ (start.run events).withheld = []) := by
  intro start released
  obtain ⟨log, account⟩ := exists_account snapshot structural content (events ++ [.flushed])
  refine ⟨⟨log, account.emitted, account.proper, account.pushed_of_flushed, account.described,
    account.payloads, ?_⟩, part_releases snapshot (!structural) [] [] events,
    Buffer.empty_of_finished⟩
  intro entry hentry target notes hpayload
  exact (account.proper entry hentry).payload hpayload

end Delivery

end Studio
