import Studio.Proofs.Delivery.Account

/-!
# Listening to a delivery

Whoever listens to a delivery hears what each event hands on, right when it happens. Nothing that
was handed on is changed later, so in the end that is the list of all that was handed on
(`emitted_append_heard`). Events that bring neither actions nor contributions are not heard
(`Untouched.run`).
-/

namespace Studio.Delivery

/-- An event that brings neither an action nor a contribution. -/
def Event.Idle (event : Event) : Prop :=
  event.action? = none ∧ event.part? = none

namespace Buffer

variable {buffer : Buffer}

/-! ### What is heard -/

/-- A contribution that is released takes back nothing that was handed on. -/
theorem emitted_release (buffer : Buffer) (part : Contribution) :
    buffer.emitted <+: (buffer.release part).emitted := by
  cases hpayload : (buffer.releasing part).payload? with
  | none =>
      obtain ⟨unattached, hrelease⟩ := release_of_none hpayload
      rw [hrelease]
      exact List.prefix_append _ _
  | some payload =>
      obtain ⟨track, notes⟩ := payload
      rw [release_of_some hpayload]
      exact (List.prefix_append _ _).trans (List.prefix_append _ _)

/-- Contributions that are released one by one take back nothing. -/
theorem emitted_foldl_release (parts : List Contribution) (buffer : Buffer) :
    buffer.emitted <+: (parts.foldl (fun state part => state.release part) buffer).emitted := by
  induction parts generalizing buffer with
  | nil => exact List.prefix_rfl
  | cons part rest ih => exact (emitted_release buffer part).trans (ih _)

/-- What is released at once takes back nothing. -/
theorem emitted_resolve (buffer : Buffer) : buffer.emitted <+: buffer.resolve.emitted := by
  have hreleased := emitted_foldl_release
    (Capability.sortBy Contribution.capability buffer.ready) { buffer with ready := [] }
  unfold resolve
  split
  · dsimp only
    split
    · exact hreleased.trans (List.prefix_append _ _)
    · exact hreleased
  · exact List.prefix_rfl

/-- An event only adds to what was handed on. -/
theorem emitted_step (buffer : Buffer) (event : Event) :
    buffer.emitted <+: (buffer.step event).emitted := by
  cases haction : event.action? with
  | some action =>
      obtain rfl := Event.eq_pushed haction
      simp only [step, push]
      split
      · exact List.prefix_rfl
      · exact List.prefix_append _ _
  | none =>
      obtain ⟨_, _, hframe, -⟩ := buffer.arrived_frame event
      have hbefore : (buffer.arrived event).emitted = buffer.emitted := by rw [hframe]
      rw [step_eq_resolve haction, ← hbefore]
      exact emitted_resolve _

/-- What events hand on, one after another. -/
def heard (buffer : Buffer) : List Event → List Action
  | [] => []
  | event :: rest =>
    (buffer.step event).emitted.drop buffer.emitted.length ++ (buffer.step event).heard rest

/-- What is heard is all that is handed on, each action once and in order. -/
theorem emitted_append_heard (buffer : Buffer) (events : List Event) :
    buffer.emitted ++ buffer.heard events = (buffer.run events).emitted := by
  induction events generalizing buffer with
  | nil => exact List.append_nil _
  | cons event rest ih =>
      obtain ⟨more, hmore⟩ := emitted_step buffer event
      show buffer.emitted ++ ((buffer.step event).emitted.drop buffer.emitted.length ++
        (buffer.step event).heard rest) = ((buffer.step event).run rest).emitted
      rw [← ih, ← hmore, List.drop_left, List.append_assoc]

/-! ### Nothing to hear -/

/-- Nothing was handed on, nothing is held back and nothing waits. -/
structure Untouched (buffer : Buffer) : Prop where
  emitted : buffer.emitted = []
  withheld : buffer.withheld = []
  ready : buffer.ready = []

/-- A delivery begins untouched. -/
theorem untouched_start (snapshot : Session.Snapshot) (structural : Bool)
    (content : List Capability) : (start snapshot structural content).Untouched :=
  ⟨rfl, rfl, rfl⟩

/-- Releasing leaves an untouched buffer untouched. -/
theorem Untouched.resolve (h : buffer.Untouched) : buffer.resolve.Untouched := by
  obtain ⟨hemitted, hwithheld, hready⟩ := h
  unfold Buffer.resolve
  split
  · simp only [hready, Capability.sortBy, List.mergeSort_nil, List.foldl_nil]
    split
    · exact ⟨by simp [emit, hemitted, hwithheld], rfl, rfl⟩
    · exact ⟨hemitted, hwithheld, rfl⟩
  · exact ⟨hemitted, hwithheld, hready⟩

/-- An idle event leaves an untouched buffer untouched. -/
theorem Untouched.step (h : buffer.Untouched) {event : Event} (hidle : event.Idle) :
    (buffer.step event).Untouched := by
  obtain ⟨hemitted, hwithheld, hready⟩ := h
  obtain ⟨haction, hpart⟩ := hidle
  obtain ⟨_, _, hframe, -⟩ := buffer.arrived_frame event
  have hnext : (buffer.arrived event).Untouched := by
    rw [hframe, hpart]
    exact ⟨hemitted, hwithheld, by simp [hready]⟩
  rw [step_eq_resolve haction]
  exact hnext.resolve

/-- Events that bring nothing hand on nothing. -/
theorem Untouched.run (h : buffer.Untouched) {events : List Event}
    (hidle : ∀ event ∈ events, event.Idle) : (buffer.run events).Untouched := by
  induction events generalizing buffer with
  | nil => exact h
  | cons event rest ih =>
      obtain ⟨hevent, hrest⟩ := List.forall_mem_cons.1 hidle
      exact ih (h.step hevent) hrest

end Buffer

end Studio.Delivery
