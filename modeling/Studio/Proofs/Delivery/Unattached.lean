import Studio.Proofs.Delivery.Merging

/-!
# Contributions without a track

Without a target the notes of contributions go nowhere. A merge and a delivery both report whose
they are, and `unattached_agrees_iff` says when the two reports are the same. A delivery reports all
contributions, also those without notes, so `unattached_differs` when one of them has none.
-/

namespace Studio.Delivery

open Session (Snapshot)

/-- The capability of a release that has no target. -/
def Release.unplaced? (release : Release) : Option Capability :=
  if release.target.isSome then none else some release.part.capability

/-! ### What a delivery reports -/

namespace Buffer

/-- A contribution that is released is reported if it finds no place. -/
theorem unattached_release (buffer : Buffer) (part : Contribution) :
    (buffer.release part).unattached =
      buffer.unattached ++ (buffer.releasing part).unplaced?.toList := by
  unfold release Release.unplaced? releasing
  cases resolveTarget buffer.structural buffer.snapshot with
  | none => rfl
  | some track =>
      dsimp only
      split <;> simp [emit]

/-- Contributions that are released one by one are reported if they find no place. -/
theorem unattached_foldl_release (parts : List Contribution) (buffer : Buffer) :
    (parts.foldl (fun state part => state.release part) buffer).unattached =
      buffer.unattached ++ (parts.map buffer.releasing).filterMap Release.unplaced? := by
  induction parts generalizing buffer with
  | nil => simp
  | cons part rest ih =>
      rw [List.foldl_cons, ih, unattached_release, releasing_release, List.append_assoc,
        List.map_cons, filterMap_cons_toList]

/-- What waits is released at once, and reported where it finds no place. -/
theorem unattached_resolve (buffer : Buffer) (hsettled : buffer.settled = true) :
    buffer.resolve.unattached = buffer.unattached ++
      (releaseAll buffer.snapshot buffer.structural buffer.ready).filterMap Release.unplaced? := by
  have hreleased := unattached_foldl_release
    (Capability.sortBy Contribution.capability buffer.ready) { buffer with ready := [] }
  unfold resolve
  rw [if_pos hsettled]
  dsimp only
  split <;> exact hreleased

/-- An event reports what it releases without a target. -/
theorem unattached_step (buffer : Buffer) (event : Event) :
    (buffer.step event).unattached =
      buffer.unattached ++ (buffer.released event).filterMap Release.unplaced? := by
  cases haction : event.action? with
  | some action =>
      obtain rfl := Event.eq_pushed haction
      simp only [step, push, released]
      split <;> simp [emit]
  | none =>
      obtain ⟨_, _, hframe, -⟩ := buffer.arrived_frame event
      have hbefore : (buffer.arrived event).unattached = buffer.unattached := by rw [hframe]
      rw [step_eq_resolve haction, released_eq_releaseAll haction, ← hbefore]
      cases hsettled : (buffer.arrived event).settled with
      | true => exact unattached_resolve _ hsettled
      | false => simp [resolve_of_unsettled hsettled]

/-- A run of events reports what it releases without a place. -/
theorem unattached_run (events : List Event) (buffer : Buffer) :
    (buffer.run events).unattached = buffer.unattached ++
      (releases buffer.snapshot buffer.settled buffer.structural buffer.ready
        events).filterMap Release.unplaced? := by
  induction events generalizing buffer with
  | nil => simp [run, releases]
  | cons event rest ih =>
      show ((buffer.step event).run rest).unattached = _
      rw [ih, unattached_step, releases_cons, List.filterMap_append, List.append_assoc]

end Buffer

/-! ### Both reports -/

/-- Without a target all contributions are without a place, and with one none is. -/
theorem unplaced?_releaseAll (snapshot : Snapshot) (structural : List Action)
    (parts : List Contribution) :
    ((releaseAll snapshot structural parts).filterMap Release.unplaced?).Perm
      (if (resolveTarget structural snapshot).isSome then []
        else parts.map Contribution.capability) := by
  unfold releaseAll
  cases resolveTarget structural snapshot with
  | none =>
      simpa [List.filterMap_map, Function.comp_def, Release.unplaced?] using
        (Capability.sortBy_perm Contribution.capability parts).map Contribution.capability
  | some track => simp [Release.unplaced?]

/-- Without a target, merging reports the contributions that have notes. -/
theorem unattached_merge (snapshot : Snapshot) (structural : List Action)
    (parts : List Contribution) :
    (merge structural parts snapshot).unattached.Perm
      (if (resolveTarget structural snapshot).isSome then []
        else (parts.filter fun part => part.notes ≠ []).map Contribution.capability) := by
  unfold merge
  cases resolveTarget structural snapshot with
  | none =>
      have hfilter : (fun part : Contribution => !part.notes.isEmpty) =
          fun part => decide (part.notes ≠ []) := by
        funext part
        cases part.notes <;> rfl
      rw [hfilter]
      exact ((Capability.sortBy_perm Contribution.capability parts).filter _).map _
  | some track => exact .refl _

variable {task : Bool} {structural : List Action}
  {contents : List (Capability × Option Contribution)} {events : List Event}

/-- Without a target, a delivery reports all contributions. -/
theorem Schedule.unattached (schedule : Schedule task structural contents events)
    (snapshot : Snapshot) :
    ((Buffer.start snapshot task (contents.map Prod.fst)).run
      (events ++ [.flushed])).unattached.Perm
      (if (resolveTarget structural snapshot).isSome then []
        else (contents.filterMap Prod.snd).map Contribution.capability) := by
  rw [Buffer.unattached_run]
  exact ((schedule.releases_perm snapshot).filterMap _).trans
    (unplaced?_releaseAll snapshot structural _)

/-- With a target nothing is reported. Without one, a merge reports the contributions with notes and
a delivery all of them, so that the reports are the same just when each of them has notes. -/
theorem unattached_agrees_iff (schedule : Schedule task structural contents events)
    (snapshot : Snapshot)
    (distinct : ((contents.filterMap Prod.snd).map Contribution.capability).Nodup) :
    let parts := contents.filterMap Prod.snd
    let goal := resolveTarget structural snapshot
    let delivered := ((Buffer.start snapshot task (contents.map Prod.fst)).run
      (events ++ [.flushed])).unattached
    let merged := (merge structural parts snapshot).unattached
    delivered.Perm (if goal.isSome then [] else parts.map Contribution.capability) ∧
      merged.Perm (if goal.isSome then [] else
        (parts.filter fun part => part.notes ≠ []).map Contribution.capability) ∧
      ((∀ capability, capability ∈ delivered ↔ capability ∈ merged) ↔
        goal.isSome ∨ ∀ part ∈ parts, part.notes ≠ []) := by
  intro parts goal delivered merged
  have hdelivered := schedule.unattached snapshot
  have hmerged := unattached_merge snapshot structural parts
  refine ⟨hdelivered, hmerged, ?_⟩
  have hmem (capability : Capability) : (capability ∈ delivered ↔ capability ∈ merged) ↔
      (capability ∈ (if goal.isSome then [] else parts.map Contribution.capability) ↔
        capability ∈ (if goal.isSome then [] else
          (parts.filter fun part => part.notes ≠ []).map Contribution.capability)) := by
    rw [hdelivered.mem_iff, hmerged.mem_iff]
  simp only [hmem]
  cases goal with
  | some track => simp
  | none =>
      simp only [Option.isSome_none, Bool.false_eq_true, if_false, false_or]
      constructor
      · intro hsame part hpart
        have hcapability := (hsame part.capability).1 (List.mem_map_of_mem hpart)
        obtain ⟨other, hother, hequal⟩ := List.mem_map.1 hcapability
        obtain ⟨hmem, hnotes⟩ := List.mem_filter.1 hother
        -- No other contribution has the capability.
        obtain rfl := List.inj_on_of_nodup_map distinct hmem hpart hequal
        exact of_decide_eq_true hnotes
      · intro hnotes capability
        rw [List.filter_eq_self.2 fun part hpart => decide_eq_true (hnotes part hpart)]

/-- A beat is reported by both when the structural actions do not come. -/
theorem unattached_agrees_iff_beat :
    let beat : Contribution := ⟨.drummer, [⟨Action.Kind.drumPattern, []⟩], [⟨36, 100, 0, 1⟩]⟩
    let contents := [(Capability.arranger, none), (.drummer, some beat)]
    let events : List Event := [.contentFinished .drummer (some beat), .structuralFinished,
      .contentFinished .arranger none]
    let delivered := ((Buffer.start {} true [.arranger, .drummer]).run
      (events ++ [.flushed])).unattached
    let merged := (merge [] [beat] {}).unattached
    Schedule true [] contents events ∧ ([beat].map Contribution.capability).Nodup ∧
      delivered.Perm [.drummer] ∧ merged.Perm [.drummer] ∧
      ∀ capability, capability ∈ delivered ↔ capability ∈ merged := by
  intro beat contents events delivered merged
  have schedule : Schedule true [] contents events := {
    pushed := rfl
    finished := .swap _ _ _
    unflushed := by simp [events]
    completed := fun _ => ⟨[.contentFinished .drummer (some beat)],
      [.contentFinished .arranger none], rfl, by simp, by simp, rfl⟩
    absent := nofun }
  have distinct : ([beat].map Contribution.capability).Nodup := List.nodup_singleton _
  obtain ⟨hdelivered, hmerged, hiff⟩ := unattached_agrees_iff schedule {} distinct
  refine ⟨schedule, distinct, hdelivered, hmerged, hiff.2 (.inr ?_)⟩
  intro part hpart
  rw [List.mem_singleton.1 hpart]
  exact List.cons_ne_nil _ _

/-- A beat without notes is reported by a delivery and not by a merge. -/
theorem unattached_differs :
    let silence : Contribution := ⟨.drummer, [⟨Action.Kind.drumPattern, []⟩], []⟩
    let events : List Event := [.contentFinished .drummer (some silence), .structuralFinished]
    Schedule true [] [(.drummer, some silence)] events ∧
      ([silence].map Contribution.capability).Nodup ∧
      ((Buffer.start {} true [.drummer]).run (events ++ [.flushed])).unattached = [.drummer] ∧
      (merge [] [silence] {}).unattached = [] := by
  intro silence events
  have hnone : Capability.sortBy Contribution.capability [] = [] := List.mergeSort_nil
  have hsort : Capability.sortBy Contribution.capability [silence] = [silence] :=
    List.mergeSort_singleton silence
  refine ⟨?_, List.nodup_singleton _, ?_, ?_⟩
  · exact {
      pushed := rfl
      finished := .refl _
      unflushed := by simp [events]
      completed := fun _ => ⟨[.contentFinished .drummer (some silence)], [], rfl, by simp, by simp,
        rfl⟩
      absent := nofun }
  · rw [Buffer.unattached_run]
    show (releaseAll {} [] [silence] ++ (releaseAll {} [] [] ++ [])).filterMap
      Release.unplaced? = [.drummer]
    rw [releaseAll, releaseAll, hsort, hnone]
    rfl
  · rw [merge, hsort]
    rfl

end Studio.Delivery
