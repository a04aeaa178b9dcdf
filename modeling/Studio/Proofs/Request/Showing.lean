import Studio.Proofs.Delivery.Listening
import Studio.Proofs.Request.Completion

/-!
# What a live request shows

A live request that fails has shown nothing, and one that succeeds has shown exactly the actions of
its result (`live_all_or_nothing`). What is shown is handed on while performances still run, long
before it is known what they come to. `MayShow` lists every way in which a live request may go,
whatever the order of the events and whenever each performance learns of a cancellation. It fails
only if every performance does, and a failed performance of a composer brings nothing
(`idle_of_failed`).
-/

namespace Studio.Request

open Session (Snapshot)

/-! ### What performances mean for a delivery -/

/-- What a performance means for a delivery, in its order. -/
def Task.steps (task : Task) : List Delivery.Event :=
  task.events.map Prod.snd

/-- The steps of all performances are shown in the order of their times, none left out. -/
theorem Task.timeline_perm (tasks : List Task) :
    (Task.timeline tasks).Perm (tasks.flatMap Task.steps) := by
  have hperm := (List.mergeSort_perm (tasks.flatMap Task.events) fun a b => a.1 ≤ b.1).map Prod.snd
  rwa [List.map_flatMap] at hperm

/-- What a performance came to stays a fault when its fault is reported. -/
theorem error_of_mapFault {ε δ : Type} {f : ε → δ} {performance : Performance ε} {failure : δ}
    (h : (performance.mapFault f).outcome = .error failure) :
    ∃ fault, performance.outcome = .error fault := by
  obtain ⟨handed, stop, fault | production, calls⟩ := performance
  · exact ⟨fault, rfl⟩
  · cases h

/-- A failed performance of a composer brings nothing: a structural one has handed on nothing, and
another one brings no contribution. -/
theorem Conductor.idle_of_failed {composer : Composer} {commission : Commission}
    (h : (Conductor.task true commission (.ofComposer composer)).ended.Failed) :
    ∀ event ∈ (Conductor.task true commission (.ofComposer composer)).steps, event.Idle := by
  obtain ⟨failure, hfailure⟩ := h
  intro event hevent
  by_cases hcapability : composer.capability.isStructural = true
  · have hdaw : composer.capability = .daw := by
      cases hname : composer.capability <;> simp_all [Capability.isStructural]
    simp only [Task.ended, Conductor.task, Generator.ofComposer, hcapability, Bool.and_self,
      if_true] at hfailure
    obtain ⟨fault, hfault⟩ := error_of_mapFault hfailure
    have hhanded := Composer.handed_of_fault hdaw hfault
    simp only [Task.steps, Task.events, Conductor.task, Generator.ofComposer, hcapability,
      Bool.and_self, if_true, Performance.mapFault, hhanded] at hevent
    obtain rfl : event = .structuralFinished := by simpa using hevent
    exact ⟨rfl, rfl⟩
  · simp only [Task.ended, Conductor.task, Generator.ofComposer, hcapability, Bool.and_false,
      Bool.false_eq_true, if_false] at hfailure
    simp only [Task.steps, Task.events, Conductor.task, Generator.ofComposer, hcapability,
      Bool.and_false, Bool.false_eq_true, if_false, hfailure] at hevent
    obtain rfl : event = .contentFinished composer.capability none := by
      simpa [Except.toOption] using hevent
    exact ⟨rfl, rfl⟩

/-! ### Ways in which a live request may go -/

/-- The delivery to the performances for capabilities, before anything is known. -/
def Conductor.opening (snapshot : Snapshot) (capabilities : List Capability) : Delivery.Buffer :=
  Delivery.Buffer.start snapshot (capabilities.any Capability.isStructural)
    (capabilities.filter Capability.isContent)

/-- Performances, each of which begins and is cancelled at times of its own. -/
def Conductor.staggered (generators : List Generator) (commission : Capability → Commission) :
    List Task :=
  generators.map fun generator =>
    Conductor.task true (commission generator.capability) generator

/-- A live request may come to an outcome, having shown some actions. It may be refused before any
performance begins. Otherwise there is a performance for every selected capability, and what these
mean for the delivery reaches it in any order. When all have ended, also in any order, the delivery
is flushed. -/
inductive Conductor.MayShow (conductor : Conductor) (request : String) (snapshot : Snapshot) :
    Except Fault Result → List Action → Prop
  | refused (fault : Fault) : MayShow conductor request snapshot (.error fault) []
  | performed {classification : Classification} {generators : List Generator}
      {commission : Capability → Commission} {tasks : List Task} {events : List Delivery.Event}
      {finished : List Finished} {final : Delivery.Buffer}
      (hclassified : (conductor.classifier.classify request).value = .ok classification)
      (hcast : conductor.cast (selected classification snapshot) = .ok generators)
      (hcommission : ∀ capability, (commission capability).request = request ∧
        (commission capability).snapshot = snapshot)
      (htasks : tasks = Conductor.staggered generators commission)
      (hevents : events.Perm (tasks.flatMap Task.steps))
      (hfinal : final = (Conductor.opening snapshot (selected classification snapshot)).run
        (events ++ [.flushed]))
      (hfinished : Task.EndAs tasks finished) :
      MayShow conductor request snapshot
        (settle (selected classification snapshot) classification.tier finished fun _ =>
          ⟨final.emitted, final.unattached⟩)
        ((Conductor.opening snapshot (selected classification snapshot)).heard
          (events ++ [.flushed]))

section

variable {snapshot : Snapshot} {capabilities : List Capability}

/-- What is heard from the beginning is what was handed on in the end. -/
theorem Conductor.heard_opening (events : List Delivery.Event) :
    (Conductor.opening snapshot capabilities).heard events =
      ((Conductor.opening snapshot capabilities).run events).emitted := by
  rw [← Delivery.Buffer.emitted_append_heard]
  rfl

/-- An answer is one of the ways in which a live request may go. -/
theorem Conductor.mayShow_answer (conductor : Conductor) (request : String) (snapshot : Snapshot)
    (cancellation : Cancellation) :
    conductor.MayShow request snapshot (conductor.answer true request snapshot cancellation).outcome
      (conductor.answer true request snapshot cancellation).shown := by
  rcases conductor.launches_or_fails true request snapshot cancellation with h | h
  · obtain ⟨classification, tasks, hlaunches⟩ := h
    obtain ⟨houtcome, hshown⟩ := hlaunches.answer
    obtain ⟨generators, hcast, htasks⟩ := hlaunches.cast
    -- All performances begin at the same time and learn of the same cancellation.
    have htasks : tasks = staggered generators fun _ =>
      conductor.commission request snapshot cancellation := htasks
    have hheard : (conductor.answer true request snapshot cancellation).shown =
        (opening snapshot (selected classification snapshot)).heard
          (Task.timeline tasks ++ [.flushed]) := by
      rw [heard_opening, hshown]
      rfl
    rw [houtcome, hheard]
    exact .performed hlaunches.classified hcast (fun _ => ⟨rfl, rfl⟩) htasks
      (Task.timeline_perm tasks) rfl (Task.endAs_finished tasks)
  · obtain ⟨⟨fault, hfault⟩, hshown⟩ := h
    rw [hfault, hshown]
    exact .refused fault

/-- When composers all fail, nothing is handed on. -/
theorem Conductor.emitted_of_failed {generators : List Generator}
    {commission : Capability → Commission} {events : List Delivery.Event}
    (hcomposers : ∀ generator ∈ generators, ∃ composer, generator = .ofComposer composer)
    (hevents : events.Perm ((Conductor.staggered generators commission).flatMap Task.steps))
    (hfailed : ∀ task ∈ Conductor.staggered generators commission, task.ended.Failed) :
    ((Conductor.opening snapshot capabilities).run (events ++ [.flushed])).emitted = [] := by
  have huntouched := Delivery.Buffer.untouched_start snapshot
    (capabilities.any Capability.isStructural) (capabilities.filter Capability.isContent)
  refine (huntouched.run fun event hevent => ?_).emitted
  rcases List.mem_append.1 hevent with hevent | hevent
  · obtain ⟨task, htask, hstep⟩ := List.mem_flatMap.1 (hevents.mem_iff.1 hevent)
    have hfailed := hfailed task htask
    obtain ⟨generator, hgenerator, rfl⟩ := List.mem_map.1 htask
    obtain ⟨composer, rfl⟩ := hcomposers generator hgenerator
    exact Conductor.idle_of_failed hfailed event hstep
  · obtain rfl := List.mem_singleton.1 hevent
    exact ⟨rfl, rfl⟩

end

/-- However a live request of composers goes, nothing was shown if it fails, and the actions of the
result, in their order, if it succeeds; what it is answered is one of these ways. -/
theorem live_all_or_nothing (classifier : Classifier) (composers : List Composer)
    (timeLimit : Option Nat) (request : String) (snapshot : Snapshot) :
    let conductor : Conductor := ⟨classifier, composers.map .ofComposer, timeLimit⟩
    (∀ outcome shown, conductor.MayShow request snapshot outcome shown →
      (∀ fault, outcome = .error fault → shown = []) ∧
        ∀ result, outcome = .ok result → shown = result.actions) ∧
    ∀ cancellation,
      conductor.MayShow request snapshot
        (conductor.answer true request snapshot cancellation).outcome
        (conductor.answer true request snapshot cancellation).shown := by
  intro conductor
  refine ⟨?_, conductor.mayShow_answer request snapshot⟩
  rintro _ _ (fault | @⟨classification, generators, commission, tasks, events, finished, final,
    hclassified, hcast, -, rfl, hevents, hfinal, hfinished⟩)
  · exact ⟨fun _ _ => rfl, by simp⟩
  have hcomposers : ∀ generator ∈ generators, ∃ composer, generator = .ofComposer composer := by
    intro generator hgenerator
    obtain ⟨composer, -, hcomposer⟩ :=
      List.mem_map.1 ((Conductor.cast_eq_ok hcast).2 generator hgenerator)
    exact ⟨composer, hcomposer.symm⟩
  by_cases hfailed : ∀ task ∈ finished, task.Failed
  · have hnothing : final.emitted = [] := by
      rw [hfinal]
      exact Conductor.emitted_of_failed hcomposers hevents (hfinished.forall_mem.1 hfailed)
    rw [Conductor.heard_opening, ← hfinal, hnothing]
    refine ⟨fun _ _ => rfl, fun result hresult => ?_⟩
    obtain ⟨fault, hfault⟩ := settle_fails hfailed
    cases hfault.symm.trans hresult
  · rw [Conductor.heard_opening, ← hfinal]
    push Not at hfailed
    rw [settle_of_succeeded hfailed]
    refine ⟨by simp, fun result hresult => ?_⟩
    obtain rfl := Except.ok.inj hresult
    rfl

end Studio.Request
