import Studio.Proofs.Methods.Effects
import Studio.Request.Conductor

/-!
# From a request to performances

A request is answered in two stages: it is classified and cast, and then performances run.
`Launches` says that the first stage came through, and which performances it led to. There is one
for every selected capability (`Launches.capabilities`), and the answer is what they come to
(`Launches.answer`); a request that launches nothing fails and shows nothing (`launches_or_fails`).
-/

namespace Studio.Request

open Session (Snapshot)

/-! ### What is selected -/

/-- No capability is selected twice. -/
theorem nodup_selected (classification : Classification) (snapshot : Snapshot) :
    (selected classification snapshot).Nodup := by
  have hall : Capability.all.Nodup := by decide
  exact List.Pairwise.filter _ hall

/-- A request asks for something. -/
theorem classify_ne_nil {classifier : Classifier} {request : String}
    {classification : Classification}
    (h : (classifier.classify request).value = .ok classification) :
    classification.capabilities ≠ [] := by
  unfold Classifier.classify at h
  dsimp only at h
  split at h
  · exact (Detection.settle_ok h).1
  · next hcertain =>
    obtain rfl := Except.ok.inj h
    intro hnone
    -- Without any keyword a request is uncertain.
    simp only [Classifier.detect, KeywordTable.detect] at hnone hcertain
    rw [hnone] at hcertain
    exact hcertain rfl

/-- Where a request has capabilities, some are selected. -/
theorem selected_ne_nil {classification : Classification} (h : classification.capabilities ≠ [])
    (snapshot : Snapshot) : selected classification snapshot ≠ [] := by
  obtain ⟨capability, hmem⟩ := List.exists_mem_of_ne_nil _ h
  exact List.ne_nil_of_mem (mem_selected.2 (.inl hmem))

namespace Conductor

variable {conductor : Conductor} {live : Bool} {request : String} {snapshot : Snapshot}
  {cancellation : Cancellation} {classification : Classification} {tasks : List Task}

/-! ### Casting -/

/-- The generator for a capability is one of the conductor, and of this capability. -/
theorem capability_of_generator? {capability : Capability} {generator : Generator}
    (h : conductor.generator? capability = some generator) :
    generator.capability = capability ∧ generator ∈ conductor.generators := by
  unfold generator? at h
  exact ⟨by simpa using List.find?_some h, List.mem_reverse.1 (List.mem_of_find?_eq_some h)⟩

/-- There is a generator for every capability. -/
theorem cast_eq_ok {capabilities : List Capability} {generators : List Generator}
    (h : conductor.cast capabilities = .ok generators) :
    generators.map Generator.capability = capabilities ∧
      ∀ generator ∈ generators, generator ∈ conductor.generators := by
  induction capabilities generalizing generators with
  | nil =>
      obtain rfl := Except.ok.inj h
      exact ⟨rfl, by simp⟩
  | cons capability rest ih =>
      rw [cast, List.mapM_cons] at h
      obtain ⟨generator, hgenerator, h⟩ := bind_eq_ok.1 h
      obtain ⟨others, hothers, h⟩ := bind_eq_ok.1 h
      obtain rfl := Except.ok.inj h
      obtain ⟨hcapabilities, hmem⟩ := ih hothers
      split at hgenerator
      · next found hfound =>
        obtain rfl := Except.ok.inj hgenerator
        obtain ⟨hcapability, hgenerators⟩ := capability_of_generator? hfound
        refine ⟨by rw [List.map_cons, hcapability, hcapabilities], ?_⟩
        exact List.forall_mem_cons.2 ⟨hgenerators, hmem⟩
      · cases hgenerator

/-! ### Launching -/

/-- What performances are asked for: they begin when the request is classified, and the time limit
counts from then on. -/
def commission (conductor : Conductor) (request : String) (snapshot : Snapshot)
    (cancellation : Cancellation) : Commission :=
  let start := (conductor.classifier.classify request).wait
  { request, snapshot, start
    cancellation := cancellation.byDeadline
      (conductor.timeLimit.map fun limit => start + 1000 * limit) }

/-- A request is classified and cast before it is cancelled, and leads to performances. -/
structure Launches (conductor : Conductor) (live : Bool) (request : String) (snapshot : Snapshot)
    (cancellation : Cancellation) (classification : Classification) (tasks : List Task) : Prop where
  begun : cancellation.beforehand = false
  awaited : cancellation.cuts (conductor.classifier.classify request).wait 0 = false
  classified : (conductor.classifier.classify request).value = .ok classification
  cast : ∃ generators, conductor.cast (selected classification snapshot) = .ok generators ∧
    tasks = Conductor.tasks generators live (conductor.commission request snapshot cancellation)

/-- There is one performance for every selected capability. -/
theorem Launches.capabilities
    (h : conductor.Launches live request snapshot cancellation classification tasks) :
    tasks.map Task.capability = selected classification snapshot := by
  obtain ⟨generators, hcast, rfl⟩ := h.cast
  rw [← (cast_eq_ok hcast).1, Conductor.tasks, List.map_map]
  rfl

/-- What a request launches is not empty. -/
theorem Launches.ne_nil
    (h : conductor.Launches live request snapshot cancellation classification tasks) :
    tasks ≠ [] := by
  rintro rfl
  exact selected_ne_nil (classify_ne_nil h.classified) snapshot h.capabilities.symm

/-- The productions put together: live as they were delivered, else merged. -/
def assembled (live : Bool) (snapshot : Snapshot) (capabilities : List Capability)
    (tasks : List Task) : List (Capability × Production) → Delivery.Merged :=
  if live then fun _ => ⟨(deliver snapshot capabilities tasks).emitted,
    (deliver snapshot capabilities tasks).unattached⟩
  else mergeProductions snapshot

/-- The answer to a request is what its performances come to. -/
theorem Launches.answer
    (h : conductor.Launches live request snapshot cancellation classification tasks) :
    (conductor.answer live request snapshot cancellation).outcome =
        settle (selected classification snapshot) classification.tier (Task.finished tasks)
          (assembled live snapshot (selected classification snapshot) tasks) ∧
      (conductor.answer live request snapshot cancellation).shown =
        if live then (deliver snapshot (selected classification snapshot) tasks).emitted
        else [] := by
  obtain ⟨hbegun, hawaited, hclassified, generators, hcast, rfl⟩ := h
  unfold Conductor.answer
  simp only [hbegun, hawaited, hclassified, hcast, Bool.false_eq_true, if_false, bind, Except.bind,
    pure, Except.pure]
  cases live with
  | true => exact ⟨rfl, rfl⟩
  | false => exact ⟨rfl, rfl⟩

/-- A request that launches no performances fails and shows nothing. -/
theorem launches_or_fails (conductor : Conductor) (live : Bool) (request : String)
    (snapshot : Snapshot) (cancellation : Cancellation) :
    (∃ classification tasks,
        conductor.Launches live request snapshot cancellation classification tasks) ∨
      (∃ fault, (conductor.answer live request snapshot cancellation).outcome = .error fault) ∧
        (conductor.answer live request snapshot cancellation).shown = [] := by
  cases hbegun : cancellation.beforehand with
  | true => exact .inr (by simp [Conductor.answer, hbegun])
  | false =>
  cases hawaited : cancellation.cuts (conductor.classifier.classify request).wait 0 with
  | true => exact .inr (by simp [Conductor.answer, hbegun, hawaited])
  | false =>
  cases hclassified : (conductor.classifier.classify request).value with
  | error fault =>
      exact .inr (by simp [Conductor.answer, hbegun, hawaited, hclassified, bind, Except.bind])
  | ok classification =>
  cases hcast : conductor.cast (selected classification snapshot) with
  | error fault =>
      exact .inr (by simp [Conductor.answer, hbegun, hawaited, hclassified, hcast, bind,
        Except.bind])
  | ok generators =>
      exact .inl ⟨classification, _, hbegun, hawaited, hclassified, generators, hcast, rfl⟩

end Conductor

end Studio.Request
