import Studio.Proofs.Delivery.Merging
import Studio.Proofs.Production.Outcomes
import Studio.Proofs.Request.Launching

/-!
# The order in which performances end

What performances come to does not depend on the order in which they end, and every selected
capability is accounted for (`answer_any_order`). Productions are put into the order of the
capabilities that they were asked for, so two orders lead to the same list (`productions_congr`).
-/

namespace Studio.Request

open Production (Failure)
open Session (Snapshot)

namespace Finished

variable {finished others : List Finished}

/-- There is no production. -/
def Failed (task : Finished) : Prop :=
  ∃ failure, task.outcome = .error failure

/-- There is no production because the request was cancelled. -/
def Cancelled (task : Finished) : Prop :=
  ∃ failure, task.outcome = .error failure ∧ failure.cancelled = true

/-- The production, or the report on the failure, names the capability that it was asked for. -/
def Own (task : Finished) : Prop :=
  match task.outcome with
  | .ok production => production.diagnostics.capability = task.capability
  | .error failure => failure.capability = task.capability

/-- A performance that was cancelled has failed. -/
theorem Cancelled.failed {task : Finished} (h : task.Cancelled) : task.Failed :=
  h.imp fun _ hfailure => hfailure.1

/-- A performance has no production just when it failed. -/
theorem production?_eq_none {task : Finished} : task.production? = none ↔ task.Failed := by
  obtain ⟨capability, failure | production⟩ := task <;>
    simp [production?, Failed, Except.toOption]

/-- The failures are those of the performances. -/
theorem mem_failures {failure : Failure} :
    failure ∈ failures finished ↔ ∃ task ∈ finished, task.outcome = .error failure := by
  simp only [failures, List.mem_filterMap]
  refine exists_congr fun task => and_congr_right fun _ => ?_
  obtain ⟨capability, found | production⟩ := task <;> simp [failure?]

/-- There are no productions exactly if every performance failed. -/
theorem productions_eq_nil : productions finished = [] ↔ ∀ task ∈ finished, task.Failed := by
  have hperm := Capability.sortBy_perm Prod.fst (finished.filterMap production?)
  rw [productions, ← List.length_eq_zero_iff, hperm.length_eq, List.length_eq_zero_iff,
    List.filterMap_eq_nil_iff]
  simp only [production?_eq_none]

/-- At most one production comes of every performance. -/
theorem capabilities_sublist (finished : List Finished) :
    ((finished.filterMap production?).map Prod.fst).Sublist (finished.map capability) := by
  induction finished with
  | nil => exact .slnil
  | cons task rest ih =>
      obtain ⟨capability, failure | production⟩ := task
      · exact ih.cons _
      · exact ih.cons_cons _

/-- The productions are in the order of their capabilities, whichever performance ends first. -/
theorem productions_congr (hperm : others.Perm finished)
    (hnodup : (finished.map capability).Nodup) : productions others = productions finished :=
  Capability.sortBy_congr Prod.fst (hperm.filterMap _)
    ((capabilities_sublist finished).nodup hnodup)

/-- Every performance leads to a production or to a failure. -/
theorem length_add_length (finished : List Finished) :
    (productions finished).length + (failures finished).length = finished.length := by
  rw [productions, (Capability.sortBy_perm Prod.fst (finished.filterMap production?)).length_eq]
  induction finished with
  | nil => rfl
  | cons task rest ih =>
      rw [List.length_cons, ← ih]
      obtain ⟨capability, failure | production⟩ := task
      · rfl
      · exact Nat.succ_add _ _

/-- The productions and failures of performances name the capabilities of these. -/
theorem own_perm (hown : ∀ task ∈ finished, task.Own) :
    ((productions finished).map (fun made => made.2.diagnostics.capability) ++
      (failures finished).map Failure.capability).Perm (finished.map capability) := by
  have hsorted := (Capability.sortBy_perm Prod.fst (finished.filterMap production?)).map
    fun made => made.2.diagnostics.capability
  refine (hsorted.append_right _).trans ?_
  clear hsorted
  induction finished with
  | nil => exact .nil
  | cons task rest ih =>
      obtain ⟨htask, hrest⟩ := List.forall_mem_cons.1 hown
      have ih := ih hrest
      obtain ⟨capability, failure | production⟩ := task
      · obtain rfl : failure.capability = capability := htask
        exact List.perm_middle.trans (ih.cons _)
      · obtain rfl : production.diagnostics.capability = capability := htask
        exact ih.cons _

end Finished

/-- What a composer performs speaks of its own capability. -/
theorem Conductor.own_of_composer (composer : Composer) (live : Bool) (commission : Commission) :
    (Conductor.task live commission (.ofComposer composer)).ended.Own := by
  have hmapped {performance : Performance Production.Fault}
      (h : ∀ production, performance.outcome = .ok production →
        production.diagnostics.capability = composer.capability) :
      Finished.Own ⟨composer.capability,
        (performance.mapFault (Failure.ofFault composer.capability)).outcome⟩ := by
    obtain ⟨handed, stop, fault | production, calls⟩ := performance
    · rfl
    · exact h production rfl
  unfold Conductor.task Task.ended
  dsimp only
  split
  · exact hmapped fun _ => Composer.capability_of_performLive
  · exact hmapped fun _ => Composer.capability_of_perform

/-! ### What finished performances come to -/

section

variable {capabilities : List Capability} {tier : Tier} {finished : List Finished}
  {assemble : List (Capability × Production) → Delivery.Merged}

/-- Where every performance was cancelled, so is the request. -/
theorem settle_of_cancelled (hne : finished ≠ []) (h : ∀ task ∈ finished, task.Cancelled) :
    settle capabilities tier finished assemble = .error .cancelled := by
  have hnone := Finished.productions_eq_nil.2 fun task htask => (h task htask).failed
  have hfailures : Finished.failures finished ≠ [] := by
    obtain ⟨task, htask⟩ := List.exists_mem_of_ne_nil _ hne
    obtain ⟨failure, hfailure⟩ := (h task htask).failed
    exact List.ne_nil_of_mem (Finished.mem_failures.2 ⟨task, htask, hfailure⟩)
  have hall : (Finished.failures finished).all Failure.cancelled = true := by
    refine List.all_eq_true.2 fun failure hfailure => ?_
    obtain ⟨task, htask, houtcome⟩ := Finished.mem_failures.1 hfailure
    obtain ⟨other, hother, hcancelled⟩ := h task htask
    obtain rfl := Except.error.inj (houtcome.symm.trans hother)
    exact hcancelled
  simp [settle, hnone, hfailures, hall]

/-- Where all failed and some were not cancelled, the request fails with all failures. -/
theorem settle_of_failed (h : ∀ task ∈ finished, task.Failed)
    (hother : ∃ task ∈ finished, ¬ task.Cancelled) :
    settle capabilities tier finished assemble =
      .error (.allFailed (Finished.failures finished)) := by
  have hnone := Finished.productions_eq_nil.2 h
  have hsome : (Finished.failures finished).all Failure.cancelled = false := by
    obtain ⟨task, htask, hcancelled⟩ := hother
    obtain ⟨failure, hfailure⟩ := h task htask
    refine List.all_eq_false.2 ⟨failure, Finished.mem_failures.2 ⟨task, htask, hfailure⟩, ?_⟩
    exact fun hall => hcancelled ⟨failure, hfailure, hall⟩
  simp [settle, hnone, hsome]

/-- Where all performances failed, the request fails. -/
theorem settle_fails (h : ∀ task ∈ finished, task.Failed) :
    ∃ fault, settle capabilities tier finished assemble = .error fault := by
  have hnone := Finished.productions_eq_nil.2 h
  simp only [settle, hnone, List.isEmpty_nil, if_true]
  split
  · exact ⟨_, rfl⟩
  · exact ⟨_, rfl⟩

/-- Where a performance succeeded, the request is answered with what the productions come to. -/
theorem settle_of_succeeded (h : ∃ task ∈ finished, ¬ task.Failed) :
    settle capabilities tier finished assemble = .ok {
      actions := (assemble (Finished.productions finished)).actions
      capabilities
      tier
      failures := Finished.failures finished
      unattached := (assemble (Finished.productions finished)).unattached
      diagnostics := (Finished.productions finished).map fun (_, production) =>
        production.diagnostics } := by
  have hsome : Finished.productions finished ≠ [] := by
    intro hnone
    obtain ⟨task, htask, hfailed⟩ := h
    exact hfailed (Finished.productions_eq_nil.1 hnone task htask)
  simp [settle, hsome]

end

/-! ### Any order -/

/-- An order in which performances may end. -/
def Task.EndAs (tasks : List Task) (finished : List Finished) : Prop :=
  finished.Perm (tasks.map Task.ended)

/-- Performances end in the order of their times. -/
theorem Task.endAs_finished (tasks : List Task) : Task.EndAs tasks (Task.finished tasks) :=
  (List.mergeSort_perm tasks _).map Task.ended

section

variable {tasks : List Task} {finished : List Finished}

/-- What holds of all ends holds in any order of them. -/
theorem Task.EndAs.forall_mem (h : Task.EndAs tasks finished) {P : Finished → Prop} :
    (∀ task ∈ finished, P task) ↔ ∀ task ∈ tasks, P task.ended := by
  simp only [h.mem_iff, List.forall_mem_map]

/-- The capabilities are the same in any order of ends. -/
theorem Task.EndAs.capabilities (h : Task.EndAs tasks finished) :
    (finished.map Finished.capability).Perm (tasks.map Task.capability) := by
  have hperm := h.map Finished.capability
  rwa [List.map_map] at hperm

end

/-- However performances are ordered in time, a request comes to the same. If all of them were
cancelled, it was cancelled; if all failed otherwise, every failure is reported, one for each
selected capability; else it has the same actions, the same unattached capabilities and the same
diagnostics, and every selected capability is either in these or among the failures. Which
capability a report names is up to the generator: those of composers name their own
(`Conductor.own_of_composer`). -/
theorem answer_any_order {conductor : Conductor} {request : String} {snapshot : Snapshot}
    {cancellation : Cancellation} {classification : Classification} {tasks : List Task}
    (hlaunches : conductor.Launches false request snapshot cancellation classification tasks) :
    let launched := selected classification snapshot
    let outcome (finished : List Finished) :=
      settle launched classification.tier finished (mergeProductions snapshot)
    (launched ≠ [] ∧ launched.Nodup ∧ tasks.map Task.capability = launched ∧
      ∀ capability, capability ∈ launched ↔ capability ∈ classification.capabilities ∨
        capability = .daw ∧ snapshot.hasTracks = false ∧
          ∃ content ∈ classification.capabilities, content.isContent = true) ∧
    (∃ finished, Task.EndAs tasks finished ∧
      (conductor.answer false request snapshot cancellation).outcome = outcome finished) ∧
    ((∀ task ∈ tasks, task.ended.Cancelled) →
      ∀ finished, Task.EndAs tasks finished → outcome finished = .error .cancelled) ∧
    ((∀ task ∈ tasks, task.ended.Failed) → (∃ task ∈ tasks, ¬ task.ended.Cancelled) →
      ∀ finished, Task.EndAs tasks finished → ∃ failures,
        outcome finished = .error (.allFailed failures) ∧ failures.length = launched.length ∧
        ((∀ task ∈ tasks, task.ended.Own) → (failures.map Failure.capability).Perm launched)) ∧
    ((∃ task ∈ tasks, ¬ task.ended.Failed) → ∃ actions unattached diagnostics,
      ∀ finished, Task.EndAs tasks finished → ∃ result, outcome finished = .ok result ∧
        result.actions = actions ∧ result.unattached = unattached ∧
        result.diagnostics = diagnostics ∧
        result.diagnostics.length + result.failures.length = launched.length ∧
        ((∀ task ∈ tasks, task.ended.Own) → (result.diagnostics.map Diagnostics.capability ++
          result.failures.map Failure.capability).Perm launched)) := by
  intro launched outcome
  have hcapabilities : tasks.map Task.capability = launched := hlaunches.capabilities
  have hcount {finished : List Finished} (h : Task.EndAs tasks finished) :
      (Finished.productions finished).length + (Finished.failures finished).length =
        launched.length := by
    rw [Finished.length_add_length, h.length_eq, ← hcapabilities, List.length_map, List.length_map]
  have hpartition {finished : List Finished} (h : Task.EndAs tasks finished)
      (hown : ∀ task ∈ tasks, task.ended.Own) :=
    (Finished.own_perm (h.forall_mem.2 hown)).trans (hcapabilities ▸ h.capabilities)
  refine ⟨⟨?_, nodup_selected _ _, hcapabilities, fun _ => mem_selected⟩, ?_, ?_, ?_, ?_⟩
  · exact selected_ne_nil (classify_ne_nil hlaunches.classified) snapshot
  · exact ⟨_, Task.endAs_finished tasks, hlaunches.answer.1⟩
  · intro hcancelled finished h
    refine settle_of_cancelled ?_ (h.forall_mem.2 hcancelled)
    rintro rfl
    exact hlaunches.ne_nil (List.map_eq_nil_iff.1 (List.nil_perm.1 h))
  · intro hfailed hother finished h
    have hfailed := h.forall_mem.2 hfailed
    have hlength := hcount h
    have hperm := hpartition h
    rw [Finished.productions_eq_nil.2 hfailed] at hlength hperm
    refine ⟨_, settle_of_failed hfailed ?_, (Nat.zero_add _).symm.trans hlength, hperm⟩
    obtain ⟨task, htask, hcancelled⟩ := hother
    exact ⟨task.ended, h.mem_iff.2 (List.mem_map_of_mem htask), hcancelled⟩
  · rintro ⟨task, htask, hsucceeded⟩
    have hnodup : ((tasks.map Task.ended).map Finished.capability).Nodup := by
      rw [List.map_map]
      exact hcapabilities ▸ nodup_selected _ _
    let productions := Finished.productions (tasks.map Task.ended)
    refine ⟨(mergeProductions snapshot productions).actions,
      (mergeProductions snapshot productions).unattached,
      productions.map fun (_, production) => production.diagnostics, ?_⟩
    intro finished h
    refine ⟨_, settle_of_succeeded ⟨task.ended, ?_, hsucceeded⟩, ?_⟩
    · exact h.mem_iff.2 (List.mem_map_of_mem htask)
    · have hlength := hcount h
      have hperm := hpartition h
      rw [Finished.productions_congr h hnodup] at hlength hperm ⊢
      rw [List.length_map, List.map_map]
      exact ⟨rfl, rfl, rfl, hlength, hperm⟩

/-- A provider that never answers. -/
def unreachable : Provider :=
  .ofReply "unreachable" fun _ => .now (.error (.remote "unreachable"))

/-- A request for a beat of which only the track comes about, whichever performance ends first. -/
theorem answer_any_order_beat :
    let track : Production := ⟨.daw, [⟨"create_track", [("index", .nat 0)]⟩], [],
      ⟨.daw, "fixed", "fixed", "track()", none, [], false, false⟩⟩
    let table : KeywordTable := .ofPairs [(.drummer, ⟨["beat"], []⟩)]
    let conductor : Conductor := ⟨⟨table, unreachable, "none"⟩,
      [.fixed track, .ofComposer ⟨.drummer, unreachable, "none"⟩], none⟩
    ∃ tasks, conductor.Launches false "a beat" {} .never ⟨[.drummer], .keywords⟩ tasks ∧
      tasks.map Task.capability = [.daw, .drummer] ∧
      ∃ actions unattached diagnostics, ∀ finished, Task.EndAs tasks finished → ∃ result,
        settle [.daw, .drummer] .keywords finished (mergeProductions {}) = .ok result ∧
          result.actions = actions ∧ result.unattached = unattached ∧
          result.diagnostics = diagnostics ∧
          (result.diagnostics.map Diagnostics.capability ++
            result.failures.map Failure.capability).Perm [.daw, .drummer] := by
  intro track table conductor
  have hselected : selected ⟨[.drummer], .keywords⟩ {} = [.daw, .drummer] := by decide
  have hlaunches : conductor.Launches false "a beat" {} .never ⟨[.drummer], .keywords⟩
      (Conductor.tasks conductor.generators false (conductor.commission "a beat" {} .never)) :=
    { begun := rfl
      awaited := rfl
      classified := rfl
      cast := ⟨conductor.generators, rfl, rfl⟩ }
  have hown : ∀ task ∈ Conductor.tasks conductor.generators false
      (conductor.commission "a beat" {} .never), task.ended.Own := by
    simp only [Conductor.tasks, List.forall_mem_map, conductor, List.forall_mem_cons]
    exact ⟨rfl, Conductor.own_of_composer _ _ _, by simp⟩
  have hagree := answer_any_order hlaunches
  rw [hselected] at hagree
  obtain ⟨⟨-, -, hcapabilities, -⟩, -, -, -, hsucceeded⟩ := hagree
  obtain ⟨actions, unattached, diagnostics, hall⟩ := hsucceeded ⟨_, List.mem_cons_self, by
    rintro ⟨failure, hfailure⟩
    cases hfailure⟩
  refine ⟨_, hlaunches, hcapabilities, actions, unattached, diagnostics, fun finished h => ?_⟩
  obtain ⟨result, hresult, hactions, hunattached, hdiagnostics, -, hpartition⟩ := hall finished h
  exact ⟨result, hresult, hactions, hunattached, hdiagnostics, hpartition hown⟩

end Studio.Request
