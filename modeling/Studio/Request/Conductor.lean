import Studio.Delivery.Buffer
import Studio.Production.Generator
import Studio.Request.Classification

/-!
# Conducting requests

A conductor classifies a request, has a generator perform for every capability that it asks for, all
at the same time, and puts the productions together. Some may fail; the request fails when all do.
At once, productions are merged when all performances have ended; live, the structural actions are
handed on as they come, and the rest as soon as its dependencies allow.

Of what happens at the same time, that of an earlier capability comes first. Main statement:
`mem_selected` says which capabilities are selected.
-/

namespace Studio.Request

open Session (Snapshot)
open Production (Failure)

/-- A classifier with generators, and the longest time that they may take, in seconds. -/
structure Conductor where
  classifier : Classifier
  generators : List Generator
  timeLimit : Option Nat := none

/-- What comes of a request. -/
structure Result where
  actions : List Action
  capabilities : List Capability
  tier : Tier
  failures : List Failure
  /-- The capabilities whose content found no track. -/
  unattached : List Capability
  diagnostics : List Diagnostics

/-- Whether some generators failed. -/
def Result.isPartial (result : Result) : Bool :=
  !result.failures.isEmpty

/-- What comes of a request, what was handed on, and the calls that were made. -/
structure Answer where
  outcome : Except Fault Result
  shown : List Action := []
  calls : List Provider.Call := []

/-- A performance that has ended, with its capability. -/
structure Finished where
  capability : Capability
  outcome : Except Failure Production

namespace Finished

/-- The production, if there is one, with the capability that it was asked for. -/
def production? (task : Finished) : Option (Capability × Production) :=
  task.outcome.toOption.map fun production => (task.capability, production)

/-- The report on a failure, if there is one. -/
def failure? (task : Finished) : Option Failure :=
  match task.outcome with
  | .ok _ => none
  | .error failure => some failure

/-- The productions, in the order of the capabilities that they were asked for. -/
def productions (finished : List Finished) : List (Capability × Production) :=
  Capability.sortBy Prod.fst (finished.filterMap production?)

/-- The reports on failures, in the order in which the performances ended. -/
def failures (finished : List Finished) : List Failure :=
  finished.filterMap failure?

end Finished

/-- The merged productions. -/
def mergeProductions (snapshot : Snapshot) (productions : List (Capability × Production)) :
    Delivery.Merged :=
  let structural := productions.find? fun (capability, _) => capability.isStructural
  let content := (productions.map Prod.snd).filter fun production => production.capability.isContent
  Delivery.merge ((structural.map fun (_, production) => production.actions).getD [])
    (content.map Production.contribution) snapshot

/-- What comes of finished performances, whose productions are put together by `assemble`. -/
def settle (selected : List Capability) (tier : Tier) (finished : List Finished)
    (assemble : List (Capability × Production) → Delivery.Merged) : Except Fault Result :=
  let productions := Finished.productions finished
  let failures := Finished.failures finished
  if productions.isEmpty then
    if !failures.isEmpty && failures.all Failure.cancelled then .error .cancelled
    else .error (.allFailed failures)
  else
    let merged := assemble productions
    .ok {
      actions := merged.actions
      capabilities := selected
      tier := tier
      failures := failures
      unattached := merged.unattached
      diagnostics := productions.map fun (_, production) => production.diagnostics }

/-- A performance with the capability that it is for. -/
structure Task where
  capability : Capability
  performance : Performance Failure

namespace Task

/-- What a performance has come to when it has ended. -/
def ended (task : Task) : Finished :=
  ⟨task.capability, task.performance.outcome⟩

/-- The performances in the order in which they end. -/
def finished (tasks : List Task) : List Finished :=
  (tasks.mergeSort fun a b => a.performance.stop ≤ b.performance.stop).map ended

/-- What a performance means for a delivery, each with its time. -/
def events (task : Task) : List (Nat × Delivery.Event) :=
  let { handed, stop, outcome, .. } := task.performance
  if task.capability.isStructural then
    (handed.map fun (time, action) => (time, .pushed action)) ++ [(stop, .structuralFinished)]
  else
    [(stop, .contentFinished task.capability (outcome.toOption.map Production.contribution))]

/-- What performances mean for a delivery, in the order of time. -/
def timeline (tasks : List Task) : List Delivery.Event :=
  ((tasks.flatMap events).mergeSort fun a b => a.1 ≤ b.1).map Prod.snd

end Task

/-- The capabilities that a request needs: those that it asks for, and the structural one where
content would find no track. -/
def selected (classification : Classification) (snapshot : Snapshot) : List Capability :=
  let needsTrack := classification.capabilities.any Capability.isContent && !snapshot.hasTracks
  Capability.all.filter fun capability =>
    classification.capabilities.contains capability || (capability.isStructural && needsTrack)

namespace Conductor

/-- The generator for a capability; of several the last one counts. -/
def generator? (conductor : Conductor) (capability : Capability) : Option Generator :=
  conductor.generators.reverse.find? fun generator => generator.capability = capability

/-- The generators for capabilities. -/
def cast (conductor : Conductor) (capabilities : List Capability) :
    Except Fault (List Generator) :=
  capabilities.mapM fun capability =>
    match conductor.generator? capability with
    | some generator => .ok generator
    | none => .error (.noGenerator capability)

/-- Perform with a generator. Live, structural actions are handed on as they come. -/
def task (live : Bool) (commission : Commission) (generator : Generator) : Task :=
  ⟨generator.capability,
    if live && generator.capability.isStructural then generator.performLive commission
    else generator.perform commission⟩

/-- Perform with generators, all from the same time on. -/
def tasks (generators : List Generator) (live : Bool) (commission : Commission) : List Task :=
  generators.map (task live commission)

/-- The delivery of performances. -/
def deliver (snapshot : Snapshot) (capabilities : List Capability) (tasks : List Task) :
    Delivery.Buffer :=
  (Delivery.Buffer.start snapshot (capabilities.any Capability.isStructural)
    (capabilities.filter Capability.isContent)).run (Task.timeline tasks ++ [.flushed])

/-- Answer a request, at once or live. -/
def answer (conductor : Conductor) (live : Bool) (request : String) (snapshot : Snapshot)
    (cancellation : Cancellation) : Answer :=
  if cancellation.beforehand then { outcome := .error .cancelled }
  else
    let asked := conductor.classifier.calls request
    let classified := conductor.classifier.classify request
    if cancellation.cuts classified.wait 0 then { outcome := .error .cancelled, calls := asked }
    else
      let prepared : Except Fault (Classification × List Generator) := do
        let classification ← classified.value
        let generators ← conductor.cast (selected classification snapshot)
        pure (classification, generators)
      match prepared with
      | .error fault => { outcome := .error fault, calls := asked }
      | .ok (classification, generators) =>
        let capabilities := selected classification snapshot
        let deadline := conductor.timeLimit.map fun limit => classified.wait + 1000 * limit
        let tasks := tasks generators live {
          request, snapshot
          start := classified.wait
          cancellation := cancellation.byDeadline deadline }
        let calls := asked ++ tasks.flatMap fun task => task.performance.calls
        let finished := Task.finished tasks
        -- Live, the actions of the result are those that were handed on, in that order.
        if live then
          let delivery := deliver snapshot capabilities tasks
          { outcome := settle capabilities classification.tier finished fun _ =>
              ⟨delivery.emitted, delivery.unattached⟩
            shown := delivery.emitted
            calls }
        else
          { outcome := settle capabilities classification.tier finished (mergeProductions snapshot)
            calls }

end Conductor

/-- A capability is selected when the request asks for it, or when content would find no track. -/
theorem mem_selected {classification : Classification} {snapshot : Snapshot}
    {capability : Capability} :
    capability ∈ selected classification snapshot ↔
      capability ∈ classification.capabilities ∨
        capability = .daw ∧ snapshot.hasTracks = false ∧
          ∃ content ∈ classification.capabilities, content.isContent = true := by
  cases capability <;>
    simp [selected, Capability.all, Capability.isStructural, and_comm]

end Studio.Request
