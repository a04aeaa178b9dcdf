import Studio.Production.Performance

/-!
# Generators

A generator performs for one capability. Besides composers there are generators that always give the
same production, and generators that always break down.
-/

namespace Studio

open Production (Failure)

/-- Change the fault of a performance. -/
def Performance.mapFault {ε δ : Type} (f : ε → δ) (performance : Performance ε) : Performance δ :=
  { performance with outcome := performance.outcome.mapError f }

/-- Something that performs for a capability, at once or live. -/
structure Generator where
  capability : Capability
  perform : Commission → Performance Failure
  performLive : Commission → Performance Failure

namespace Generator

/-- The generator that a composer is. -/
def ofComposer (composer : Composer) : Generator where
  capability := composer.capability
  perform commission :=
    (composer.perform commission).mapFault (Failure.ofFault composer.capability)
  performLive commission :=
    (composer.performLive commission).mapFault (Failure.ofFault composer.capability)

/-- A generator that only performs at once; live, it hands its actions on in the end. -/
def ofPerform (capability : Capability) (perform : Commission → Performance Failure) :
    Generator where
  capability := capability
  perform := perform
  performLive commission :=
    let performance := perform commission
    match performance.outcome with
    | .ok production =>
      { performance with
        handed := production.actions.map fun action => (performance.stop, action) }
    | .error _ => performance

/-- A generator that always gives the same production. -/
def fixed (production : Production) : Generator :=
  ofPerform production.capability fun commission =>
    { stop := commission.start, outcome := .ok production }

/-- A generator that always breaks down. -/
def broken (capability : Capability) : Generator :=
  ofPerform capability fun commission =>
    { stop := commission.start, outcome := .error (.breakdown capability) }

/-- The composers of all capabilities over one provider and model. -/
def composers (provider : Provider) (model : String) : List Generator :=
  Capability.all.map fun capability => ofComposer ⟨capability, provider, model⟩

end Generator

end Studio
