import Studio.Delivery.Merge
import Studio.Number.Written
import Studio.Text.Blank

/-!
# Delivering while generators still run

Structural actions are handed on as they come. Contributions wait until the structural ones are
complete; then they go to their target. A structural action that attaches no notes yet is held back
while contributions are outstanding, so that their notes can be put into it. The buffer is a state,
and each of its operations returns the next one; `emitted` lists what was handed on, in order.
-/

namespace Studio.Delivery

open Session (Snapshot)

/-- The state of a delivery. -/
structure Buffer where
  snapshot : Snapshot
  /-- What was handed on, in order. -/
  emitted : List Action := []
  /-- Every structural action so far, handed on or not. -/
  structural : List Action := []
  /-- The structural actions that are held back. -/
  withheld : List Action := []
  /-- Whether the structural actions are complete. -/
  settled : Bool
  /-- The capabilities whose contributions are awaited. -/
  pending : List Capability
  /-- The contributions that wait for the structural actions. -/
  ready : List Contribution := []
  /-- The capabilities whose contributions found no track. -/
  unattached : List Capability := []

namespace Buffer

/-- The state before anything is known. Without structural actions to come, these are complete. -/
def start (snapshot : Snapshot) (structural : Bool) (content : List Capability) : Buffer :=
  { snapshot, settled := !structural, pending := Capability.all.filter content.contains }

/-- Whether there are contributions that were not handed on yet. -/
def outstanding (buffer : Buffer) : Bool :=
  !buffer.pending.isEmpty || !buffer.ready.isEmpty

/-- Hand on actions. -/
def emit (actions : List Action) (buffer : Buffer) : Buffer :=
  { buffer with emitted := buffer.emitted ++ actions }

/-- The action that attaches notes to a track: the first one that is held back for the track, else a
new one; and the actions that are held back after that. -/
def fill (target : Nat) (notes : List Json) (withheld : List Action) : Action × List Action :=
  match splitFirst? (touches target) withheld with
  | some (before, found, after) => (found.appendNotes notes, before ++ after)
  | none => (Action.attaching target notes, withheld)

/-- Hand on a contribution. -/
def release (part : Contribution) (buffer : Buffer) : Buffer :=
  let target := resolveTarget buffer.structural buffer.snapshot
  let described := part.actions.map (tag target)
  match target with
  | none => { buffer.emit described with unattached := buffer.unattached ++ [part.capability] }
  | some track =>
    if part.notes.isEmpty then buffer.emit described
    else
      let (attach, withheld) := fill track (part.notes.map Music.Note.toJson) buffer.withheld
      { buffer.emit (attach :: described) with withheld }

/-- Hand on what need not wait any longer. -/
def resolve (buffer : Buffer) : Buffer :=
  if buffer.settled then
    let parts := Capability.sortBy Contribution.capability buffer.ready
    let released := parts.foldl (fun state part => release part state) { buffer with ready := [] }
    -- With no notes to come, what is held back goes out as it is.
    if released.pending.isEmpty then { released.emit released.withheld with withheld := [] }
    else released
  else buffer

/-- A structural action came. -/
def push (action : Action) (buffer : Buffer) : Buffer :=
  let buffer := { buffer with structural := buffer.structural ++ [action] }
  if action.isAttach && action.notes.isEmpty && buffer.outstanding then
    { buffer with withheld := buffer.withheld ++ [action] }
  else buffer.emit [action]

/-- The structural actions are complete. -/
def finishStructural (buffer : Buffer) : Buffer :=
  resolve { buffer with settled := true }

/-- The contribution of a capability came, or will not come. -/
def finishContent (capability : Capability) (part : Option Contribution) (buffer : Buffer) :
    Buffer :=
  resolve { buffer with
    pending := buffer.pending.filter (· ≠ capability)
    ready := buffer.ready ++ part.toList }

/-- Nothing is awaited any longer. -/
def flush (buffer : Buffer) : Buffer :=
  resolve { buffer with settled := true, pending := [] }

/-- The word for a capability in a report on the state. -/
def capabilityWord : Capability → String
  | .daw => "Daw"
  | .arranger => "Arranger"
  | .drummer => "Drummer"

/-- A report on the state. -/
def report (buffer : Buffer) : String :=
  "StreamBuffer \x7b emitted: " ++ Number.intText buffer.emitted.length ++
    ", withheld: " ++ Number.intText buffer.withheld.length ++
    ", structural_done: " ++ (if buffer.settled then "true" else "false") ++
    ", pending: \x7b" ++ Text.joinWith ", " (buffer.pending.map capabilityWord) ++ "\x7d \x7d"

end Buffer

/-- What can happen to a delivery. -/
inductive Event where
  | pushed (action : Action)
  | structuralFinished
  | contentFinished (capability : Capability) (part : Option Contribution)
  | flushed

/-- The state after an event. -/
def Buffer.step (buffer : Buffer) : Event → Buffer
  | .pushed action => buffer.push action
  | .structuralFinished => buffer.finishStructural
  | .contentFinished capability part => buffer.finishContent capability part
  | .flushed => buffer.flush

/-- The state after events, one after another. -/
def Buffer.run (buffer : Buffer) (events : List Event) : Buffer :=
  events.foldl Buffer.step buffer

/-- Two runs of events are one run. -/
theorem Buffer.run_append (buffer : Buffer) (first second : List Event) :
    buffer.run (first ++ second) = (buffer.run first).run second :=
  List.foldl_append

end Studio.Delivery
