import Studio.Production.Composer

/-!
# Performances

A performance is the run of a generator over time: the actions that it handed on, when it ended, and
what came of it. A composer performs at once, with nothing handed on, or live: then the actions of
every line are handed on as soon as the line was received in full and all lines so far make sense.

What was handed on is not taken back. A cancellation or a fault behind it leaves a production of
just those actions; without any, there is no production. `Live.hear_sent` says that listening only
adds actions, and `ending_handed` that an ending leaves those that were handed on in front.
-/

namespace Studio

open Session (Snapshot)
open Provider (StreamEvent Usage)

/-- The run of a generator over time. -/
structure Performance (ε : Type) where
  /-- The actions that were handed on, each with its time. -/
  handed : List (Nat × Action) := []
  /-- When the run ended. -/
  stop : Nat
  outcome : Except ε Production
  /-- The calls that were made. -/
  calls : List Provider.Call := []

/-- What a generator is asked for, and when. -/
structure Commission where
  request : String
  snapshot : Snapshot
  start : Nat := 0
  cancellation : Cancellation := .never

namespace Production

/-- What a listener knows of a script that comes piece by piece. -/
structure Live where
  /-- The text that was received. -/
  text : String := ""
  /-- The actions that were handed on, each with its time. -/
  sent : List (Nat × Action) := []

/-- How listening ends. -/
inductive Ending where
  /-- The script is complete. -/
  | completed (text : String) (usage : Option Usage)
  | cancelled
  | failed (fault : Provider.Fault)
  /-- There is no more, and the end was not announced. -/
  | silent

namespace Live

/-- Receive a piece of the script: hand on the actions of the lines that are complete now. -/
def hear (capability : Capability) (snapshot : Snapshot) (time : Nat) (live : Live)
    (piece : String) : Live :=
  let text := live.text ++ piece
  match Script.interpretReceived capability snapshot text with
  | none => { live with text }
  | some actions =>
    { text, sent := live.sent ++ (actions.drop live.sent.length).map fun action => (time, action) }

/-- Listen to a stream from a time on. -/
def listen (capability : Capability) (snapshot : Snapshot) (cancellation : Cancellation)
    (time : Nat) (live : Live) : Provider.Stream → Live × Nat × Ending
  | [] =>
    if cancellation.cuts time live.sent.length then (live, time, .cancelled)
    else (live, time, .silent)
  | event :: rest =>
    let due := time + event.wait
    -- What is due at the moment of the cancellation is still heard.
    if cancellation.cuts due live.sent.length then
      (live, cancellation.moment time live.sent.length, .cancelled)
    else match event.value with
      | .error fault => (live, due, .failed fault)
      | .ok (.completed text usage) => (live, due, .completed text usage)
      | .ok (.delta piece) =>
        listen capability snapshot cancellation due (hear capability snapshot due live piece) rest

/-- Listening only adds to the actions that were handed on. -/
theorem hear_sent (capability : Capability) (snapshot : Snapshot) (time : Nat) (live : Live)
    (piece : String) : live.sent <+: (live.hear capability snapshot time piece).sent := by
  simp only [hear]
  split
  · exact List.prefix_refl _
  · exact List.prefix_append _ _

end Live

end Production

namespace Composer

open Production (Fault Live Ending Receipt)

/-- Perform at once. -/
def perform (composer : Composer) (commission : Commission) : Performance Fault :=
  let { request, snapshot, start, cancellation } := commission
  if cancellation.fired start 0 then { stop := start, outcome := .error .cancelled }
  else
    let call := composer.call request snapshot
    let reply := composer.provider.reply call
    let due := start + reply.wait
    if cancellation.cuts due 0 then
      { stop := cancellation.moment start 0, outcome := .error .cancelled, calls := [call] }
    else {
      stop := due
      outcome := match reply.value with
        | .error fault => .error (.provider fault)
        | .ok reply => composer.ofReply snapshot reply
      calls := [call] }

/-- The production of just the actions that were handed on. -/
def keepSent (composer : Composer) (live : Live) (receipt : Receipt)
    (notices : List Script.Notice) : Except Fault Production :=
  if live.sent.isEmpty then .error .cancelled
  else composer.finish receipt ⟨live.sent.map Prod.snd, notices⟩

/-- The notice that only the actions that were handed on are kept. -/
def truncation (live : Live) (reason : String) : List Script.Notice :=
  [.truncated live.sent.length reason]

/-- What comes of listening, and all actions that are handed on. -/
def conclude (composer : Composer) (snapshot : Snapshot) (live : Live) (time : Nat) :
    Ending → List (Nat × Action) × Except Fault Production
  | .cancelled =>
    let receipt : Receipt :=
      { script := Production.scriptOf live.text, streamed := true, cancelled := true }
    (live.sent, composer.keepSent live receipt [])
  | .silent =>
    let receipt : Receipt := { script := Production.scriptOf live.text, streamed := true }
    (live.sent, composer.keepSent live receipt [])
  | .failed fault =>
    if live.sent.isEmpty then ([], .error (.provider fault))
    else
      let receipt : Receipt := { script := Production.scriptOf live.text, streamed := true }
      (live.sent, composer.keepSent live receipt (truncation live fault.message))
  | .completed text usage =>
    let receipt : Receipt := { script := Production.scriptOf text, usage, streamed := true }
    match composer.interpret receipt.script snapshot with
    | .error fault =>
      if live.sent.isEmpty then ([], .error fault)
      else
        (live.sent,
          composer.keepSent live receipt (truncation live (fault.message composer.capability)))
    | .ok interpretation =>
      (live.sent ++ (interpretation.actions.drop live.sent.length).map fun action => (time, action),
        composer.finish receipt interpretation)

/-- Perform live. -/
def performLive (composer : Composer) (commission : Commission) : Performance Fault :=
  let { request, snapshot, start, cancellation } := commission
  if cancellation.fired start 0 then { stop := start, outcome := .error .cancelled }
  else
    let call := composer.call request snapshot
    let stream := composer.provider.stream call
    let due := start + stream.wait
    if cancellation.cuts due 0 then
      { stop := cancellation.moment start 0, outcome := .error .cancelled, calls := [call] }
    else match stream.value with
      | .error fault => { stop := due, outcome := .error (.provider fault), calls := [call] }
      | .ok events =>
        let (live, stop, ending) :=
          Live.listen composer.capability snapshot cancellation due {} events
        let (handed, outcome) := composer.conclude snapshot live stop ending
        { handed, stop, outcome, calls := [call] }

/-- Whatever the ending, what was handed on while listening stays in front. -/
theorem ending_handed (composer : Composer) (snapshot : Snapshot) (live : Live) (time : Nat)
    (ending : Ending) : live.sent <+: (composer.conclude snapshot live time ending).1 := by
  cases ending with
  | cancelled | silent => exact List.prefix_refl _
  | failed fault =>
    simp only [conclude]
    split
    · next h => simp [List.isEmpty_iff.1 h]
    · exact List.prefix_refl _
  | completed text usage =>
    simp only [conclude]
    split
    · split
      · next h => simp [List.isEmpty_iff.1 h]
      · exact List.prefix_refl _
    · exact List.prefix_append _ _

end Composer

end Studio
