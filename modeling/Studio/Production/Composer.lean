import Studio.Payload.Basic
import Studio.Production.Basic
import Studio.Production.Prompt
import Studio.Session.Format

/-!
# Composers

A composer has a provider write scripts for a capability and turns them into productions. A script
may come wrapped in a fence of backquotes, which is no part of it. Main statement: `finish_actions`
says that a production has the actions of its interpretation.
-/

namespace Studio

open Script (Interpretation)
open Session (Snapshot)

/-- A generator that has a provider write scripts. -/
structure Composer where
  capability : Capability
  provider : Provider
  model : String

namespace Production

/-- The characters of a fence. -/
def fence : List Char := "```".toList

/-- A reversed text without the fences it begins with. -/
def dropFences : List Char → List Char
  | '\x60' :: '\x60' :: '\x60' :: rest => dropFences rest
  | text => text

/-- The script in a reply: without blanks around it, and without the fences and the first line of a
reply that begins with a fence. -/
def scriptOf (reply : String) : String :=
  let text := Text.trimList reply.toList
  match Text.dropStart? fence text with
  | none => String.ofList text
  | some rest =>
    match Text.splitOnce '\n' rest with
    | none => ""
    | some (_, body) =>
      String.ofList (Text.trimList (dropFences (Text.dropBlankEnd body).reverse).reverse)

/-- How a script was received. -/
structure Receipt where
  script : String
  usage : Option Provider.Usage := none
  streamed : Bool := false
  cancelled : Bool := false

end Production

namespace Composer

open Production (Fault Receipt)

/-- The call for a request. Structural scripts are written in view of the tracks that are there. -/
def call (composer : Composer) (request : String) (snapshot : Snapshot) : Provider.Call :=
  let prompt := Production.prompt composer.capability
  let state : List Provider.Message :=
    if composer.capability.isStructural && snapshot.hasTracks then
      [⟨.developer, "Current session state: " ++ snapshot.toJson.text⟩]
    else []
  ⟨composer.model, prompt.instructions, ⟨.user, request⟩ :: state, prompt.outputFormat⟩

/-- What a script amounts to. -/
def interpret (composer : Composer) (script : String) (snapshot : Snapshot) :
    Except Fault Interpretation :=
  (Script.interpret composer.capability snapshot script).mapError (.script script)

/-- The production of an interpreted script. -/
def finish (composer : Composer) (receipt : Receipt) (interpretation : Interpretation) :
    Except Fault Production :=
  match payload composer.capability interpretation.actions with
  | .error fault => .error (.notes fault)
  | .ok notes => .ok {
      capability := composer.capability
      actions := interpretation.actions
      notes := notes
      diagnostics := {
        capability := composer.capability
        provider := composer.provider.name
        model := composer.model
        script := receipt.script
        usage := receipt.usage
        notices := interpretation.notices
        streamed := receipt.streamed
        cancelled := receipt.cancelled } }

/-- The production of a whole reply. -/
def ofReply (composer : Composer) (snapshot : Snapshot) (reply : Provider.Reply) :
    Except Fault Production := do
  let script := Production.scriptOf reply.text
  let interpretation ← composer.interpret script snapshot
  composer.finish { script, usage := reply.usage } interpretation

/-- A production has the actions and the notices of its interpretation. -/
theorem finish_actions {composer : Composer} {receipt : Receipt} {interpretation : Interpretation}
    {production : Production} (h : composer.finish receipt interpretation = .ok production) :
    production.actions = interpretation.actions ∧
      production.diagnostics.notices = interpretation.notices := by
  simp only [finish] at h
  split at h
  · simp at h
  · injection h with h; subst h; exact ⟨rfl, rfl⟩

end Composer

end Studio
