import Studio.Provider.Basic
import Studio.Request.Fault
import Studio.Request.Keywords
import Studio.Text.Quoted

/-!
# Classification

Which capabilities a request asks for. Keywords decide alone when they select several capabilities,
or one and no hint speaks for another; else a provider is asked once, and what it names is added.
When it fails, the keywords have to do. Main statements: `settle_ok` says that a classification is
not empty and keeps what the keywords select, and `length_calls_le` that a provider is called at
most once.
-/

namespace Studio.Request

open Json (Record readBool readRecord readText)

/-- What the keyword table says about a request. -/
structure Detection where
  capabilities : List Capability
  hints : List Capability
  /-- Whether a provider must be asked. -/
  uncertain : Bool
deriving DecidableEq, Repr

/-- What decided a classification. -/
inductive Tier where
  | keywords
  | fallback
  /-- The keywords, since the provider failed. -/
  | keywordsAfterFault
deriving DecidableEq, Repr

/-- A word for a tier. -/
def Tier.name : Tier → String
  | .keywords => "keywords"
  | .fallback => "fallback"
  | .keywordsAfterFault => "keywords_after_fallback_error"

/-- The capabilities that a request asks for. -/
structure Classification where
  capabilities : List Capability
  tier : Tier
deriving DecidableEq, Repr

/-- What a keyword table says about a request. -/
def KeywordTable.detect (table : KeywordTable) (request : String) : Detection :=
  let capabilities := table.matching request
  let hints := table.hinted request
  { capabilities, hints
    uncertain := match capabilities with
      | [] => true
      | [only] => hints.any (· ≠ only)
      | _ => false }

namespace Detection

/-- The classification by keywords and what a provider said. -/
def settle (detection : Detection) (answer : Except Provider.Fault (List Capability)) :
    Except Fault Classification :=
  match answer with
  | .ok named =>
    let capabilities := Capability.all.filter fun capability =>
      detection.capabilities.contains capability || named.contains capability
    if capabilities.isEmpty then .error .outOfScope else .ok ⟨capabilities, .fallback⟩
  | .error fault =>
    if detection.capabilities.isEmpty then .error (.classification fault)
    else .ok ⟨detection.capabilities, .keywordsAfterFault⟩

/-- A classification is not empty and keeps what the keywords select. -/
theorem settle_ok {detection : Detection} {answer : Except Provider.Fault (List Capability)}
    {classification : Classification} (h : detection.settle answer = .ok classification) :
    classification.capabilities ≠ [] ∧
      ∀ capability ∈ detection.capabilities, capability ∈ classification.capabilities := by
  cases answer with
  | ok named =>
    simp only [settle] at h
    split at h
    · simp at h
    · next hne =>
      injection h with h
      subst h
      refine ⟨fun he => hne (List.isEmpty_iff.2 he), fun capability hc => ?_⟩
      exact List.mem_filter.2 ⟨Capability.mem_all capability, by simp [hc]⟩
  | error fault =>
    simp only [settle] at h
    split at h
    · simp at h
    · next hne =>
      injection h with h
      subst h
      exact ⟨fun he => hne (List.isEmpty_iff.2 he), fun _ hc => hc⟩

end Detection

/-- The key under which a provider is asked for a classification. -/
def classificationKey : String := "capability_classification"

/-- What a provider is told about the capabilities. -/
def classificationInstructions : String :=
  "Decide which music production assistants a request needs. daw: creating, editing, mixing, or " ++
    "deleting tracks, clips, and effects. arranger: chords, arpeggios, progressions, melodies, " ++
    "and other pitched musical content. drummer: drum beats and percussion patterns. Answer " ++
    "false for all three when the request has nothing to do with music production."

/-- The schema of a provider's answer: a truth value for every capability. -/
def answerSchema : Json :=
  .ofMembers [("type", .string "object"),
    ("properties", .ofMembers (Capability.all.map fun capability =>
      (capability.name, .object [("type", .string "boolean")]))),
    ("required", .listOf (fun capability : Capability => .string capability.name) Capability.all),
    ("additionalProperties", .bool false)]

/-- The record of a provider's answer; a capability that is left out is not named. -/
def answerRecord : Record (Capability → Bool) where
  title := "FallbackAnswer"
  blank := fun _ => false
  fields := Capability.all.map fun capability =>
    ⟨capability.name, false, readBool.map fun value answer other =>
      if other = capability then value else answer other⟩

/-- The capabilities that a provider's reply names. -/
def readAnswer (reply : Provider.Reply) : Except Provider.Fault (List Capability) :=
  let source := Text.trim reply.text
  match readText (readRecord answerRecord) source.toList with
  | .error fault => .error (.json source fault)
  | .ok answer => .ok (Capability.all.filter answer)

/-- A keyword table with a provider to ask, and the model for that. -/
structure Classifier where
  table : KeywordTable
  provider : Provider
  model : String

namespace Classifier

/-- What the keywords say about a request. -/
def detect (classifier : Classifier) (request : String) : Detection :=
  classifier.table.detect request

/-- The call that asks a provider. -/
def call (classifier : Classifier) (request : String) : Provider.Call :=
  ⟨classifier.model, classificationInstructions, [⟨.user, request⟩],
    .schema classificationKey answerSchema⟩

/-- The calls that a classification makes. -/
def calls (classifier : Classifier) (request : String) : List Provider.Call :=
  if (classifier.detect request).uncertain then [classifier.call request] else []

/-- The capabilities that a request asks for. -/
def classify (classifier : Classifier) (request : String) :
    Delayed (Except Fault Classification) :=
  let detection := classifier.detect request
  if detection.uncertain then
    (classifier.provider.reply (classifier.call request)).map fun reply =>
      detection.settle (reply.bind readAnswer)
  else .now (.ok ⟨detection.capabilities, .keywords⟩)

/-- A report on a classifier. -/
def report (classifier : Classifier) : String :=
  "Classifier \x7b terms: " ++ Number.intText classifier.table.size ++ ", provider: " ++
    Text.quoted classifier.provider.name ++ ", model: " ++ Text.quoted classifier.model ++ " \x7d"

/-- A provider is called at most once. -/
theorem length_calls_le (classifier : Classifier) (request : String) :
    (classifier.calls request).length ≤ 1 := by
  simp only [calls]
  split <;> simp

end Classifier

end Studio.Request
