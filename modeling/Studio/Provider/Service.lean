import Studio.Provider.Basic
import Studio.Provider.Settings
import Studio.Text.Quoted

/-!
# The live service

What is sent to the service for a call, and how a call ends that is not sent at all. Models that
reason take an effort in place of a temperature.
-/

namespace Studio.Provider

/-- The live service with its settings. -/
structure Service where
  settings : Settings

namespace Service

/-- The word for the service. -/
def name : String := "openai"

/-- Whether a model reasons before it answers. -/
def reasons (model : String) : Bool :=
  Text.startsWith "gpt-5".toList model.toList || Text.startsWith ['o'] model.toList

/-- The members that steer how a model answers. -/
def steering (settings : Settings) (model : String) : List (String × Json) :=
  if reasons model then
    match settings.reasoningEffort with
    | some effort => [("reasoning", .object [("effort", .string effort)])]
    | none => []
  else
    match settings.temperature with
    | some temperature => [("temperature", .ofFloat temperature.toFloat)]
    | none => []

/-- The members that constrain the form of the answer. -/
def constraint : OutputFormat → List (String × Json)
  | .text => []
  | .grammar tool description language definition =>
    [("tools", .array [.object [("type", .string "custom"), ("name", .string tool),
        ("description", .string description),
        ("format", .object [("type", .string "grammar"), ("syntax", .string language),
          ("definition", .string definition)])]]),
      ("tool_choice", .string "required"), ("parallel_tool_calls", .bool false)]
  | .schema name shape =>
    [("text", .object [("format", .object [("type", .string "json_schema"), ("name", .string name),
      ("schema", shape), ("strict", .bool true)])])]

/-- The body of the request that is sent for a call. -/
def body (service : Service) (call : Call) (stream : Bool) : Json :=
  .ofMembers ([("model", .string call.model), ("instructions", .string call.instructions),
    ("input", .listOf Message.toJson call.input), ("stream", .bool stream)] ++
    Json.memberSome "max_output_tokens" (service.settings.maxOutputTokens.map Json.nat) ++
    steering service.settings call.model ++ constraint call.output)

/-- How a call ends that does not reach the service: it takes a key to send one. -/
def unsent (service : Service) : Fault :=
  match service.settings.usableKey? with
  | some _ => .unreachable
  | none => .missingKey

/-- The service as a provider whose calls do not reach it. -/
def offline (service : Service) : Provider where
  name := name
  reply _ := .now (.error service.unsent)
  stream _ := .now (.error service.unsent)

/-- A report on the service, which does not show the key. -/
def report (service : Service) : String :=
  let key := match service.settings.apiKey with
    | some _ => "Some(" ++ Text.quoted "<redacted>" ++ ")"
    | none => "None"
  "OpenAiProvider \x7b endpoint: " ++ Text.quoted service.settings.endpoint ++ ", model: " ++
    Text.quoted service.settings.model ++ ", api_key: " ++ key ++ " \x7d"

end Service

end Studio.Provider
