import Studio.Provider.Call
import Studio.Provider.Fault
import Studio.Provider.Reply
import Studio.Timing

/-!
# Providers

A provider answers calls with texts. It answers at once with a whole reply, or opens a stream of
pieces; each takes its time, and each can fail.
-/

namespace Studio

/-- The events of a stream, each after a wait behind the one before. -/
abbrev Provider.Stream := List (Delayed (Except Provider.Fault Provider.StreamEvent))

/-- Something that answers calls. -/
structure Provider where
  name : String
  reply : Provider.Call → Delayed (Except Provider.Fault Provider.Reply)
  stream : Provider.Call → Delayed (Except Provider.Fault Provider.Stream)

namespace Provider

/-- The stream of a whole reply: its text in one piece, and the end. -/
def Reply.stream (reply : Reply) : Stream :=
  [.now (.ok (.delta reply.text)), .now (.ok (.completed reply.text reply.usage))]

/-- A provider that only gives whole replies. -/
def ofReply (name : String) (reply : Call → Delayed (Except Fault Reply)) : Provider where
  name := name
  reply := reply
  stream call := (reply call).map fun outcome => outcome.map Reply.stream

end Provider

end Studio
