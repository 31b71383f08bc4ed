import VoxelServer.Json.Value
import VoxelServer.Message.Basic

/-!
# Text components

Text shown to players travels as JSON, in the shortest form and with the keys of an object in
order.
-/

namespace VoxelServer

/-- A component that is plain text. -/
def textComponent (text : String) : String := (Json.record [("text", .text text)]).compact

/-- A component for what a player said, which the client words itself. -/
def chatComponent (sender text : String) : String :=
  (Json.record
    [("translate", .text "chat.type.text"), ("with", .array [.text sender, .text text])]).compact

/-- A message of the server's own. -/
def ChatMessage.ofText (text : String) : ChatMessage := ⟨textComponent text, .system⟩

/-- What a player said. -/
def ChatMessage.ofPlayer (sender text : String) : ChatMessage :=
  ⟨chatComponent sender text, .chat⟩

/-- The goodbye with a reason. -/
def Message.disconnectText (reason : String) : Message := .disconnect (textComponent reason)

end VoxelServer
