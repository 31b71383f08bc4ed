import VoxelServer.Message.Codec

/-!
# Codecs and processors

How one type of message is written and read, and how one type of message is turned into others on
the way out.

* `CodecContext`: what a connection's messages may depend on.
* `Codec`, `Processor`: the two kinds of programs.
* `Codec.ofType`: the codec of each type of message.
-/

namespace VoxelServer

/-- The version of the protocol that is spoken here. -/
def spokenVersion : Int32 := 210

/-- What is known of a connection's client. -/
structure CodecContext where
  protocolVersion : Int32 := spokenVersion
  forge : Bool := false
  deriving DecidableEq, Repr, Inhabited

/-- Writes and reads messages of one type, without their opcode. -/
structure Codec where
  type : MessageType
  /-- Whether the encoding is the same for every recipient. -/
  caching : Bool
  encode : CodecContext → Message → Except CodecError Bytes
  decode : CodecContext → Bytes → Except CodecError Message

/-- The codec of a type of message, which no context changes. -/
def Codec.ofType (type : MessageType) : Codec where
  type := type
  caching := type.isCaching
  encode _ m := m.encodeBody
  decode _ bytes := type.body.first bytes

/-- Turns a message of one type into any number of others. -/
structure Processor where
  type : MessageType
  /-- Whether the outputs depend on the message alone and are the same for every recipient. -/
  caching : Bool
  process : CodecContext → Message → Except CodecError (List Message)

end VoxelServer
