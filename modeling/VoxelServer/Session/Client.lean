import VoxelServer.Frame

/-!
# What clients read

A client takes the frames of a connection one after the other. It starts without compression and
follows the server's announcements: a payload that sets the compression changes how all frames
after it are read.

* `FrameCodec.content`: what stands in a frame.
* `FrameCodec.following`: how the frames after a payload are read.
-/

namespace VoxelServer

/-- What stands in a frame. -/
inductive FrameContent
  | asIs (payload : Bytes)
  /-- A payload that was compressed, behind its length. -/
  | packed (length : Nat) (payload : Bytes)
  deriving DecidableEq, Repr

def FrameContent.payload : FrameContent → Bytes
  | asIs payload | packed _ payload => payload

/-- The opcode of the message that sets the compression. -/
def compressionOpcode : UInt8 := 3

namespace FrameCodec

/-- Whether the payload of a frame is compressed, by the length in front of it. -/
def isPacked (codec : FrameCodec) (frame : Bytes) : Bool :=
  let declared : Decoder VarInt := do
    let _ : VarInt ← Wire.decode
    Wire.decode
  match codec.threshold, declared.first frame with
  | some _, .ok declared => declared.value != 0
  | _, _ => false

/-- What stands in a frame, if it is whole. -/
def content (codec : FrameCodec) (frame : Bytes) : Except CodecError (Option FrameContent) :=
  match codec.decode frame with
  | .incomplete => .ok none
  | .invalid e _ => .error e
  | .frame payload _ =>
    .ok (some (if codec.isPacked frame then .packed payload.length payload else .asIs payload))

/-- How a client reads the frames after one with this payload. -/
def following (codec : FrameCodec) (payload : Bytes) : FrameCodec :=
  match payload with
  | [] => codec
  | opcode :: body =>
    if opcode == compressionOpcode then
      match (Wire.decode : Decoder VarInt) body with
      | .ok (threshold, _) => codec.setCompression threshold.value
      | .error _ => codec
    else codec

/-- What stands in the frames of a connection, and how those after them are read. A frame that
cannot be read announces nothing. -/
def contents (codec : FrameCodec) :
    List Bytes → List (Except CodecError (Option FrameContent)) × FrameCodec
  | [] => ([], codec)
  | frame :: frames =>
    let content := codec.content frame
    let next := match content with
      | .ok (some content) => codec.following content.payload
      | _ => codec
    let (contents, codec) := next.contents frames
    (content :: contents, codec)

end FrameCodec

end VoxelServer
