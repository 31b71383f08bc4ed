import VoxelServer.Message.Type
import VoxelServer.Particle.Kind
import VoxelServer.Protocol.State
import VoxelServer.Text.Utf8

/-!
# What can go wrong between bytes and messages

* `CodecError`: every way to fail, and `CodecError.message`, its wording.
* `CodecError.isIncomplete`: whether more input could turn a failure into a success.
-/

namespace VoxelServer

/-- Faults of a compressed frame. The last one covers whatever is wrong inside the stream. -/
inductive CompressionFault
  | belowThreshold (declared threshold : Nat)
  | lengthMismatch (declared inflated : Nat)
  | badStream
  deriving DecidableEq, Repr

/-- Faults that concern one kind of message or value alone. -/
inductive Misuse
  | tooDeeplyNested
  | neverSent (type : MessageType)
  | noCodec (type : MessageType)
  | cannotMove (source target : ProtocolState)
  | notResizable (kind : ParticleKind)
  | notColorable (kind : ParticleKind)
  | withoutNote (kind : ParticleKind)
  | withoutMotion (kind : ParticleKind)
  | emptyRegistryData
  deriving DecidableEq, Repr

/-- Anything that goes wrong turning bytes into messages or back. It ends one connection at
most. -/
inductive CodecError
  | varNumTooLong (max : Nat)
  | truncated (needed available : Nat)
  | negativeLength (length : Int)
  | tooLong (length max : Nat)
  | invalidUtf8 (fault : Utf8.Fault)
  | unknownOpcode (state : ProtocolState) (opcode : Int32)
  | decodeUnsupported (type : MessageType)
  | unregistered (type : MessageType) (state : ProtocolState)
  | frameTooLarge (length max : Nat)
  | compression (fault : CompressionFault)
  | invalidValue (field : String) (value : Int)
  | invalid (misuse : Misuse)
  | malformedNbt
  deriving DecidableEq, Repr

def CompressionFault.message : CompressionFault → String
  | belowThreshold declared threshold =>
    s!"{declared} byte payload is below the threshold of {threshold} but was compressed"
  | lengthMismatch declared inflated => s!"declared {declared} bytes, inflated to {inflated}"
  | badStream => "corrupt deflate stream"

def Misuse.message : Misuse → String
  | tooDeeplyNested => "nbt nested too deeply"
  | neverSent type => type.name ++ " is never sent"
  | noCodec type => type.name ++ " has no codec"
  | cannotMove source target => "cannot move from " ++ source.name ++ " to " ++ target.name
  | notResizable kind => kind.name ++ " cannot be resized"
  | notColorable kind => kind.name ++ " cannot be colored"
  | withoutNote kind => kind.name ++ " has no note"
  | withoutMotion kind => kind.name ++ " has no motion"
  | emptyRegistryData => "registry data needs at least one entry"

/-- At least two upper case hexadecimal digits of the 32 bits. -/
def hexOpcode (opcode : Int32) : String :=
  let digits := (Nat.toDigits 16 opcode.toUInt32.toNat).map Char.toUpper
  "0x" ++ String.ofList (if digits.length < 2 then '0' :: digits else digits)

namespace CodecError

def isIncomplete : CodecError → Bool
  | truncated .. => true
  | _ => false

/-- The name of the kind of fault. -/
def kind : CodecError → String
  | varNumTooLong _ => "VarNumTooLong"
  | truncated .. => "Truncated"
  | negativeLength _ => "NegativeLength"
  | tooLong .. => "TooLong"
  | invalidUtf8 _ => "InvalidUtf8"
  | unknownOpcode .. => "UnknownOpcode"
  | decodeUnsupported _ => "DecodeUnsupported"
  | unregistered .. => "Unregistered"
  | frameTooLarge .. => "FrameTooLarge"
  | compression _ => "Compression"
  | invalidValue .. => "InvalidValue"
  | invalid _ => "Invalid"
  | malformedNbt => "Nbt"

def message : CodecError → String
  | varNumTooLong max => s!"variable length number is longer than {max} bytes"
  | truncated needed available =>
    s!"unexpected end of data: needed {needed} bytes, {available} available"
  | negativeLength length => s!"negative length {length}"
  | tooLong length max => s!"length {length} exceeds the limit of {max}"
  | invalidUtf8 fault => "invalid utf-8: " ++ fault.message
  | unknownOpcode state opcode =>
    "unknown opcode " ++ hexOpcode opcode ++ " in the " ++ state.name ++ " state"
  | decodeUnsupported type => type.path ++ " cannot be decoded"
  | unregistered type state =>
    type.path ++ " is not registered in the " ++ state.name ++ " state"
  | frameTooLarge length max => s!"frame of {length} bytes exceeds the limit of {max}"
  | compression fault => "bad compression: " ++ fault.message
  | invalidValue field value => s!"invalid {field}: {value}"
  | invalid misuse => misuse.message
  | malformedNbt => "nbt: malformed data"

end CodecError

end VoxelServer
