import VoxelServer.Protocol.Registry

/-!
# Messages on their way out

A message is sent as a payload, its opcode and its body. One that has processors is sent as what
they make of it. A broadcast is encoded once where all recipients would get the same bytes.

* `OutboundRegistry.encode`: the payloads of a message for one connection.
* `OutboundRegistry.prepare`: a message for many connections, as a `Broadcast`.
-/

namespace VoxelServer

/-- The messages one state can send. Nobody handles them. -/
abbrev OutboundRegistry := Registry Unit

/-- A message for every connection that is in one state. -/
inductive Broadcast
  /-- Its payloads, which do for all. -/
  | cached (state : ProtocolState) (payloads : List Bytes)
  /-- The message itself, to be encoded for each connection. -/
  | perConnection (state : ProtocolState) (message : Message)

namespace OutboundRegistry

/-- Opcode and body of a message that is bound. -/
def encodePayload (r : OutboundRegistry) (ctx : CodecContext) (m : Message) :
    Except CodecError Bytes :=
  match r.byType? m.type with
  | none => .error (.unregistered m.type r.state)
  | some entry => do return Wire.encode (VarInt.mk entry.opcode) ++ (← entry.codec.encode ctx m)

/-- What the given processors make of a message, one after the other. -/
def process (processors : List Processor) (ctx : CodecContext) (m : Message) :
    Except CodecError (List Message) :=
  List.flatten <$> processors.mapM (·.process ctx m)

/-- The payloads of a message for one connection. If one of its processors fails, nothing is
sent and nothing is wrong. -/
def encode (r : OutboundRegistry) (ctx : CodecContext) (m : Message) :
    Except CodecError (List Bytes) :=
  match r.processorsFor m.type with
  | [] => do return [← r.encodePayload ctx m]
  | processors =>
    match process processors ctx m with
    | .ok produced => produced.mapM (r.encodePayload ctx)
    | .error _ => .ok []

/-- Whether a message may look the same to everyone. -/
def isCacheable (r : OutboundRegistry) (type : MessageType) : Bool :=
  match r.processorsFor type with
  | [] => r.isCaching type
  | processors => processors.all (·.caching)

/-- A message for all connections in the registry's state. -/
def prepare (r : OutboundRegistry) (m : Message) : Except CodecError Broadcast :=
  if !r.isCacheable m.type then .ok (.perConnection r.state m)
  else match r.processorsFor m.type with
    | [] => do return .cached r.state [← r.encodePayload {} m]
    | processors => do
      let produced ← process processors {} m
      if produced.all fun out => r.isCaching out.type then
        return .cached r.state (← produced.mapM (r.encodePayload {}))
      else return .perConnection r.state m

end OutboundRegistry

/-- All registries of a server. -/
structure Protocols (H : Type) where
  inbound : PerState (Registry H)
  outbound : PerState OutboundRegistry

namespace Protocols

variable {H : Type}

/-- Registries without any message. -/
def empty : Protocols H where
  inbound := .of fun state => .empty state .inbound
  outbound := .of fun state => .empty state .outbound

end Protocols

end VoxelServer
