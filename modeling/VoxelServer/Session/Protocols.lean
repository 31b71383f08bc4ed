import VoxelServer.Protocol.Processors
import VoxelServer.Session.Login
import VoxelServer.Session.Opening
import VoxelServer.Session.Play

/-!
# The messages of each state

Which messages clients and server may send in each state of the protocol, and who handles those of
clients.

* `Message.handle`: what each message of a client does.
* `Protocols.game`: all registries.
-/

namespace VoxelServer

/-- What a message of a client does. Confirmations, brands and other plugin traffic are read and
change nothing. -/
def Message.handle : Handler
  | .handshake m => m.handle
  | .statusRequest => handleStatusRequest
  | .ping payload => handlePing payload
  | .loginStart name => handleLoginStart name
  | .incomingChat text => handleChat text
  | .clientSettings m => handleSettings m
  | .clickWindow m => handleClick m
  | .creativeInventoryAction m => handleCreative m
  | .closeWindow windowId => handleCloseWindow windowId
  | .keepAlive id => handleKeepAlive id
  | .playerPosition position onGround => handleMove (some position) none onGround
  | .playerPositionRotation position look onGround =>
    handleMove (some position) (some look) onGround
  | .playerRotation look onGround => handleMove none (some look) onGround
  | .playerOnGround onGround => handleMove none none onGround
  | _ => return

/-- The opcodes of the messages of one state and direction. -/
abbrev OpcodeTable := List (Int32 × MessageType)

/-- Binds the messages of a table, all with the same handler. -/
def Registry.bindTable {H : Type} (table : OpcodeTable) (handler : Option H) : RegistryM H Unit :=
  table.forM fun (opcode, type) => insert opcode (.ofType type) handler

/-- A registry with the messages of a table. -/
@[irreducible]
def Registry.ofTable {H : Type} (state : ProtocolState) (direction : Direction)
    (table : OpcodeTable) (handler : Option H) : Registry H :=
  (bindTable table handler (empty state direction)).2

namespace ProtocolState

/-- What a client may send. -/
def inboundTable : ProtocolState → OpcodeTable
  | handshake => [(0x00, .handshake)]
  | status => [(0x00, .statusRequest), (0x01, .ping)]
  | login => [(0x00, .loginStart)]
  | play =>
    [(0x00, .teleportConfirm), (0x02, .incomingChat), (0x04, .clientSettings),
      (0x05, .confirmTransaction), (0x07, .clickWindow), (0x08, .closeWindow),
      (0x09, .channelPayload), (0x0B, .keepAlive), (0x0C, .playerPosition),
      (0x0D, .playerPositionRotation), (0x0E, .playerRotation), (0x0F, .playerOnGround),
      (0x18, .creativeInventoryAction)]

/-- What the server may send. -/
def outboundTable : ProtocolState → OpcodeTable
  | handshake => []
  | status => [(0x00, .statusResponse), (0x01, .ping)]
  | login => [(0x00, .disconnect), (0x02, .loginSuccess), (0x03, .setCompression)]
  | play =>
    [(0x08, .blockBreakAnimation), (0x0F, .chatMessage), (0x11, .confirmTransaction),
      (0x12, .closeWindow), (0x16, .setSlot), (0x18, .channelPayload), (0x1A, .disconnect),
      (0x1F, .keepAlive), (0x22, .spawnParticle), (0x23, .joinGame),
      (0x2E, .playerPositionAndLook), (0x4B, .entityEffect)]

/-- What turns messages into others before they are sent. -/
def processors : ProtocolState → List Processor
  | play => [.particles, .registries]
  | _ => []

end ProtocolState

/-- The registries of the game. -/
def Protocols.game : Protocols Handler where
  inbound := .of fun state => .ofTable state .inbound state.inboundTable (some Message.handle)
  outbound := .of fun state =>
    state.processors.foldl Registry.bindProcessor
      (.ofTable state .outbound state.outboundTable none)

end VoxelServer
