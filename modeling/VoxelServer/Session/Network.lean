import VoxelServer.Session.Connection

/-!
# A server with its connections

Connections have numbers, in the order in which they came. Each of them acts on the server they
share, and messages for everyone reach all that are left.

* `Network`: the type; `Network.accept` and `Network.leave` add and remove a connection.
* `Network.act`: lets one connection do something.
* `Network.takeOutbound`: what is to be written to a connection.
* `Network.deliverTo`: hands out the messages for everyone, in a tick or outside of one.
* `Network.receive`, `Network.tick`: bytes from a client, and a tick of the clock.
* `Network.dismiss`: lets go of connections that are done.
-/

namespace VoxelServer

structure Network where
  server : Server
  /-- Every connection there ever was, without those that are gone. -/
  connections : List (Option Connection)

/-- What became of a message for everyone. -/
structure Delivery where
  broadcast : Except CodecError Broadcast
  /-- The failures of those it could not be sent to. -/
  failures : List CodecError

namespace Network

def start (config : Config) (listeners : Listeners) : Network := ⟨.start config listeners, []⟩

def accept (n : Network) : Network :=
  { n with connections := n.connections ++ [some (.start n.server.config Zlib.deflate)] }

/-- The connection with a number, if it is still there. -/
def connection? (n : Network) (i : Nat) : Option Connection := n.connections[i]?.join

/-- A connection does something, which may change the server. -/
def act {A : Type} (n : Network) (i : Nat) (c : Connection)
    (f : Server → Connection → A × Connection × Server) : A × Network :=
  let (a, c, server) := f n.server c
  (a, ⟨server, n.connections.set i (some c)⟩)

/-- Takes the frames that wait to be written to a connection. -/
def takeOutbound (n : Network) (i : Nat) : List Bytes × Network :=
  match n.connection? i with
  | none => ([], n)
  | some c =>
    let (frames, session) := c.session.takeOutbound
    (frames, { n with connections := n.connections.set i (some { c with session }) })

/-- A connection is gone, and its player with it. -/
def leave (n : Network) (i : Nat) : Network :=
  match n.connection? i with
  | none => n
  | some c => ⟨Hosted.leave ⟨c.session, n.server⟩, n.connections.set i none⟩

/-! ## Messages for everyone -/

/-- Whom a message for many is sent to in a tick. One that is encoded for each connection must not
reach a connection in another state; payloads that do for all are kept to their state where they are
queued. -/
def reaches : Broadcast → Session → Bool
  | .cached .., _ => true
  | .perConnection state _, s => state == s.state

/-- Sends to those connections of a list that it may reach, and collects the failures. -/
def sendToAll (registries : PerState OutboundRegistry) (may : Broadcast → Session → Bool)
    (b : Broadcast) : List (Option Connection) → List (Option Connection) × List CodecError
  | [] => ([], [])
  | none :: connections =>
    let (connections, failures) := sendToAll registries may b connections
    (none :: connections, failures)
  | some c :: connections =>
    let (others, failures) := sendToAll registries may b connections
    if may b c.session then
      match c.session.sendBroadcast registries b with
      | .ok session => (some { c with session } :: others, failures)
      | .error e => (some c :: others, e :: failures)
    else (some c :: others, failures)

/-- Sends the messages of a list one after the other. They are prepared for those who play. -/
def deliverAll (registries : PerState OutboundRegistry) (may : Broadcast → Session → Bool)
    (n : Network) : List Message → List Delivery × Network
  | [] => ([], n)
  | m :: messages =>
    match (registries.get .play).prepare m with
    | .error e =>
      let (deliveries, n) := deliverAll registries may n messages
      (⟨.error e, []⟩ :: deliveries, n)
    | .ok b =>
      let (connections, failures) := sendToAll registries may b n.connections
      let (deliveries, n) := deliverAll registries may { n with connections } messages
      (⟨.ok b, failures⟩ :: deliveries, n)

/-- Hands out the messages that wait for everyone to all connections that they may reach. -/
def deliverTo (registries : PerState OutboundRegistry) (may : Broadcast → Session → Bool)
    (n : Network) : List Delivery × Network :=
  let (messages, server) := n.server.takeBroadcasts
  deliverAll registries may { n with server } messages

/-- Pushes the messages that wait for everyone to all connections, outside of a tick and whatever
their states are. -/
def deliver (registries : PerState OutboundRegistry) (n : Network) : List Delivery × Network :=
  n.deliverTo registries fun _ _ => true

/-! ## Bytes and ticks -/

/-- A client has sent bytes. A session that cannot take them has closed itself. -/
def receive (protocols : Protocols Handler) (n : Network) (i : Nat) (bytes : Bytes) : Network :=
  match n.connection? i with
  | none => n
  | some c => (n.act i c fun server c => c.receive protocols server bytes).2

/-- A tick of the clock: messages for everyone go out, and a session that fails at keeping its
player alive closes. -/
def tick (registries : PerState OutboundRegistry) (n : Network) (now : Nat) : Network :=
  let (_, n) := n.deliverTo registries reaches
  let age (c : Connection) : Connection :=
    match c.session.tick registries n.server.config now with
    | (.ok (), session) => { c with session }
    | (.error _, session) => { c with session := session.close }
  { n with connections := n.connections.map (·.map age) }

/-- Whether a connection can go: it is closed, and nothing is left to write to it. -/
def isDone (n : Network) (i : Nat) : Bool :=
  (n.connection? i).any fun c => c.session.closing && c.session.outbound.isEmpty

/-- Lets go of the connections that are done, once their frames are written. -/
def dismiss (n : Network) : Network :=
  (List.range n.connections.length).foldl
    (fun n i => if n.isDone i then n.leave i else n) n

end Network

end VoxelServer
