import VoxelServer.Config
import VoxelServer.Message.Basic
import VoxelServer.Server.Event

/-!
# Servers

What all connections share: the configuration, the number of players, the numbers of entities,
the messages for everyone, and the events so far.

* `Server`: the type; `Server.start` is a server before its first connection.
-/

namespace VoxelServer

structure Server where
  config : Config
  listeners : Listeners
  /-- How many players there are. -/
  online : Nat
  nextEntityId : Int32
  /-- Messages for every player, the oldest first. -/
  broadcasts : List Message
  /-- All events so far, as the listeners have left them, the oldest first. -/
  events : List Event

namespace Server

def start (config : Config) (listeners : Listeners) : Server where
  config := config
  listeners := listeners
  online := 0
  nextEntityId := 1
  broadcasts := []
  events := []

def isFull (server : Server) : Bool := server.online ≥ server.config.maxPlayers

/-- One player more. -/
def joined (server : Server) : Server := { server with online := server.online + 1 }

/-- One player less. -/
def left (server : Server) : Server := { server with online := server.online - 1 }

/-- A number for a new entity. -/
def takeEntityId (server : Server) : Int32 × Server :=
  (server.nextEntityId, { server with nextEntityId := server.nextEntityId + 1 })

def broadcast (server : Server) (m : Message) : Server :=
  { server with broadcasts := server.broadcasts ++ [m] }

/-- The messages that wait for everyone, which nobody gets twice. -/
def takeBroadcasts (server : Server) : List Message × Server :=
  (server.broadcasts, { server with broadcasts := [] })

def record (server : Server) (e : Event) : Server :=
  { server with events := server.events ++ [e] }

def postJoin (server : Server) (e : JoinEvent) : Server :=
  server.record (.join (server.listeners.join server.events e))

/-- What the listeners make of a chat message. -/
def postChat (server : Server) (e : ChatEvent) : ChatEvent × Server :=
  let e := server.listeners.chat server.events e
  (e, server.record (.chat e))

end Server

end VoxelServer
