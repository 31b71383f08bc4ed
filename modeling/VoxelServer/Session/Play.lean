import VoxelServer.Inventory.Reply
import VoxelServer.Session.Hosted
import VoxelServer.Text.Blank

/-!
# Playing

What the messages of a player do. Without a player they do nothing.

* `handleChat`: says something to everyone.
* `handleClick`, `handleCreative`, `handleCloseWindow`: change the inventory.
* `handleMove`, `handleSettings`, `handleKeepAlive`: keep the player up to date.
-/

namespace VoxelServer

/-- The character that starts formatting codes. -/
def formattingMark : Char := '\u00a7'

/-- Characters that clients cannot type. -/
def isIllegalInChat (c : Char) : Bool := c == formattingMark || Text.isControl c

/-- Runs a program for the player, if there is one. -/
def withPlayer (run : Player → SessionM Unit) : SessionM Unit := do
  match (← get).session.player with
  | none => return
  | some player => run player

/-- Posts what a player said, and broadcasts it if no listener objects. -/
def sayAs (player : Player) (message : String) : SessionM Unit := do
  let (e, server) := (← get).server.postChat
    { sender := player.name, message, cancelled := false }
  SessionM.modifyServer fun _ =>
    if e.cancelled then server
    else server.broadcast (.chatMessage (.ofPlayer e.sender e.message))

/-- Blanks around what a player says are dropped. -/
def handleChat (text : String) : SessionM Unit :=
  withPlayer fun player => do
    let message := Text.trimBlank text
    if message.isEmpty then return
    else if message.toList.any isIllegalInChat then SessionM.kick "Illegal characters in chat"
    else sayAs player message

/-- Takes over what a click made of the inventory, notes its event, and answers. -/
def settle {E : Type} (result : Except CodecError (Outcome E)) (toEvent : E → Event) :
    SessionM Unit :=
  match result with
  | .error e => SessionM.refuse e
  | .ok outcome => do
    SessionM.modifyPlayer fun player => { player with inventory := outcome.inventory }
    match outcome.event with
    | none => pure ()
    | some e => SessionM.modifyServer (·.record (toEvent e))
    SessionM.sendAll (outcome.replies.map Reply.message)

def handleClick (m : ClickWindow) : SessionM Unit :=
  withPlayer fun player => do
    let server := (← get).server
    let post := server.listeners.click server.events
    settle (player.inventory.click post m (player.gameMode == .creative)) .click

/-- Only players in creative mode have an unlimited supply. -/
def handleCreative (m : CreativeInventoryAction) : SessionM Unit :=
  withPlayer fun player => do
    if player.gameMode != .creative then
      SessionM.kick "Creative inventory actions outside of creative mode"
    else
      let server := (← get).server
      let post := server.listeners.creative server.events
      settle (player.inventory.creative post m) .creative

/-- Closes a window. What was on the cursor is gone. -/
def handleCloseWindow (windowId : UInt8) : SessionM Unit :=
  SessionM.modifyPlayer fun player =>
    { player with inventory := (player.inventory.closeWindow windowId).2 }

def minViewDistance : Int8 := 2

def maxViewDistance : Int8 := 32

def handleSettings (m : ClientSettings) : SessionM Unit :=
  SessionM.modifyPlayer fun player =>
    { player with
      viewDistance := (min (max m.viewDistance minViewDistance) maxViewDistance).toUInt8 }

/-- What a movement message leaves out stays as it was. -/
def handleMove (position : Option (Vec3 Double)) (look : Option Look) (onGround : Bool) :
    SessionM Unit :=
  SessionM.modifyPlayer fun player =>
    { player with
      position := position.getD player.position
      look := look.getD player.look
      onGround }

def handleKeepAlive (id : Int32) : SessionM Unit :=
  SessionM.modifySession (·.acknowledge id)

end VoxelServer
