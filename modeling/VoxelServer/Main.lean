import VoxelServer.Session.Network
import VoxelServer.Session.Protocols

/-!
# The program

Serves one client over the standard streams, the way a super-server hands a connection to a
program. The only argument, if there is one, is the text of the configuration.
-/

namespace VoxelServer

/-- A tick in milliseconds. -/
def tickLength : UInt32 := 50

/-- How much is read at once. -/
def readLength : USize := 65536

/-- Serves the connection with number 0 until it is gone. -/
def serveConnection (config : Config) (input output : IO.FS.Stream) : IO Unit := do
  let protocols := Protocols.game
  let mut network := (Network.start config .acceptAll).accept
  let mut reading ← IO.asTask (input.read readLength)
  let mut now := 0
  while (network.connection? 0).isSome do
    IO.sleep tickLength
    if ← IO.hasFinished reading then
      let bytes ← IO.ofExcept reading.get
      if bytes.isEmpty then network := network.leave 0
      else
        network := network.receive protocols 0 bytes.toList
        reading ← IO.asTask (input.read readLength)
    now := now + 1
    network := network.tick protocols.outbound now
    let (frames, drained) := network.takeOutbound 0
    network := drained
    for frame in frames do output.write ⟨frame.toArray⟩
    output.flush
    network := network.dismiss

/-- The settings the arguments give. -/
def configOfArgs : List String → Except ConfigError Config
  | [] => .ok {}
  | text :: _ => Config.load (some (Utf8.encode text))

end VoxelServer

open VoxelServer in
def main (args : List String) : IO UInt32 := do
  match configOfArgs args with
  | .ok config =>
    serveConnection config (← IO.getStdin) (← IO.getStdout)
    return 0
  | .error e =>
    IO.eprintln ("the configuration cannot be read: " ++ e.kind)
    return 1
