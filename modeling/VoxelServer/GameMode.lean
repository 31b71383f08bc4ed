/-!
# Game modes

How a player takes part in the game, and the number that stands for it on the wire.
-/

namespace VoxelServer

inductive GameMode
  | survival
  | creative
  | adventure
  | spectator
  deriving DecidableEq, Repr, Inhabited

namespace GameMode

def all : List GameMode := [survival, creative, adventure, spectator]

def name : GameMode → String
  | survival => "Survival"
  | creative => "Creative"
  | adventure => "Adventure"
  | spectator => "Spectator"

def netId : GameMode → UInt8
  | survival => 0
  | creative => 1
  | adventure => 2
  | spectator => 3

end GameMode

end VoxelServer
