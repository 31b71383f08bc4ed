/-!
# Protocol states

A connection speaks one of four sub-protocols at a time and moves between them along a fixed
graph.

* `ProtocolState.canMoveTo`: the graph.
* `ProtocolState.ofHandshake?`: the state a client asks for when it connects.
-/

namespace VoxelServer

/-- The sub-protocol a connection is speaking. -/
inductive ProtocolState
  | handshake
  | status
  | login
  | play
  deriving DecidableEq, Repr, Inhabited

namespace ProtocolState

def all : List ProtocolState := [handshake, status, login, play]

def name : ProtocolState → String
  | handshake => "Handshake"
  | status => "Status"
  | login => "Login"
  | play => "Play"

/-- The state named by the last field of a handshake. -/
def ofHandshake? (next : Int32) : Option ProtocolState :=
  if next == 1 then some status else if next == 2 then some login else none

def canMoveTo : ProtocolState → ProtocolState → Bool
  | handshake, status | handshake, login | login, play | play, play => true
  | _, _ => false

end ProtocolState

/-- Whether messages come from the client or go to it. -/
inductive Direction
  | inbound
  | outbound
  deriving DecidableEq, Repr, Inhabited

def Direction.name : Direction → String
  | inbound => "Inbound"
  | outbound => "Outbound"

/-- One value per protocol state. -/
structure PerState (α : Type) where
  handshake : α
  status : α
  login : α
  play : α

namespace PerState

variable {α : Type}

def of (f : ProtocolState → α) : PerState α :=
  ⟨f .handshake, f .status, f .login, f .play⟩

def get (values : PerState α) : ProtocolState → α
  | .handshake => values.handshake
  | .status => values.status
  | .login => values.login
  | .play => values.play

def set (values : PerState α) (state : ProtocolState) (value : α) : PerState α :=
  match state with
  | .handshake => { values with handshake := value }
  | .status => { values with status := value }
  | .login => { values with login := value }
  | .play => { values with play := value }

@[simp] theorem get_of (f : ProtocolState → α) (state : ProtocolState) :
    (of f).get state = f state := by
  cases state <;> rfl

@[simp] theorem get_set (values : PerState α) (s t : ProtocolState) (value : α) :
    (values.set s value).get t = if t = s then value else values.get t := by
  cases s <;> cases t <;> rfl

end PerState

end VoxelServer
