import VoxelServer.Protocol.Codec

/-!
# Registries

Which messages exist in one state and direction, under which opcodes, and who takes care of them.
Opcodes and message types are both unique, and a binding that would break this is refused.

* `Registry`: the bindings in order, with an index by opcode and one by message type; `H` is the
  type of what handles a message.
* `Registry.bind`, `Registry.bindHandler`, `Registry.bindProcessor`: add to it.
* `Registry.byOpcode?`, `Registry.byType?`, `Registry.processorsFor`: look up.
-/

namespace VoxelServer

structure Registry.Entry (H : Type) where
  opcode : Int32
  codec : Codec
  handler : Option H

structure Registry (H : Type) where
  state : ProtocolState
  direction : Direction
  /-- Which of the bindings has an opcode. The latest pair of a key counts. -/
  opcodes : List (Int32 × Nat)
  /-- Which of the bindings has a message type. -/
  types : List (MessageType × Nat)
  /-- The bindings, in the order in which they were made. -/
  entries : List (Registry.Entry H)
  /-- The processors of each type, in the order in which they were bound. -/
  pipelines : List (MessageType × List Processor)

/-- Two bindings that exclude each other. -/
inductive RegistryError
  | duplicateOpcode (state : ProtocolState) (direction : Direction) (opcode : Int32)
      (existing type : MessageType)
  | duplicateType (state : ProtocolState) (direction : Direction) (type : MessageType)
  deriving DecidableEq, Repr

/-- The name of the kind of conflict. -/
def RegistryError.kind : RegistryError → String
  | duplicateOpcode .. => "DuplicateOpcode"
  | duplicateType .. => "DuplicateType"

def RegistryError.message : RegistryError → String
  | duplicateOpcode state direction opcode existing type =>
    state.name ++ " " ++ direction.name ++ ": opcode " ++ hexOpcode opcode ++
      " is already bound to " ++ existing.path ++ ", cannot bind " ++ type.path
  | duplicateType state direction type =>
    state.name ++ " " ++ direction.name ++ ": " ++ type.path ++ " is already registered"

/-- Programs that add to a registry and may be refused. -/
abbrev RegistryM (H : Type) := ExceptT RegistryError (StateM (Registry H))

namespace Registry

variable {H : Type}

def empty (state : ProtocolState) (direction : Direction) : Registry H :=
  ⟨state, direction, [], [], [], []⟩

def byOpcode? (r : Registry H) (opcode : Int32) : Option (Entry H) := do
  let i ← r.opcodes.lookup opcode
  r.entries[i]?

def byType? (r : Registry H) (type : MessageType) : Option (Entry H) := do
  let i ← r.types.lookup type
  r.entries[i]?

def opcodeOf? (r : Registry H) (type : MessageType) : Option Int32 :=
  Entry.opcode <$> r.byType? type

def typeAt? (r : Registry H) (opcode : Int32) : Option MessageType :=
  (·.codec.type) <$> r.byOpcode? opcode

def contains (r : Registry H) (type : MessageType) : Bool := (r.types.lookup type).isSome

def isCaching (r : Registry H) (type : MessageType) : Bool :=
  match r.byType? type with
  | some entry => entry.codec.caching
  | none => false

/-- The number of bindings. -/
def len (r : Registry H) : Nat := r.entries.length

/-- The processors of a type, in the order in which they were bound. -/
def processorsFor (r : Registry H) (type : MessageType) : List Processor :=
  (r.pipelines.lookup type).getD []

def hasProcessors (r : Registry H) (type : MessageType) : Bool :=
  !(r.processorsFor type).isEmpty

/-- The processors of all types. -/
def processors (r : Registry H) : List Processor := r.pipelines.flatMap Prod.snd

/-- One more binding. A taken opcode is found before a taken type. -/
def insert (opcode : Int32) (codec : Codec) (handler : Option H) : RegistryM H Unit := do
  let r ← get
  match r.byOpcode? opcode with
  | some existing =>
    throw (.duplicateOpcode r.state r.direction opcode existing.codec.type codec.type)
  | none =>
    if r.contains codec.type then throw (.duplicateType r.state r.direction codec.type)
    else
      let i := r.entries.length
      modify fun r => { r with entries := r.entries ++ [⟨opcode, codec, handler⟩] }
      modify fun r => { r with opcodes := (opcode, i) :: r.opcodes }
      modify fun r => { r with types := (codec.type, i) :: r.types }

/-- Binds a message that nobody handles. -/
def bind (opcode : Int32) (codec : Codec) : RegistryM H Unit := insert opcode codec none

def bindHandler (opcode : Int32) (codec : Codec) (handler : H) : RegistryM H Unit :=
  insert opcode codec (some handler)

/-- The pipelines with one more processor at the end of that of its type, which may be new. -/
def addProcessor (p : Processor) :
    List (MessageType × List Processor) → List (MessageType × List Processor)
  | [] => [(p.type, [p])]
  | (type, processors) :: pipelines =>
    if type == p.type then (type, processors ++ [p]) :: pipelines
    else (type, processors) :: addProcessor p pipelines

/-- The processors of one type run in the order in which they were bound. -/
def bindProcessor (r : Registry H) (p : Processor) : Registry H :=
  { r with pipelines := addProcessor p r.pipelines }

end Registry

end VoxelServer
