import VoxelServer.Message.Basic
import VoxelServer.Wire.Composite
import VoxelServer.Wire.Error
import VoxelServer.Wire.Text

/-!
# Synchronizing registries

A modded client has to agree with the server on the numbers of blocks and items. They travel on a
plugin channel, one payload per registry, and each payload says whether another one follows.

* `RegistryEntry.payload`: the payload of one registry.
* `registryPayloads`: the payloads of all of them.
-/

namespace VoxelServer

/-- The plugin channel that modded clients and servers set up their game on. -/
def setupChannel : String := "FML|HS"

/-- The first byte of a payload that carries a registry. -/
def registryDiscriminator : UInt8 := 3

/-- The elements behind their number. -/
def encodeCounted {α : Type} (encode : α → Bytes) (elements : List α) : Bytes :=
  Wire.encode (VarInt.ofLength elements.length) ++ elements.flatMap encode

namespace RegistryEntry

/-- The bytes of a registry, with a flag that more registries follow. -/
def encode (entry : RegistryEntry) (moreFollow : Bool) : Bytes :=
  registryDiscriminator :: Wire.encode (moreFollow, entry.name) ++
    encodeCounted (fun (name, id) => Wire.encode (name, VarInt.mk id)) entry.ids ++
    encodeCounted Wire.encode entry.substitutions ++
    encodeCounted Wire.encode entry.dummied

def payload (entry : RegistryEntry) (moreFollow : Bool) : ChannelPayload :=
  ⟨setupChannel, entry.encode moreFollow⟩

/-- The payloads of some registries. All but the last say that more follow. -/
def payloads : List RegistryEntry → List ChannelPayload
  | [] => []
  | entry :: entries => entry.payload (!entries.isEmpty) :: payloads entries

end RegistryEntry

/-- The payloads of all registries. A client waits for the last one, so there has to be one. -/
def registryPayloads (entries : List RegistryEntry) : Except CodecError (List ChannelPayload) :=
  if entries.isEmpty then .error (.invalid .emptyRegistryData)
  else .ok (RegistryEntry.payloads entries)

end VoxelServer
