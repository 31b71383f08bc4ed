import VoxelServer.Message.RegistrySync
import VoxelServer.Particle.Expand
import VoxelServer.Protocol.Codec

/-!
# The processors

The two requests of game code that have no form of their own on the wire.

* `Processor.particles`: an effect becomes the messages that draw it.
* `Processor.registries`: registry data becomes traffic on a plugin channel.
-/

namespace VoxelServer

namespace Processor

/-- Draws effects, the same way for everyone. -/
def particles : Processor where
  type := .particleEffect
  caching := true
  process _
    | .particleEffect effect => (·.map .spawnParticle) <$> effect.expand
    | m => .error (.invalid (.noCodec m.type))

/-- Sends registries, payload by payload. -/
def registries : Processor where
  type := .registryData
  caching := false
  process _
    | .registryData entries => (·.map .channelPayload) <$> registryPayloads entries
    | m => .error (.invalid (.noCodec m.type))

end Processor

end VoxelServer
