import VoxelServer.Binary
import VoxelServer.Bytes
import VoxelServer.Config
import VoxelServer.Digest.ChaCha
import VoxelServer.Digest.Md5
import VoxelServer.Digest.SipHash
import VoxelServer.Frame
import VoxelServer.GameMode
import VoxelServer.Inventory.Basic
import VoxelServer.Inventory.Click
import VoxelServer.Inventory.Container
import VoxelServer.Inventory.Drag
import VoxelServer.Inventory.Event
import VoxelServer.Inventory.Reply
import VoxelServer.Inventory.Transaction
import VoxelServer.Item
import VoxelServer.Json.Reader
import VoxelServer.Json.Record
import VoxelServer.Json.Value
import VoxelServer.Main
import VoxelServer.Message.Basic
import VoxelServer.Message.Chat
import VoxelServer.Message.Codec
import VoxelServer.Message.RegistrySync
import VoxelServer.Message.Type
import VoxelServer.Nbt.Extent
import VoxelServer.Nbt.Reader
import VoxelServer.Nbt.Value
import VoxelServer.Nbt.Writer
import VoxelServer.Particle.Effect
import VoxelServer.Particle.Expand
import VoxelServer.Particle.Kind
import VoxelServer.Profile
import VoxelServer.Proofs.Computations
import VoxelServer.Proofs.Frame.Feeding
import VoxelServer.Proofs.Frame.Reader
import VoxelServer.Proofs.Frame.RoundTrip
import VoxelServer.Proofs.Frame.Soundness
import VoxelServer.Proofs.Frame.Stream
import VoxelServer.Proofs.Inventory.Clicks
import VoxelServer.Proofs.Inventory.Contents
import VoxelServer.Proofs.Inventory.Describing
import VoxelServer.Proofs.Inventory.Drags
import VoxelServer.Proofs.Inventory.Filling
import VoxelServer.Proofs.Inventory.Gathering
import VoxelServer.Proofs.Inventory.Holdings
import VoxelServer.Proofs.Inventory.Mirroring
import VoxelServer.Proofs.Inventory.Moving
import VoxelServer.Proofs.Inventory.Resync
import VoxelServer.Proofs.Inventory.Sharing
import VoxelServer.Proofs.Inventory.Solid
import VoxelServer.Proofs.Inventory.Supply
import VoxelServer.Proofs.Inventory.Transactions
import VoxelServer.Proofs.Inventory.Turns
import VoxelServer.Proofs.Inventory.Uncovering
import VoxelServer.Proofs.Inventory.Windows
import VoxelServer.Proofs.Item.Similar
import VoxelServer.Proofs.Json.RoundTrip
import VoxelServer.Proofs.Message.RegistrySync
import VoxelServer.Proofs.Message.RoundTrip
import VoxelServer.Proofs.Message.Writing
import VoxelServer.Proofs.Nbt.Effort
import VoxelServer.Proofs.Nbt.Extent
import VoxelServer.Proofs.Nbt.Grammar
import VoxelServer.Proofs.Nbt.RoundTrip
import VoxelServer.Proofs.Particle.Expansion
import VoxelServer.Proofs.Particle.Items
import VoxelServer.Proofs.Profile.Retries
import VoxelServer.Proofs.Protocol.Bindings
import VoxelServer.Proofs.Protocol.Broadcasting
import VoxelServer.Proofs.Protocol.Opcodes
import VoxelServer.Proofs.Protocol.Reading
import VoxelServer.Proofs.Protocol.Tables
import VoxelServer.Proofs.Session.Admission
import VoxelServer.Proofs.Session.Buffering
import VoxelServer.Proofs.Session.Census
import VoxelServer.Proofs.Session.Chunking
import VoxelServer.Proofs.Session.Closing
import VoxelServer.Proofs.Session.Delivery
import VoxelServer.Proofs.Session.Entrance
import VoxelServer.Proofs.Session.Forwarding
import VoxelServer.Proofs.Session.Handling
import VoxelServer.Proofs.Session.Lull
import VoxelServer.Proofs.Session.Pacing
import VoxelServer.Proofs.Session.Punctual
import VoxelServer.Proofs.Session.Sending
import VoxelServer.Proofs.Session.Status
import VoxelServer.Proofs.Session.Ticks
import VoxelServer.Proofs.SlotMap.FreeSlots
import VoxelServer.Proofs.SlotMap.History
import VoxelServer.Proofs.SlotMap.Visits
import VoxelServer.Proofs.Text.Dialect
import VoxelServer.Proofs.Text.Plain
import VoxelServer.Proofs.Wire.Composite
import VoxelServer.Proofs.Wire.Consuming
import VoxelServer.Proofs.Wire.Delimiting
import VoxelServer.Proofs.Wire.Numeral
import VoxelServer.Proofs.Wire.Packing
import VoxelServer.Proofs.Wire.Prefixes
import VoxelServer.Proofs.Wire.Reads
import VoxelServer.Proofs.Wire.Shortest
import VoxelServer.Proofs.Wire.VarNum
import VoxelServer.Proofs.World.Arrays
import VoxelServer.Proofs.World.Chains
import VoxelServer.Proofs.World.Composition
import VoxelServer.Proofs.World.Copies
import VoxelServer.Proofs.World.Folding
import VoxelServer.Proofs.World.Rigid
import VoxelServer.Proofs.World.Storage
import VoxelServer.Proofs.World.Views
import VoxelServer.Proofs.World.Walks
import VoxelServer.Proofs.World.Workers
import VoxelServer.Proofs.World.Writes
import VoxelServer.Protocol.Codec
import VoxelServer.Protocol.Outbound
import VoxelServer.Protocol.Processors
import VoxelServer.Protocol.Registry
import VoxelServer.Protocol.State
import VoxelServer.Server.Basic
import VoxelServer.Server.Event
import VoxelServer.Session.Basic
import VoxelServer.Session.Client
import VoxelServer.Session.Connection
import VoxelServer.Session.Hosted
import VoxelServer.Session.Login
import VoxelServer.Session.Network
import VoxelServer.Session.Opening
import VoxelServer.Session.Play
import VoxelServer.Session.Player
import VoxelServer.Session.Protocols
import VoxelServer.SlotMap
import VoxelServer.Text.Blank
import VoxelServer.Text.ModifiedUtf8
import VoxelServer.Text.Utf8
import VoxelServer.Uuid
import VoxelServer.Vec
import VoxelServer.Wire.BlockPosition
import VoxelServer.Wire.Composite
import VoxelServer.Wire.Decoder
import VoxelServer.Wire.Error
import VoxelServer.Wire.Number
import VoxelServer.Wire.Slot
import VoxelServer.Wire.Text
import VoxelServer.World.Block
import VoxelServer.World.Coord
import VoxelServer.World.Transform2
import VoxelServer.World.Transform3
import VoxelServer.World.Volume
import VoxelServer.World.Worker
import VoxelServer.Zlib.Adler
import VoxelServer.Zlib.BitStream
import VoxelServer.Zlib.Deflate
import VoxelServer.Zlib.Inflate
import VoxelServer.Zlib.PrefixCode
