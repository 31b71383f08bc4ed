import VoxelServer.Json.Record
import VoxelServer.Text.Utf8

/-!
# Configuration

The settings of a server, read from a JSON text. Every setting has a default.

* `Config`, `ProfileConfig`: the settings.
* `Config.load`: the settings in the content of a file.
* `Config.toJson`: all settings, in order.
-/

namespace VoxelServer

/-- How player profiles are looked up. -/
structure ProfileConfig where
  sessionServer : String := "https://sessionserver.mojang.com"
  apiServer : String := "https://api.mojang.com"
  maxAttempts : Nat := 6
  backoffSecs : Nat := 10
  timeoutSecs : Nat := 10
  deriving DecidableEq, Repr, Inhabited

structure Config where
  bind : String := "0.0.0.0:25565"
  motd : String := "A cubeserv server"
  maxPlayers : Nat := 20
  /-- Payloads at least this long are compressed. A negative value turns compression off. -/
  compressionThreshold : Int32 := 256
  maxFrameLength : Nat := 2 * 1024 * 1024
  /-- In ticks, like the timeout. -/
  keepAliveInterval : Nat := 100
  /-- How long past the interval a player may go without acknowledging a keep-alive. -/
  keepAliveTimeout : Nat := 100
  onlineMode : Bool := false
  profile : ProfileConfig := {}
  deriving DecidableEq, Repr, Inhabited

namespace ProfileConfig

def fieldNames : List String :=
  ["session-server", "api-server", "max-attempts", "backoff-secs", "timeout-secs"]

def toJson (c : ProfileConfig) : Json :=
  .record (fieldNames.zip
    [.text c.sessionServer, .text c.apiServer, .integer c.maxAttempts, .integer c.backoffSecs,
      .integer c.timeoutSecs])

def ofJson? (value : Json) : Option ProfileConfig := do
  let d : ProfileConfig := {}
  match ← value.fields? fieldNames with
  | [sessionServer, apiServer, maxAttempts, backoffSecs, timeoutSecs] =>
    return {
      sessionServer := ← Json.fieldOr? Json.text? d.sessionServer sessionServer
      apiServer := ← Json.fieldOr? Json.text? d.apiServer apiServer
      maxAttempts := ← Json.fieldOr? (Json.natBelow? 32) d.maxAttempts maxAttempts
      backoffSecs := ← Json.fieldOr? (Json.natBelow? 64) d.backoffSecs backoffSecs
      timeoutSecs := ← Json.fieldOr? (Json.natBelow? 64) d.timeoutSecs timeoutSecs }
  | _ => none

end ProfileConfig

/-- Why a configuration could not be loaded. -/
inductive ConfigError
  | unreadable
  | malformed
  deriving DecidableEq, Repr

/-- The name of the kind of failure. -/
def ConfigError.kind : ConfigError → String
  | unreadable => "Io"
  | malformed => "Json"

namespace Config

def fieldNames : List String :=
  ["bind", "motd", "max-players", "compression-threshold", "max-frame-length",
    "keep-alive-interval", "keep-alive-timeout", "online-mode", "profile"]

def toJson (c : Config) : Json :=
  .record (fieldNames.zip
    [.text c.bind, .text c.motd, .integer c.maxPlayers, .integer c.compressionThreshold.toInt,
      .integer c.maxFrameLength, .integer c.keepAliveInterval, .integer c.keepAliveTimeout,
      .bool c.onlineMode, c.profile.toJson])

def threshold? (value : Json) : Option Int32 :=
  Int32.ofInt <$> value.integerIn? Int32.minValue.toInt Int32.maxValue.toInt

def ofJson? (value : Json) : Option Config := do
  let d : Config := {}
  match ← value.fields? fieldNames with
  | [bind, motd, maxPlayers, threshold, maxFrameLength, interval, timeout, onlineMode, profile] =>
    return {
      bind := ← Json.fieldOr? Json.text? d.bind bind
      motd := ← Json.fieldOr? Json.text? d.motd motd
      maxPlayers := ← Json.fieldOr? (Json.natBelow? 32) d.maxPlayers maxPlayers
      compressionThreshold := ← Json.fieldOr? threshold? d.compressionThreshold threshold
      maxFrameLength := ← Json.fieldOr? (Json.natBelow? 64) d.maxFrameLength maxFrameLength
      keepAliveInterval := ← Json.fieldOr? (Json.natBelow? 64) d.keepAliveInterval interval
      keepAliveTimeout := ← Json.fieldOr? (Json.natBelow? 64) d.keepAliveTimeout timeout
      onlineMode := ← Json.fieldOr? Json.bool? d.onlineMode onlineMode
      profile := ← Json.fieldOr? ProfileConfig.ofJson? d.profile profile }
  | _ => none

/-- The settings in the content of a file, none if the file could not be read. -/
def load (content : Option Bytes) : Except ConfigError Config :=
  match content with
  | none => .error .unreadable
  | some bytes =>
    match Utf8.decode bytes with
    | .error _ => .error .unreadable
    | .ok text =>
      match Json.parse? text >>= ofJson? with
      | some config => .ok config
      | none => .error .malformed

end Config

end VoxelServer
