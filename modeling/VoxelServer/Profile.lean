import VoxelServer.Config
import VoxelServer.Text.Blank
import VoxelServer.Uuid

/-!
# Player profiles

Names, identities and skins of players are kept by a remote service. It answers one request at a
time, and when it is asked too often it answers with an error to be tried again later.

* `Exchange`: the conversation with the service, its answers to come and what was done so far.
* `Lookup.byUuid`: the profile of an identity.
* `Lookup.uuidsByName`: the identities of names.
-/

namespace VoxelServer

structure ProfileProperty where
  name : String
  value : String
  signature : Option String
  deriving DecidableEq, Repr

structure GameProfile where
  uuid : Uuid
  name : String
  properties : List ProfileProperty
  deriving DecidableEq, Repr

inductive ProfileError
  | notFound (uuid : Uuid)
  /-- The service could not be asked. -/
  | unreachable
  /-- Every attempt was turned away. -/
  | exhausted (uuid : Uuid) (attempts : Nat)
  | malformedJson
  | malformedUuid
  deriving DecidableEq, Repr

/-- The name of the kind of failure. -/
def ProfileError.kind : ProfileError → String
  | notFound _ => "NotFound"
  | unreachable | exhausted .. => "Io"
  | malformedJson => "Json"
  | malformedUuid => "Uuid"

def ProfileError.message : ProfileError → String
  | notFound uuid => "no profile found for " ++ uuid.hyphenated
  | unreachable => "io: the service cannot be reached"
  | exhausted uuid attempts =>
    "io: no profile for " ++ uuid.hyphenated ++ s!" after {attempts} attempts"
  | malformedJson => "malformed profile response"
  | malformedUuid => "malformed uuid in profile response"

/-- What a lookup does to the world outside. -/
inductive LookupAction
  | get (url : String)
  | post (url body : String)
  | wait (seconds : Nat)
  deriving DecidableEq, Repr

/-- A conversation with the service. A missing answer, also one beyond the last, means that the
service could not be reached. -/
structure Exchange where
  replies : List (Option String)
  log : List LookupAction
  deriving DecidableEq, Repr

abbrev Lookup := ExceptT ProfileError (StateM Exchange)

namespace Lookup

/-- Does something that brings no answer. -/
def record (action : LookupAction) : Lookup Unit :=
  modify fun e => { e with log := e.log ++ [action] }

/-- Asks the service. -/
def ask (action : LookupAction) : Lookup String := do
  record action
  let e ← get
  set { e with replies := e.replies.tail }
  match e.replies.head? with
  | some (some body) => return body
  | _ => throw .unreachable

def profileUrl (config : ProfileConfig) (uuid : Uuid) (signed : Bool) : String :=
  config.sessionServer ++ "/session/minecraft/profile/" ++ uuid.simple ++
    (if signed then "?unsigned=false" else "")

/-- Whether the service asks to be left alone for a while. -/
def isRateLimited : Json → Bool
  | .object members => members.any (·.1 == some "error")
  | _ => false

/-- A text or a null. -/
def optionalText? : Json → Option (Option String)
  | .null => some none
  | value => some <$> value.text?

def property? (value : Json) : Option ProfileProperty := do
  match ← value.fields? ["name", "value", "signature"] with
  | [name, value, signature] =>
    return {
      name := ← Json.field? Json.text? name
      value := ← Json.field? Json.text? value
      signature := ← Json.fieldOr? optionalText? none signature }
  | _ => none

def properties? (value : Json) : Option (List ProfileProperty) := do
  (← value.array?).mapM property?

def profile? (uuid : Uuid) (value : Json) : Option GameProfile := do
  match ← value.fields? ["name", "properties"] with
  | [name, properties] =>
    return {
      uuid
      name := ← Json.field? Json.text? name
      properties := ← Json.fieldOr? properties? [] properties }
  | _ => none

/-- What an answer to a lookup by identity says: try again, or the outcome. -/
def readProfile (uuid : Uuid) (body : String) : Option (Except ProfileError GameProfile) :=
  if Text.trimBlank body == "" then some (.error (.notFound uuid))
  else match Json.parse? body >>= Json.strict? with
    | none => some (.error .malformedJson)
    | some value =>
      if isRateLimited value then none
      else match profile? uuid value with
        | some profile => some (.ok profile)
        | none => some (.error .malformedJson)

/-- Asks up to `left` times, with a pause between two requests. -/
def byUuidWithin (config : ProfileConfig) (uuid : Uuid) (url : String) :
    (left : Nat) → Lookup GameProfile
  | 0 => throw (.exhausted uuid config.maxAttempts)
  | left + 1 => do
    let body ← ask (.get url)
    match readProfile uuid body with
    | some (.ok profile) => return profile
    | some (.error e) => throw e
    | none =>
      if left ≠ 0 then record (.wait config.backoffSecs)
      byUuidWithin config uuid url left

/-- The profile of an identity, with signatures if asked for. -/
def byUuid (config : ProfileConfig) (uuid : Uuid) (signed : Bool) : Lookup GameProfile :=
  byUuidWithin config uuid (profileUrl config uuid signed) config.maxAttempts

/-- How many names one request may hold. -/
def namesPerRequest : Nat := 100

/-- Pieces of at most `size + 1` elements, in order. -/
def chunks {α : Type} (size : Nat) : List α → List (List α)
  | [] => []
  | a :: as => (a :: as.take size) :: chunks size (as.drop size)
termination_by as => as.length
decreasing_by simp only [List.length_drop, List.length_cons]; omega

def namesUrl (config : ProfileConfig) : String := config.apiServer ++ "/profiles/minecraft"

def entry? (value : Json) : Option (String × String) := do
  match ← value.fields? ["id", "name"] with
  | [id, name] => return (← Json.field? Json.text? id, ← Json.field? Json.text? name)
  | _ => none

/-- The pairs of identity and name in an answer. -/
def entries? (body : String) : Option (List (String × String)) := do
  (← (← Json.parse? body).array?).mapM entry?

/-- The findings with one more, which replaces that of the same name. -/
def insertFound (found : List (String × Uuid)) (name : String) (uuid : Uuid) :
    List (String × Uuid) :=
  found.filter (·.1 != name) ++ [(name, uuid)]

/-- The identities of all names the service knows. -/
def uuidsByName (config : ProfileConfig) (names : List String) :
    Lookup (List (String × Uuid)) :=
  (chunks (namesPerRequest - 1) names).foldlM
    (fun found batch => do
      let body ← ask (.post (namesUrl config) (Json.array (batch.map .text)).compact)
      let some entries := entries? body | throw .malformedJson
      entries.foldlM
        (fun found (id, name) =>
          match Uuid.parse? id with
          | some uuid => return insertFound found name uuid
          | none => throw .malformedUuid)
        found)
    []

end Lookup

end VoxelServer
