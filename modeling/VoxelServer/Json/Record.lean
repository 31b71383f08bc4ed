import VoxelServer.Json.Reader

/-!
# Records in JSON

How a value of known shape is read from JSON: numbers in the range of their field, strings that
are text, and records either as objects or as arrays of their fields in order.

* `Json.fields?`: the fields of a record, each given or not.
* `Json.strict?`: the stricter reading of values of unknown shape.
-/

namespace VoxelServer.Json

def text? : Json → Option String
  | string content => content
  | _ => none

def bool? : Json → Option Bool
  | bool value => some value
  | _ => none

/-- A whole number from `low` to `high`. -/
def integerIn? (low high : Int) : Json → Option Int
  | integer value => if low ≤ value && value ≤ high then some value else none
  | _ => none

/-- A whole number of at most `width` bits. -/
def natBelow? (width : Nat) (value : Json) : Option Nat :=
  Int.toNat <$> value.integerIn? 0 (Int.ofNat (1 <<< width) - 1)

def array? : Json → Option (List Json)
  | array elements => some elements
  | _ => none

/-- The one value under a name, which may be missing but not be given twice. -/
def member? (members : List (Option String × Json)) (name : String) : Option (Option Json) :=
  match members.filter (·.1 == some name) with
  | [] => some none
  | [(_, value)] => some (some value)
  | _ => none

/-- The values of a record's fields. An object may have other members too, whose names must be
text; an array may be shorter than the record but not longer. -/
def fields? (names : List String) : Json → Option (List (Option Json))
  | object members =>
    if members.all (·.1.isSome) then names.mapM (member? members) else none
  | array elements =>
    if elements.length ≤ names.length then
      some (elements.map some ++ List.replicate (names.length - elements.length) none)
    else none
  | _ => none

/-- A field that takes a default when it is missing. -/
def fieldOr? {α : Type} (read : Json → Option α) (default : α) : Option Json → Option α
  | none => some default
  | some value => read value

/-- A field that must be given. -/
def field? {α : Type} (read : Json → Option α) : Option Json → Option α
  | none => none
  | some value => read value

/-- Whether a decimal has a place among the 64-bit binary floats. Halfway beyond the largest is
too large. -/
def isFinite (mantissa exponent : Int) : Bool :=
  let magnitude := mantissa.natAbs
  let digits := (Nat.toDigits 10 magnitude).length
  if magnitude == 0 || exponent + digits < 300 then true
  else if exponent + digits > 320 then false
  else
    let bound := (1 <<< 1024) - (1 <<< 970)
    if exponent ≥ 0 then magnitude * Nat.pow 10 exponent.toNat < bound
    else magnitude < bound * Nat.pow 10 (-exponent).toNat

/-- The entries with the last of several under one name. -/
def lastWins : List (String × Json) → List (String × Json)
  | [] => []
  | (name, value) :: rest =>
    if rest.any (·.1 == name) then lastWins rest else (name, value) :: lastWins rest

mutual

/-- A value of unknown shape with at most `levels` arrays and objects in each other. All strings
are text and all numbers have a place among the floats; of members with one name the last
counts. -/
def strictWithin? (levels : Nat) : Json → Option Json
  | null => some null
  | bool value => some (bool value)
  | integer value => if isFinite value 0 then some (integer value) else none
  | decimal mantissa exponent =>
    if isFinite mantissa exponent then some (decimal mantissa exponent) else none
  | string none => none
  | string (some content) => some (text content)
  | array elements =>
    if levels == 0 then none else array <$> strictElements? (levels - 1) elements
  | object members =>
    if levels == 0 then none
    else (record ∘ lastWins) <$> strictMembers? (levels - 1) members

def strictElements? (levels : Nat) : List Json → Option (List Json)
  | [] => some []
  | value :: values => do
    let value ← strictWithin? levels value
    let values ← strictElements? levels values
    return value :: values

def strictMembers? (levels : Nat) :
    List (Option String × Json) → Option (List (String × Json))
  | [] => some []
  | (name, value) :: members => do
    let name ← name
    let value ← strictWithin? levels value
    let members ← strictMembers? levels members
    return (name, value) :: members

end

/-- The most arrays and objects a value of unknown shape may nest. -/
def maxLevels : Nat := 127

def strict? (value : Json) : Option Json := strictWithin? maxLevels value

end VoxelServer.Json
