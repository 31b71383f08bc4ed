/-!
# JSON values

* `Json`: what a JSON text says. A string whose escapes do not make up text has no content, and
  an object keeps its members as they came.
* `Json.compact`: the shortest text of a value, members in the order given.
-/

namespace VoxelServer

inductive Json
  | null
  | bool (value : Bool)
  /-- A number without fraction and exponent. -/
  | integer (value : Int)
  /-- Any other number: `mantissa` times ten to the `exponent`. -/
  | decimal (mantissa exponent : Int)
  | string (content : Option String)
  | array (elements : List Json)
  | object (members : List (Option String × Json))
  deriving Repr, Inhabited

namespace Json

def text (content : String) : Json := string (some content)

/-- An object with these members. -/
def record (members : List (String × Json)) : Json :=
  object (members.map fun (name, value) => (some name, value))

/-- The escape of a character that may not stand for itself. -/
def escapeChar (c : Char) : String :=
  if c == '"' then "\\\""
  else if c == '\\' then "\\\\"
  else if c == '\n' then "\\n"
  else if c == '\r' then "\\r"
  else if c == '\t' then "\\t"
  else if c.toNat == 8 then "\\b"
  else if c.toNat == 12 then "\\f"
  else if c.toNat < 0x20 then
    "\\u00" ++ String.ofList [Nat.digitChar (c.toNat / 16), Nat.digitChar (c.toNat % 16)]
  else c.toString

def quote (content : String) : String :=
  "\"" ++ String.join (content.toList.map escapeChar) ++ "\""

mutual

def compact : Json → String
  | null => "null"
  | bool true => "true"
  | bool false => "false"
  | integer value => toString value
  | decimal mantissa exponent => toString mantissa ++ "e" ++ toString exponent
  | string content => quote (content.getD "")
  | array elements => "[" ++ compactElements elements ++ "]"
  | object members => "\x7b" ++ compactMembers members ++ "\x7d"

def compactElements : List Json → String
  | [] => ""
  | [value] => compact value
  | value :: values => compact value ++ "," ++ compactElements values

def compactMembers : List (Option String × Json) → String
  | [] => ""
  | [(name, value)] => quote (name.getD "") ++ ":" ++ compact value
  | (name, value) :: members =>
    quote (name.getD "") ++ ":" ++ compact value ++ "," ++ compactMembers members

end

end Json

end VoxelServer
