import VoxelServer.Bytes
import VoxelServer.Json.Value

/-!
# Reading JSON

The grammar alone: any text that follows it is read, however deep it nests and however large its
numbers are.

* `Json.parse?`: the value of a text.
-/

namespace VoxelServer.Json

def isSpace (c : Char) : Bool := c == ' ' || c == '\t' || c == '\n' || c == '\r'

def skipSpace (cs : List Char) : List Char := cs.dropWhile isSpace

/-- What a single letter after a backslash stands for. -/
def simpleEscape? (c : Char) : Option Nat :=
  match c with
  | '"' => some 0x22
  | '\\' => some 0x5C
  | '/' => some 0x2F
  | 'b' => some 8
  | 'f' => some 12
  | 'n' => some 10
  | 'r' => some 13
  | 't' => some 9
  | _ => none

/-- The code points of a string up to its closing quote. An escape may give half a pair of
surrogates. -/
def readUnits : List Char → Option (List Nat × List Char)
  | '"' :: rest => some ([], rest)
  | '\\' :: 'u' :: a :: b :: c :: d :: rest => do
    let unit ← Bytes.hexNumber? [a, b, c, d]
    let (units, rest) ← readUnits rest
    return (unit :: units, rest)
  | '\\' :: e :: rest => do
    let unit ← simpleEscape? e
    let (units, rest) ← readUnits rest
    return (unit :: units, rest)
  | c :: rest =>
    if c.toNat < 0x20 || c == '\\' then none
    else do
      let (units, rest) ← readUnits rest
      return (c.toNat :: units, rest)
  | [] => none

def isHigh (unit : Nat) : Bool := 0xD800 ≤ unit && unit < 0xDC00

def isLow (unit : Nat) : Bool := 0xDC00 ≤ unit && unit < 0xE000

/-- The text of code points, with pairs of surrogates joined. A lone one makes no text. -/
def joinUnits? : List Nat → Option (List Char)
  | [] => some []
  | high :: low :: units =>
    if isHigh high && isLow low then
      (Char.ofNat (0x10000 + high % 1024 * 1024 + low % 1024) :: ·) <$> joinUnits? units
    else if isHigh high || isLow high then none
    else (Char.ofNat high :: ·) <$> joinUnits? (low :: units)
  | [unit] => if isHigh unit || isLow unit then none else some [Char.ofNat unit]

/-- A string behind its opening quote. -/
def readString (cs : List Char) : Option (Option String × List Char) := do
  let (units, rest) ← readUnits cs
  return (String.ofList <$> joinUnits? units, rest)

def digitsValue (digits : List Char) : Nat :=
  digits.foldl (fun n c => n * 10 + (c.toNat - 0x30)) 0

/-- At least one digit. -/
def readDigits (cs : List Char) : Option (List Char × List Char) :=
  match cs.takeWhile Char.isDigit with
  | [] => none
  | digits => some (digits, cs.dropWhile Char.isDigit)

/-- The digits before the point: no zero in front of others. -/
def readWhole (cs : List Char) : Option (List Char × List Char) :=
  match cs with
  | '0' :: rest => some (['0'], rest)
  | _ => readDigits cs

/-- The digits behind the point, if there is one. -/
def readFraction (cs : List Char) : Option (Option (List Char) × List Char) :=
  match cs with
  | '.' :: rest => do
    let (digits, rest) ← readDigits rest
    return (some digits, rest)
  | _ => some (none, cs)

/-- The power of ten, if there is one. -/
def readExponent (cs : List Char) : Option (Option Int × List Char) :=
  match cs with
  | e :: rest =>
    if e == 'e' || e == 'E' then
      let (sign, rest) : Int × List Char := match rest with
        | '-' :: rest => (-1, rest)
        | '+' :: rest => (1, rest)
        | _ => (1, rest)
      do
        let (digits, rest) ← readDigits rest
        return (some (sign * digitsValue digits), rest)
    else some (none, cs)
  | [] => some (none, cs)

/-- A number. Minus zero counts as one with a fraction. -/
def readNumber (cs : List Char) : Option (Json × List Char) := do
  let (isNegative, cs) := match cs with
    | '-' :: rest => (true, rest)
    | _ => (false, cs)
  let (whole, cs) ← readWhole cs
  let (fraction, cs) ← readFraction cs
  let (exponent, cs) ← readExponent cs
  let digits := whole ++ fraction.getD []
  let magnitude : Int := digitsValue digits
  let mantissa := if isNegative then -magnitude else magnitude
  let isPlain := fraction.isNone && exponent.isNone && !(isNegative && magnitude == 0)
  let value :=
    if isPlain then integer mantissa
    else decimal mantissa (exponent.getD 0 - (fraction.getD []).length)
  return (value, cs)

mutual

/-- A value and what follows it. Every call has a character of its own, the first of a value or
the comma or bracket behind it, so the number of characters bounds the depth of calls. -/
def readValue : (calls : Nat) → List Char → Option (Json × List Char)
  | 0, _ => none
  | calls + 1, cs =>
    match skipSpace cs with
    | '\x7b' :: cs =>
      match skipSpace cs with
      | '\x7d' :: cs => some (object [], cs)
      | _ => do
        let (members, cs) ← readMembers calls cs
        return (object members, cs)
    | '[' :: cs =>
      match skipSpace cs with
      | ']' :: cs => some (array [], cs)
      | _ => do
        let (elements, cs) ← readElements calls cs
        return (array elements, cs)
    | '"' :: cs => do
      let (content, cs) ← readString cs
      return (string content, cs)
    | 'n' :: 'u' :: 'l' :: 'l' :: cs => some (null, cs)
    | 't' :: 'r' :: 'u' :: 'e' :: cs => some (bool true, cs)
    | 'f' :: 'a' :: 'l' :: 's' :: 'e' :: cs => some (bool false, cs)
    | cs => readNumber cs

/-- The members of an object up to its closing brace. -/
def readMembers : (calls : Nat) → List Char →
    Option (List (Option String × Json) × List Char)
  | 0, _ => none
  | calls + 1, cs =>
    match skipSpace cs with
    | '"' :: cs => do
      let (name, cs) ← readString cs
      match skipSpace cs with
      | ':' :: cs =>
        let (value, cs) ← readValue calls cs
        match skipSpace cs with
        | ',' :: cs =>
          let (members, cs) ← readMembers calls cs
          return ((name, value) :: members, cs)
        | '\x7d' :: cs => return ([(name, value)], cs)
        | _ => none
      | _ => none
    | _ => none

/-- The elements of an array up to its closing bracket. -/
def readElements : (calls : Nat) → List Char → Option (List Json × List Char)
  | 0, _ => none
  | calls + 1, cs => do
    let (value, cs) ← readValue calls cs
    match skipSpace cs with
    | ',' :: cs =>
      let (values, cs) ← readElements calls cs
      return (value :: values, cs)
    | ']' :: cs => return ([value], cs)
    | _ => none

end

/-- The value of a text that holds one value and nothing else but space. -/
def parse? (text : String) : Option Json :=
  let cs := text.toList
  match readValue (cs.length + 1) cs with
  | some (value, rest) => if skipSpace rest == [] then some value else none
  | none => none

end VoxelServer.Json
