import VoxelServer.Bytes

/-!
# Identities of players

A 128-bit identifier, written as hexadecimal digits in groups of 8, 4, 4, 4 and 12.

* `Uuid.simple`, `Uuid.hyphenated`: the text without and with hyphens.
* `Uuid.parse?`: reads either form, also in braces or behind `urn:uuid:`.
-/

namespace VoxelServer

structure Uuid where
  value : BitVec 128
  deriving DecidableEq, Repr, Inhabited

namespace Uuid

def ofBytes (bytes : Bytes) : Uuid := ⟨BitVec.ofNat 128 bytes.toNatBE⟩

def toBytes (u : Uuid) : Bytes := Bytes.ofNatBE 16 u.value.toNat

/-- The 32 lower case digits. -/
def digits (u : Uuid) : List Char := u.toBytes.flatMap Bytes.hexDigits

def simple (u : Uuid) : String := String.ofList u.digits

/-- The digits in groups of the given sizes, hyphens between them. -/
def group : List Nat → List Char → List Char
  | [], _ => []
  | [size], digits => digits.take size
  | size :: sizes, digits => digits.take size ++ '-' :: group sizes (digits.drop size)

def groups : List Nat := [8, 4, 4, 4, 12]

def hyphenated (u : Uuid) : String := String.ofList (group groups u.digits)

/-- The identifier with these 32 digits. -/
def ofDigits? (digits : List Char) : Option Uuid :=
  if digits.length = 32 then (Bytes.hexNumber? digits).map (⟨BitVec.ofNat 128 ·⟩) else none

/-- The identifier written in groups. -/
def ofHyphenated? (text : List Char) : Option Uuid :=
  let digits := text.filter (· != '-')
  if digits.length = 32 ∧ group groups digits = text then ofDigits? digits else none

def parse? (text : String) : Option Uuid :=
  let cs := text.toList
  if cs.length = 32 then ofDigits? cs
  else if cs.length = 36 then ofHyphenated? cs
  else if cs.length = 38 ∧ cs.head? = some '\x7b' ∧ cs.getLast? = some '\x7d' then
    ofHyphenated? (cs.drop 1).dropLast
  else if cs.length = 45 ∧ cs.take 9 = "urn:uuid:".toList then ofHyphenated? (cs.drop 9)
  else none

end Uuid

end VoxelServer
