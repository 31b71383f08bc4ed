import VoxelServer.Bytes

/-!
# UTF-8

Text on the wire is UTF-8. A byte string that is not is refused with the length of its valid
part and of the bad sequence behind it.

* `Utf8.encode`: the bytes of a text.
* `Utf8.decode`: the text of some bytes, or where and how they stop being text.
* `Utf8.Fault.message`: the wording of a refusal.
-/

namespace VoxelServer.Utf8

/-- Where bytes stop being text. `badLength` counts the bytes that open a sequence and cannot go
on; there is none when the input ends inside a sequence that is fine so far. -/
structure Fault where
  validLength : Nat
  badLength : Option Nat
  deriving DecidableEq, Repr

def Fault.message : Fault → String
  | ⟨valid, some bad⟩ => s!"invalid utf-8 sequence of {bad} bytes from index {valid}"
  | ⟨valid, none⟩ => s!"incomplete utf-8 byte sequence from index {valid}"

def encode (text : String) : Bytes := text.toList.flatMap String.utf8EncodeChar

/-- How many bytes the character takes that opens with this byte, 0 if none does. -/
def width (lead : UInt8) : Nat :=
  if lead < 0x80 then 1
  else if lead < 0xC2 then 0
  else if lead < 0xE0 then 2
  else if lead < 0xF0 then 3
  else if lead < 0xF5 then 4
  else 0

def isTail (b : UInt8) : Bool := 0x80 ≤ b && b < 0xC0

/-- Whether a second byte fits its lead: no overlong form, no surrogate, nothing above the last
code point. -/
def isSecond (lead b : UInt8) : Bool :=
  if lead == 0xE0 then 0xA0 ≤ b && b < 0xC0
  else if lead == 0xED then 0x80 ≤ b && b < 0xA0
  else if lead == 0xF0 then 0x90 ≤ b && b < 0xC0
  else if lead == 0xF4 then 0x80 ≤ b && b < 0x90
  else isTail b

/-- The six payload bits of a tail byte, below those collected so far. -/
def shiftIn (code : Nat) (tail : UInt8) : Nat := code * 64 + tail.toNat % 64

/-- The characters of the bytes from index `i` on. -/
def decodeFrom (i : Nat) : Bytes → Except Fault (List Char)
  | [] => .ok []
  | a :: rest =>
    match width a, rest with
    | 0, _ => .error ⟨i, some 1⟩
    | 1, rest => (Char.ofNat a.toNat :: ·) <$> decodeFrom (i + 1) rest
    | _, [] => .error ⟨i, none⟩
    | w, b :: rest =>
      if !isSecond a b then .error ⟨i, some 1⟩
      else if w == 2 then
        (Char.ofNat (shiftIn (a.toNat % 32) b) :: ·) <$> decodeFrom (i + 2) rest
      else match rest with
        | [] => .error ⟨i, none⟩
        | c :: rest =>
          if !isTail c then .error ⟨i, some 2⟩
          else if w == 3 then
            (Char.ofNat (shiftIn (shiftIn (a.toNat % 16) b) c) :: ·) <$> decodeFrom (i + 3) rest
          else match rest with
            | [] => .error ⟨i, none⟩
            | d :: rest =>
              if !isTail d then .error ⟨i, some 3⟩
              else
                let code := shiftIn (shiftIn (shiftIn (a.toNat % 8) b) c) d
                (Char.ofNat code :: ·) <$> decodeFrom (i + 4) rest

def decode (bytes : Bytes) : Except Fault String :=
  String.ofList <$> decodeFrom 0 bytes

end VoxelServer.Utf8
