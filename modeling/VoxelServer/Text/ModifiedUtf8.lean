import VoxelServer.Text.Utf8

/-!
# Modified UTF-8

Names and strings inside a tag tree are written in a dialect of UTF-8 without a zero byte and
without four-byte sequences: the zero character takes two bytes, and a character beyond the
sixteen-bit plane is written as its two surrogates, three bytes each. Readers also take plain
UTF-8.

* `ModifiedUtf8.encode`: the dialect.
* `ModifiedUtf8.decode?`: plain UTF-8 first, then the dialect.
-/

namespace VoxelServer.ModifiedUtf8

/-- Three bytes for a sixteen-bit unit. -/
def encodeUnit (unit : Nat) : Bytes :=
  [UInt8.ofNat (0xE0 + unit / 4096 % 16), UInt8.ofNat (0x80 + unit / 64 % 64),
    UInt8.ofNat (0x80 + unit % 64)]

def encodeChar (c : Char) : Bytes :=
  if c.toNat == 0 then [0xC0, 0x80]
  else if c.toNat < 0x10000 then String.utf8EncodeChar c
  else
    let beyond := c.toNat - 0x10000
    encodeUnit (0xD800 + beyond / 1024) ++ encodeUnit (0xDC00 + beyond % 1024)

def encode (text : String) : Bytes := text.toList.flatMap encodeChar

/-- The characters of bytes in the dialect. A surrogate counts only as the first or second half
of a pair. -/
def decodeDialect? : Bytes → Option (List Char)
  | [] => some []
  | a :: rest =>
    match Utf8.width a, rest with
    | 0, b :: rest =>
      if a == 0xC0 && b == 0x80 then (Char.ofNat 0 :: ·) <$> decodeDialect? rest else none
    | 1, rest => (Char.ofNat a.toNat :: ·) <$> decodeDialect? rest
    | 2, b :: rest =>
      if Utf8.isTail b then
        (Char.ofNat (Utf8.shiftIn (a.toNat % 32) b) :: ·) <$> decodeDialect? rest
      else none
    | 3, b :: c :: rest =>
      let unit := Utf8.shiftIn (Utf8.shiftIn (a.toNat % 16) b) c
      if Utf8.isSecond a b && Utf8.isTail c then (Char.ofNat unit :: ·) <$> decodeDialect? rest
      else if a == 0xED && 0xA0 ≤ b && b < 0xB0 && Utf8.isTail c then
        match rest with
        | d :: e :: f :: rest =>
          if d == 0xED && 0xB0 ≤ e && e < 0xC0 && Utf8.isTail f then
            let low := Utf8.shiftIn (e.toNat % 16) f
            (Char.ofNat (0x10000 + unit % 1024 * 1024 + low) :: ·) <$> decodeDialect? rest
          else none
        | _ => none
      else none
    | _, _ => none

def decode? (bytes : Bytes) : Option String :=
  match Utf8.decode bytes with
  | .ok text => some text
  | .error _ => String.ofList <$> decodeDialect? bytes

end VoxelServer.ModifiedUtf8
