/-!
# Byte strings

Everything that crosses the network is a list of bytes. Numbers inside it stand most significant
byte first; the digests also need the opposite order.

* `Bytes.ofNatBE` and `Bytes.toNatBE` write and read a number in a fixed number of bytes.
* `Bytes.toHex` and `Bytes.ofHex?` write and read hexadecimal digits.
* `Bytes.toNatBE_ofNatBE`: reading back what was written gives the number modulo the width.
-/

namespace VoxelServer

abbrev Bytes := List UInt8

namespace Bytes

/-- The `width` low bytes of `n`, most significant first. -/
def ofNatBE : (width n : Nat) → Bytes
  | 0, _ => []
  | width + 1, n => ofNatBE width (n / 256) ++ [UInt8.ofNat n]

/-- The number whose bytes these are, most significant first. -/
def toNatBE (bs : Bytes) : Nat :=
  bs.foldl (fun n b => n * 256 + b.toNat) 0

/-- The `width` low bytes of `n`, least significant first. -/
def ofNatLE : (width n : Nat) → Bytes
  | 0, _ => []
  | width + 1, n => UInt8.ofNat n :: ofNatLE width (n / 256)

/-- The number whose bytes these are, least significant first. -/
def toNatLE (bs : Bytes) : Nat :=
  bs.foldr (fun b n => n * 256 + b.toNat) 0

/-- The two lower case hexadecimal digits of a byte. -/
def hexDigits (b : UInt8) : List Char :=
  [Nat.digitChar (b.toNat / 16), Nat.digitChar (b.toNat % 16)]

/-- Two digits for each byte. -/
def toHex (bs : Bytes) : String := String.ofList (bs.flatMap hexDigits)

/-- The value of a hexadecimal digit in either case. -/
def hexValue? (c : Char) : Option Nat :=
  let n := c.toNat
  if 0x30 ≤ n && n ≤ 0x39 then some (n - 0x30)
  else if 0x41 ≤ n && n ≤ 0x46 then some (n - 0x37)
  else if 0x61 ≤ n && n ≤ 0x66 then some (n - 0x57)
  else none

/-- The number that hexadecimal digits spell. -/
def hexNumber? (digits : List Char) : Option Nat :=
  (digits.mapM hexValue?).map fun values => values.foldl (fun n v => n * 16 + v) 0

/-- Bytes whose digits have these values, behind others in reverse. -/
def ofDigits (reversed : Bytes) : List Nat → Bytes
  | high :: low :: digits => ofDigits (UInt8.ofNat (high * 16 + low) :: reversed) digits
  | _ => reversed.reverse

/-- The bytes behind hexadecimal digits, of which there is an even number. -/
def ofHex? (text : String) : Option Bytes := do
  let digits ← text.toList.mapM hexValue?
  if digits.length % 2 = 0 then return ofDigits [] digits else none

@[simp] theorem length_ofNatBE (width n : Nat) : (ofNatBE width n).length = width := by
  induction width generalizing n with
  | zero => rfl
  | succ width ih => simp [ofNatBE, ih]

@[simp] theorem toNatBE_append_singleton (bs : Bytes) (b : UInt8) :
    toNatBE (bs ++ [b]) = toNatBE bs * 256 + b.toNat := by
  simp [toNatBE, List.foldl_append]

theorem toNatBE_ofNatBE (width n : Nat) : toNatBE (ofNatBE width n) = n % Nat.pow 256 width := by
  induction width generalizing n with
  | zero => simp [ofNatBE, toNatBE, Nat.mod_one]
  | succ width ih =>
    have split : n % Nat.pow 256 (width + 1) = n % 256 + 256 * (n / 256 % Nat.pow 256 width) := by
      rw [show Nat.pow 256 (width + 1) = 256 * Nat.pow 256 width from Nat.mul_comm _ _, Nat.mod_mul]
    have low : (UInt8.ofNat n).toNat = n % 256 := UInt8.toNat_ofNat'
    simp only [ofNatBE, toNatBE_append_singleton, ih, low, split]
    omega

end Bytes

end VoxelServer
