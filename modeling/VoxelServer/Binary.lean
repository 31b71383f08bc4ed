import VoxelServer.Bytes

/-!
# Binary floating point by its bits

A float that came from the network is kept as the bits that came, so that what is stored is what
is sent on, whatever kind of NaN it was. Arithmetic goes through the machine's single precision
and treats NaN on its own: an operand that is one is passed on, and an operation without a result
gives the indefinite value.

* `Single`, `Double`: the 32 and 64 bit formats.
* `Double.toSingle`: rounding to nearest, ties to even.
-/

namespace VoxelServer

/-- A 32-bit binary float. -/
structure Single where
  bits : UInt32
  deriving DecidableEq, Repr, Inhabited

/-- A 64-bit binary float. -/
structure Double where
  bits : UInt64
  deriving DecidableEq, Repr, Inhabited

namespace Single

def zero : Single := ⟨0⟩

def one : Single := ⟨0x3F800000⟩

/-- Both zeros. -/
def isZero (a : Single) : Bool := a.bits &&& 0x7FFFFFFF == 0

def isNaN (a : Single) : Bool := a.bits &&& 0x7FFFFFFF > 0x7F800000

/-- The NaN with its quiet bit set. -/
def quiet (a : Single) : Single := ⟨a.bits ||| 0x00400000⟩

/-- What an operation gives that has no result. -/
def indefinite : Single := ⟨0xFFC00000⟩

/-- Equality of values: a NaN differs from itself, and the two zeros are equal. -/
def eqv (a b : Single) : Bool :=
  !a.isNaN && !b.isNaN && (a.bits == b.bits || a.isZero && b.isZero)

def toFloat32 (a : Single) : Float32 := Float32.ofBits a.bits

def ofFloat32 (x : Float32) : Single :=
  if x.isNaN then indefinite else ⟨x.toBits⟩

/-- The sum, the product and so on, with NaN operands passed on, the first before the second. -/
def lift₂ (op : Float32 → Float32 → Float32) (a b : Single) : Single :=
  if a.isNaN then a.quiet
  else if b.isNaN then b.quiet
  else ofFloat32 (op a.toFloat32 b.toFloat32)

instance : Add Single := ⟨lift₂ (· + ·)⟩
instance : Sub Single := ⟨lift₂ (· - ·)⟩
instance : Mul Single := ⟨lift₂ (· * ·)⟩
instance : Div Single := ⟨lift₂ (· / ·)⟩

/-- The other sign, of a NaN too. -/
instance : Neg Single := ⟨fun a => ⟨a.bits ^^^ 0x80000000⟩⟩

/-- A number below `2 ^ 24`, which has an exact single. -/
def ofNat (n : Nat) : Single := ⟨(Float32.ofNat n).toBits⟩

end Single

namespace Double

def zero : Double := ⟨0⟩

def isZero (a : Double) : Bool := a.bits &&& 0x7FFFFFFFFFFFFFFF == 0

def isNaN (a : Double) : Bool := a.bits &&& 0x7FFFFFFFFFFFFFFF > 0x7FF0000000000000

/-- Equality of values: a NaN differs from itself, and the two zeros are equal. -/
def eqv (a b : Double) : Bool :=
  !a.isNaN && !b.isNaN && (a.bits == b.bits || a.isZero && b.isZero)

/-- `m / 2 ^ shift` rounded to nearest, a tie to the even neighbour. -/
def roundShift (m shift : Nat) : Nat :=
  let quotient := m >>> shift
  let unit := 1 <<< shift
  let twice := 2 * (m % unit)
  if twice > unit || twice == unit && quotient % 2 == 1 then quotient + 1 else quotient

/-- The nearest single, ties to even. A magnitude too large becomes infinity, one too small a
subnormal or zero, and a NaN keeps its sign and the top of its payload. -/
def toSingle (a : Double) : Single :=
  let bits := a.bits.toNat
  let sign := (bits >>> 63) <<< 31
  let exponent := (bits >>> 52) % 2048
  let hidden := 1 <<< 52
  let mantissa := bits % hidden
  let magnitude :=
    if exponent == 0x7FF then
      if mantissa == 0 then 0x7F800000 else 0x7FC00000 ||| mantissa >>> 29
    else if exponent ≥ 897 then
      -- a normal single; a carry out of the mantissa moves into the exponent
      min 0x7F800000 (roundShift ((exponent - 896) * hidden + mantissa) 29)
    else if exponent == 0 then 0
    else roundShift (hidden + mantissa) (926 - exponent)
  ⟨UInt32.ofNat (sign + magnitude)⟩

end Double

end VoxelServer
