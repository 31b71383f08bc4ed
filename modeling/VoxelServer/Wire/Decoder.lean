import VoxelServer.Wire.Error

/-!
# Reading from the front of a byte string

A decoder takes a value off the front of its input and leaves the rest. Decoders are run one
after the other by `do`.

* `Decoder`: the type; `Decoder.SelfDelimiting` is the law its members keep.
* `take`: the primitive that all others are built from.
-/

namespace VoxelServer

abbrev Decoder := StateT Bytes (Except CodecError)

/-- The first `n` bytes. -/
def take (n : Nat) : Decoder Bytes := fun input =>
  let front := input.take n
  if front.length = n then .ok (front, input.drop n)
  else .error (.truncated n front.length)

/-- Everything that is left. -/
def takeRest : Decoder Bytes := fun input => .ok (input, [])

namespace Decoder

variable {α : Type}

/-- The value at the front, whatever follows it. -/
def first (d : Decoder α) (input : Bytes) : Except CodecError α :=
  Prod.fst <$> d input

/-- The bytes that a decoder passes over. -/
def measure (d : Decoder Unit) : Decoder Bytes := fun input => do
  let (_, rest) ← d input
  return (input.take (input.length - rest.length), rest)

/-- What follows an accepted input changes nothing, and a refusal other than for want of bytes is
final. -/
structure SelfDelimiting (d : Decoder α) : Prop where
  ok {input v rest} : d input = .ok (v, rest) →
    rest <:+ input ∧ ∀ more, d (input ++ more) = .ok (v, rest ++ more)
  error {input e} : d input = .error e → e.isIncomplete = false →
    ∀ more, d (input ++ more) = .error e

end Decoder

end VoxelServer
