import VoxelServer.Proofs.Computations
import VoxelServer.Wire.Number

/-!
# Reading what was written

Decoders that take a value off the front of any input that opens with certain bytes:

* `Decoder.Reads`: the relation, kept by the ways in which decoders are put together;
* `Decoder.Yields`: what holds of everything a decoder gives, from whatever input;
* `LawfulWire`: types whose values are read back from their encoding, among them the numbers of a
  fixed width.
-/

namespace VoxelServer

/-- A decoder gives a value for certain bytes and leaves what follows them. -/
def Decoder.Reads {α : Type} (d : Decoder α) (bytes : Bytes) (a : α) : Prop :=
  ∀ rest, d (bytes ++ rest) = .ok (a, rest)

namespace Decoder.Reads

variable {α β : Type} {d : Decoder α} {f : α → Decoder β} {bytes more : Bytes} {a : α} {b : β}

theorem pure (a : α) : Decoder.Reads (Pure.pure a) [] a := fun _ => rfl

theorem bind (hd : d.Reads bytes a) (hf : (f a).Reads more b) :
    Decoder.Reads (d >>= f) (bytes ++ more) b := by
  intro rest
  simp only [Bind.bind, StateT.bind, Except.bind, List.append_assoc, hd (more ++ rest)]
  exact hf rest

/-- A decoder that is followed by one that takes nothing. -/
theorem bind_nil (hd : d.Reads bytes a) (hf : (f a).Reads [] b) :
    Decoder.Reads (d >>= f) bytes b := by
  simpa using hd.bind hf

theorem map (g : α → β) (hd : d.Reads bytes a) : Decoder.Reads (g <$> d) bytes (g a) := by
  intro rest
  simp only [Functor.map, StateT.map, Bind.bind, Except.bind, hd rest]
  rfl

theorem discard (hd : d.Reads bytes a) : Decoder.Reads (Functor.discard d) bytes () := by
  intro rest
  simp only [Functor.discard, Functor.mapConst, StateT.map, Bind.bind, Except.bind,
    Function.comp_apply, hd rest]
  rfl

theorem take {n : Nat} (length : bytes.length = n) : (take n).Reads bytes bytes := by
  intro rest
  subst length
  simp [VoxelServer.take]

theorem ofWord {width : Nat} {toNat : α → Nat} {ofNat : Nat → α} (length : bytes.length = width) :
    (Wire.ofWord width toNat ofNat).decode.Reads bytes (ofNat bytes.toNatBE) :=
  (take length).bind_nil (.pure _)

theorem measure {d : Decoder Unit} (hd : d.Reads bytes ()) : d.measure.Reads bytes bytes := by
  intro rest
  have front : (bytes ++ rest).take ((bytes ++ rest).length - rest.length) = bytes :=
    List.take_left' (by simp)
  simp only [Decoder.measure, Bind.bind, Except.bind, hd rest, front]
  rfl

/-- The value is what counts where nothing else is read. -/
theorem first (hd : d.Reads bytes a) (rest : Bytes) : d.first (bytes ++ rest) = .ok a := by
  rw [Decoder.first, hd rest]
  rfl

end Decoder.Reads

/-- Everything a decoder gives has a property. -/
def Decoder.Yields {α : Type} (d : Decoder α) (P : α → Prop) : Prop :=
  ∀ input a rest, d input = .ok (a, rest) → P a

namespace Decoder.Yields

variable {α β : Type} {P : α → Prop} {Q : β → Prop} {d : Decoder α}

theorem trivially (d : Decoder α) : d.Yields fun _ => True := fun _ _ _ _ => trivial

theorem pure {a : α} (h : P a) : Decoder.Yields (Pure.pure a) P := by
  rintro input b rest given
  cases given
  exact h

theorem throw (e : CodecError) : Decoder.Yields (MonadExcept.throw e) P := by
  rintro input a rest given
  cases given

theorem bind {f : α → Decoder β} (hd : d.Yields P) (hf : ∀ a, P a → (f a).Yields Q) :
    Decoder.Yields (d >>= f) Q := by
  intro input b rest given
  obtain ⟨a, left, read, read'⟩ := exists_of_run_bind_ok given
  exact hf a (hd input a left read) left b rest read'

end Decoder.Yields

/-- Types whose values are read back, whatever follows their encoding. -/
class LawfulWire (α : Type) [Wire α] : Prop where
  reads (a : α) : (Wire.decode : Decoder α).Reads (Wire.encode a) a

namespace LawfulWire

/-- Words are read back if their number fits. -/
theorem ofWord {α : Type} {width : Nat} {toNat : α → Nat} {ofNat : Nat → α}
    (small : ∀ a, toNat a < Nat.pow 256 width) (back : ∀ a, ofNat (toNat a) = a) :
    @LawfulWire α (Wire.ofWord width toNat ofNat) := by
  refine @LawfulWire.mk α (Wire.ofWord width toNat ofNat) fun a => ?_
  have reads : (Wire.ofWord width toNat ofNat).decode.Reads (Bytes.ofNatBE width (toNat a)) _ :=
    .ofWord (Bytes.length_ofNatBE width (toNat a))
  rwa [Bytes.toNatBE_ofNatBE, Nat.mod_eq_of_lt (small a), back] at reads

instance : LawfulWire UInt8 := ofWord UInt8.toNat_lt fun _ => UInt8.ofNat_toNat

instance : LawfulWire UInt16 := ofWord UInt16.toNat_lt fun _ => UInt16.ofNat_toNat

instance : LawfulWire Int8 :=
  ofWord (fun a => a.toUInt8.toNat_lt) fun a => Int8.ofNat_bitVecToNat a.toBitVec

instance : LawfulWire Int16 :=
  ofWord (fun a => a.toUInt16.toNat_lt) fun a => Int16.ofNat_bitVecToNat a.toBitVec

instance : LawfulWire Int32 :=
  ofWord (fun a => a.toUInt32.toNat_lt) fun a => Int32.ofNat_bitVecToNat a.toBitVec

instance : LawfulWire Int64 :=
  ofWord (fun a => a.toUInt64.toNat_lt) fun a => Int64.ofNat_bitVecToNat a.toBitVec

instance : LawfulWire Single :=
  @ofWord Single 4 (·.bits.toNat) (⟨UInt32.ofNat ·⟩) (fun a => a.bits.toNat_lt) fun _ =>
    congrArg Single.mk UInt32.ofNat_toNat

instance : LawfulWire Double :=
  @ofWord Double 8 (·.bits.toNat) (⟨UInt64.ofNat ·⟩) (fun a => a.bits.toNat_lt) fun _ =>
    congrArg Double.mk UInt64.ofNat_toNat

end LawfulWire

theorem reads_byte (b : UInt8) : (Wire.decode : Decoder UInt8).Reads [b] b := by
  have reads := LawfulWire.reads b
  rwa [show Wire.encode b = [b] from congrArg ([·]) UInt8.ofNat_toNat] at reads

end VoxelServer
