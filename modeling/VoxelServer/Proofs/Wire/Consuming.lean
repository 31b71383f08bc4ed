import Mathlib.Data.List.Induction
import VoxelServer.Proofs.Computations
import VoxelServer.Wire.Number

/-!
# What decoders take

Whatever a decoder gives a value for, it has taken bytes of a certain form off the front of its
input and left the rest as it was:

* `Decoder.Consumes`: the relation, kept by the ways in which decoders are put together. Together
  with `Decoder.Reads`, which goes the other way, it says which bytes a decoder accepts;
* `Decoder.Consumes.ofWord`: a word is taken as its encoding.
-/

namespace VoxelServer

namespace Bytes

theorem toNatBE_lt (bs : Bytes) : toNatBE bs < Nat.pow 256 bs.length := by
  induction bs using List.reverseRecOn with
  | nil => decide
  | append_singleton bs b ih =>
    have digit := b.toNat_lt
    rw [toNatBE_append_singleton, List.length_append]
    show _ < Nat.pow 256 bs.length * 256
    omega

/-- The bytes of a number that was read are those it was read from. -/
theorem ofNatBE_toNatBE (bs : Bytes) : ofNatBE bs.length (toNatBE bs) = bs := by
  induction bs using List.reverseRecOn with
  | nil => rfl
  | append_singleton bs b ih =>
    have digit := b.toNat_lt
    have high : (toNatBE bs * 256 + b.toNat) / 256 = toNatBE bs := by omega
    have low : UInt8.ofNat (toNatBE bs * 256 + b.toNat) = b := by
      apply UInt8.toNat_inj.mp
      rw [UInt8.toNat_ofNat']
      omega
    rw [List.length_append, toNatBE_append_singleton]
    show ofNatBE bs.length _ ++ [_] = _
    rw [high, low, ih]

end Bytes

/-- Bytes are written for the word they are read as, if every number of their width is one of its
values. -/
theorem Wire.encode_ofWord {α : Type} {width : Nat} {toNat : α → Nat} {ofNat : Nat → α}
    (onto : ∀ n, n < Nat.pow 256 width → toNat (ofNat n) = n) {bytes : Bytes}
    (length : bytes.length = width) :
    (Wire.ofWord width toNat ofNat).encode (ofNat bytes.toNatBE) = bytes := by
  subst length
  show Bytes.ofNatBE _ _ = _
  rw [onto _ (Bytes.toNatBE_lt bytes), Bytes.ofNatBE_toNatBE]

/-- Everything a decoder gives a value for starts with bytes that suit the value, and these are
what it takes. -/
def Decoder.Consumes {α : Type} (d : Decoder α) (P : Bytes → α → Prop) : Prop :=
  ∀ input a rest, d input = .ok (a, rest) → ∃ taken, input = taken ++ rest ∧ P taken a

namespace Decoder.Consumes

variable {α β : Type} {P : Bytes → α → Prop} {Q : Bytes → β → Prop} {d : Decoder α}

theorem pure {a : α} (nothing : P [] a) : Decoder.Consumes (Pure.pure a) P := by
  rintro input b rest given
  cases given
  exact ⟨[], rfl, nothing⟩

theorem throw (e : CodecError) : Decoder.Consumes (MonadExcept.throw e) P := by
  rintro input a rest given
  cases given

/-- What comes second takes its bytes behind those of what comes first. -/
theorem bind {f : α → Decoder β} (hd : d.Consumes P)
    (hf : ∀ front a, P front a → (f a).Consumes fun more b => Q (front ++ more) b) :
    Decoder.Consumes (d >>= f) Q := by
  intro input b rest given
  obtain ⟨a, left, read, read'⟩ := exists_of_run_bind_ok given
  obtain ⟨front, rfl, suits⟩ := hd input a left read
  obtain ⟨more, rfl, suits'⟩ := hf front a suits left b rest read'
  exact ⟨front ++ more, (List.append_assoc front more rest).symm, suits'⟩

theorem mono {P' : Bytes → α → Prop} (hd : d.Consumes P')
    (weaker : ∀ taken a, P' taken a → P taken a) : d.Consumes P := by
  intro input a rest given
  obtain ⟨taken, split, suits⟩ := hd input a rest given
  exact ⟨taken, split, weaker taken a suits⟩

theorem discard {P : Bytes → Unit → Prop} (hd : d.Consumes fun taken _ => P taken ()) :
    Decoder.Consumes (Functor.discard d) P :=
  hd.bind fun _ _ suits => .pure (by rwa [List.append_nil])

theorem take (n : Nat) :
    (take n).Consumes fun taken front => front = taken ∧ taken.length = n := by
  intro input front rest given
  simp only [VoxelServer.take] at given
  split at given
  · rename_i whole
    cases given
    exact ⟨input.take n, (List.take_append_drop n input).symm, rfl, whole⟩
  · cases given

/-- A word is taken as its encoding if every number of its width is one of its values. -/
theorem ofWord {width : Nat} {toNat : α → Nat} {ofNat : Nat → α}
    (onto : ∀ n, n < Nat.pow 256 width → toNat (ofNat n) = n) :
    (Wire.ofWord width toNat ofNat).decode.Consumes fun taken a =>
      taken = (Wire.ofWord width toNat ofNat).encode a := by
  refine (Consumes.take width).bind ?_
  rintro _ front ⟨rfl, length⟩
  apply Consumes.pure
  rw [List.append_nil]
  exact (Wire.encode_ofWord onto length).symm

theorem byte : (Wire.decode : Decoder UInt8).Consumes fun taken b => taken = [b] := by
  have word : (Wire.decode : Decoder UInt8).Consumes fun taken b => taken = Wire.encode b :=
    ofWord fun _ small => UInt8.toNat_ofNat_of_lt' small
  refine word.mono ?_
  rintro _ b rfl
  exact congrArg ([·]) UInt8.ofNat_toNat

theorem uint16 :
    (Wire.decode : Decoder UInt16).Consumes fun taken n => taken = Bytes.ofNatBE 2 n.toNat :=
  ofWord fun _ small => UInt16.toNat_ofNat_of_lt' small

theorem int32 : (Wire.decode : Decoder Int32).Consumes fun taken n => taken = Wire.encode n :=
  ofWord fun _ small => UInt32.toNat_ofNat_of_lt' small

end Decoder.Consumes

/-- Any eight bytes are a number. -/
theorem exists_encode_int64 {bytes : Bytes} (eight : bytes.length = 8) :
    ∃ n : Int64, Wire.encode n = bytes := by
  have onto (n : Nat) (small : n < Nat.pow 256 8) : (Int64.ofNat n).toUInt64.toNat = n :=
    UInt64.toNat_ofNat_of_lt' small
  exact ⟨Int64.ofNat bytes.toNatBE, Wire.encode_ofWord onto eight⟩

end VoxelServer
