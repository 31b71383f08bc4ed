import Mathlib.Data.Int.ModEq
import Mathlib.Data.Set.Function
import VoxelServer.Proofs.Wire.Consuming
import VoxelServer.Proofs.Wire.Reads
import VoxelServer.Wire.BlockPosition

/-!
# Positions and words

A word has room for the low bits of three coordinates. What is lost is lost modulo powers of two,
and nothing of one coordinate gets into another:

* `BlockPosition.InRange`: the box of positions that fit their 26, 12 and 26 bits;
* `BlockPosition.Congruent`: positions that agree in these bits;
* `BlockPosition.testBit_pack`: which bit of which coordinate stands where in a word;
* `positions_fill_words`: the positions of the box and the words are in bijection, and every
  position is read back as the one of the box that it is congruent to.
-/

namespace VoxelServer

namespace BlockPosition

/-! ## Fields -/

/-- An integer that `width` bits hold in two's complement. -/
def Holds (width : Nat) (n : Int) : Prop := -2 ^ (width - 1) ≤ n ∧ n < 2 ^ (width - 1)

instance (width : Nat) (n : Int) : Decidable (Holds width n) := inferInstanceAs (Decidable (_ ∧ _))

theorem natCast_modulus (width : Nat) : ((1 <<< width : Nat) : Int) = 2 ^ width := by
  rw [Nat.one_shiftLeft]
  exact Int.natCast_pow 2 width

theorem natCast_modulus_succ (width : Nat) : ((1 <<< (width + 1) : Nat) : Int) = 2 ^ width * 2 := by
  rw [natCast_modulus]
  exact Int.pow_succ 2 width

theorem toNat_field (width : Nat) (n : Int) : (field width n : Int) = n % 2 ^ width := by
  have positive : (0 : Int) < 2 ^ width := Int.pow_pos (by decide)
  rw [field, show Int.ofNat (1 <<< width) = 2 ^ width from natCast_modulus width]
  exact Int.toNat_of_nonneg (Int.emod_nonneg _ (Int.ne_of_gt positive))

theorem field_lt (width : Nat) (n : Int) : field width n < 2 ^ width := by
  have small : (field width n : Int) < 2 ^ width := by
    rw [toNat_field]
    exact Int.emod_lt_of_pos _ (Int.pow_pos (by decide))
  exact_mod_cast small

theorem field_eq_iff {width : Nat} {m n : Int} :
    field width m = field width n ↔ m ≡ n [ZMOD 2 ^ width] := by
  rw [Int.ModEq, ← toNat_field, ← toNat_field, Int.natCast_inj]

/-- The sign is put back. -/
theorem signed_field {width : Nat} {n : Int} (holds : Holds (width + 1) n) :
    signed (width + 1) (field (width + 1) n) = n := by
  obtain ⟨low, high⟩ := holds
  rw [Nat.add_sub_cancel] at low high
  have whole := natCast_modulus_succ width
  rw [signed, toNat_field, ← natCast_modulus, Int.emod_bmod]
  exact Int.bmod_eq_of_le_mul_two (by omega) (by omega)

theorem holds_signed (width word : Nat) : Holds (width + 1) (signed (width + 1) word) := by
  have positive : 0 < 1 <<< (width + 1) := by
    rw [Nat.one_shiftLeft]
    exact Nat.two_pow_pos (width + 1)
  have low := Int.le_bmod (x := (word : Int)) positive
  have high := Int.bmod_lt (x := (word : Int)) positive
  rw [Holds, Nat.add_sub_cancel, signed]
  rw [natCast_modulus_succ] at low high
  constructor <;> omega

/-- Every number of so many bits is the field of the integer that they are in two's complement. -/
theorem field_signed {width word : Nat} (small : word < 2 ^ width) :
    field width (signed width word) = word := by
  have back : (field width (signed width word) : Int) = (word % 2 ^ width : Nat) := by
    rw [toNat_field, signed, ← natCast_modulus, Int.bmod_emod, natCast_modulus, Int.natCast_emod]
    exact_mod_cast rfl
  rw [Nat.mod_eq_of_lt small] at back
  exact_mod_cast back

/-- What a field holds fits a coordinate. -/
theorem toInt_ofInt_of_holds {width : Nat} (narrow : width ≤ 32) {n : Int} (holds : Holds width n) :
    (Int32.ofInt n).toInt = n := by
  obtain ⟨low, high⟩ := holds
  have wide : (2 : Int) ^ (width - 1) ≤ 2 ^ 31 := by
    exact_mod_cast Nat.pow_le_pow_right (by decide) (by omega : width - 1 ≤ 31)
  exact Int32.toInt_ofInt_of_le (by omega) (by omega)

/-- A field is the low bits of a coordinate, whatever its sign. -/
theorem field_toInt {width : Nat} (narrow : width ≤ 32) (v : Int32) :
    field width v.toInt = v.toBitVec.toNat % 2 ^ width := by
  have divides : (2 : Int) ^ width ∣ ((2 ^ 32 : Nat) : Int) := by
    exact_mod_cast Nat.pow_dvd_pow 2 narrow
  have same : v.toInt = (v.toBitVec.toNat : Int).bmod (2 ^ 32) :=
    BitVec.toInt_eq_toNat_bmod v.toBitVec
  have low : (field width v.toInt : Int) = (v.toBitVec.toNat : Int) % 2 ^ width := by
    rw [toNat_field, same, ← Int.emod_emod_of_dvd _ divides, Int.bmod_emod,
      Int.emod_emod_of_dvd _ divides]
  exact_mod_cast low

theorem testBit_field {width : Nat} (narrow : width ≤ 32) (v : Int32) (i : Nat) :
    (field width v.toInt).testBit i = (decide (i < width) && v.toBitVec.getLsbD i) := by
  rw [field_toInt narrow, Nat.testBit_mod_two_pow, BitVec.testBit_toNat]

/-! ## Words -/

theorem pack_high (p : BlockPosition) : pack p >>> 38 = field 26 p.position.x.toInt := by
  have y := field_lt 12 p.position.y.toInt
  have z := field_lt 26 p.position.z.toInt
  simp only [pack, Nat.shiftRight_eq_div_pow, Nat.shiftLeft_eq]
  omega

theorem pack_middle (p : BlockPosition) :
    (pack p >>> 26) % (1 <<< 12) = field 12 p.position.y.toInt := by
  have y := field_lt 12 p.position.y.toInt
  have z := field_lt 26 p.position.z.toInt
  simp only [pack, Nat.shiftRight_eq_div_pow, Nat.shiftLeft_eq]
  omega

theorem pack_low (p : BlockPosition) : pack p % (1 <<< 26) = field 26 p.position.z.toInt := by
  have z := field_lt 26 p.position.z.toInt
  simp only [pack, Nat.shiftLeft_eq]
  omega

theorem pack_lt (p : BlockPosition) : pack p < Nat.pow 256 8 := by
  have x := field_lt 26 p.position.x.toInt
  have y := field_lt 12 p.position.y.toInt
  have z := field_lt 26 p.position.z.toInt
  rw [pack, Nat.shiftLeft_eq, Nat.shiftLeft_eq, show Nat.pow 256 8 = 2 ^ 64 from rfl]
  omega

/-- The bits of a word, from the lowest: those of z, those of y and those of x, each coordinate's in
their order and no others. -/
theorem testBit_pack (p : BlockPosition) (i : Nat) :
    (pack p).testBit i =
      if i < 26 then p.position.z.toBitVec.getLsbD i
      else if i < 38 then p.position.y.toBitVec.getLsbD (i - 26)
      else decide (i < 64) && p.position.x.toBitVec.getLsbD (i - 38) := by
  have split : pack p =
      2 ^ 26 * (2 ^ 12 * field 26 p.position.x.toInt + field 12 p.position.y.toInt) +
        field 26 p.position.z.toInt := by
    simp only [pack, Nat.shiftLeft_eq]
    omega
  rw [split, Nat.testBit_two_pow_mul_add _ (field_lt 26 _)]
  by_cases low : i < 26
  · rw [if_pos low, if_pos low, testBit_field (by decide), decide_eq_true low, Bool.true_and]
  rw [if_neg low, if_neg low, Nat.testBit_two_pow_mul_add _ (field_lt 12 _)]
  by_cases middle : i < 38
  · have inside : i - 26 < 12 := by omega
    rw [if_pos inside, if_pos middle, testBit_field (by decide), decide_eq_true inside,
      Bool.true_and]
  · have outside : ¬ i - 26 < 12 := by omega
    have place : i - 26 - 12 = i - 38 := by omega
    have width : i - 38 < 26 ↔ i < 64 := by omega
    rw [if_neg outside, if_neg middle, testBit_field (by decide), place, decide_eq_decide.mpr width]

/-- The positions that are not changed by being packed. -/
def InRange (p : BlockPosition) : Prop :=
  Holds 26 p.position.x.toInt ∧ Holds 12 p.position.y.toInt ∧ Holds 26 p.position.z.toInt

instance (p : BlockPosition) : Decidable p.InRange := inferInstanceAs (Decidable (_ ∧ _))

/-- Positions that agree in all bits that are packed. -/
def Congruent (p q : BlockPosition) : Prop :=
  p.position.x.toInt ≡ q.position.x.toInt [ZMOD 2 ^ 26] ∧
    p.position.y.toInt ≡ q.position.y.toInt [ZMOD 2 ^ 12] ∧
    p.position.z.toInt ≡ q.position.z.toInt [ZMOD 2 ^ 26]

theorem pack_eq_iff {p q : BlockPosition} : pack p = pack q ↔ p.Congruent q := by
  constructor
  · intro same
    refine ⟨field_eq_iff.mp ?_, field_eq_iff.mp ?_, field_eq_iff.mp ?_⟩
    · rw [← pack_high, same, pack_high]
    · rw [← pack_middle, same, pack_middle]
    · rw [← pack_low, same, pack_low]
  · rintro ⟨x, y, z⟩
    rw [pack, pack, field_eq_iff.mpr x, field_eq_iff.mpr y, field_eq_iff.mpr z]

theorem unpack_pack {p : BlockPosition} (h : p.InRange) : unpack (pack p) = p := by
  rw [unpack, pack_high, pack_middle, pack_low, signed_field h.1, signed_field h.2.1,
    signed_field h.2.2, Int32.ofInt_toInt, Int32.ofInt_toInt, Int32.ofInt_toInt]

theorem inRange_unpack (word : Nat) : (unpack word).InRange := by
  refine ⟨?_, ?_, ?_⟩
  · have holds := holds_signed 25 (word >>> 38)
    rwa [← toInt_ofInt_of_holds (by decide) holds] at holds
  · have holds := holds_signed 11 ((word >>> 26) % (1 <<< 12))
    rwa [← toInt_ofInt_of_holds (by decide) holds] at holds
  · have holds := holds_signed 25 (word % (1 <<< 26))
    rwa [← toInt_ofInt_of_holds (by decide) holds] at holds

/-- A word is made of its three fields. -/
theorem pack_unpack {word : Nat} (small : word < 2 ^ 64) : pack (unpack word) = word := by
  have high : word >>> 38 < 2 ^ 26 := by
    rw [Nat.shiftRight_eq_div_pow]
    omega
  have middle : (word >>> 26) % (1 <<< 12) < 2 ^ 12 := Nat.mod_lt _ (by decide)
  have low : word % (1 <<< 26) < 2 ^ 26 := Nat.mod_lt _ (by decide)
  have x : field 26 (unpack word).position.x.toInt = word >>> 38 := by
    rw [unpack, toInt_ofInt_of_holds (by decide) (holds_signed 25 _), field_signed high]
  have y : field 12 (unpack word).position.y.toInt = (word >>> 26) % (1 <<< 12) := by
    rw [unpack, toInt_ofInt_of_holds (by decide) (holds_signed 11 _), field_signed middle]
  have z : field 26 (unpack word).position.z.toInt = word % (1 <<< 26) := by
    rw [unpack, toInt_ofInt_of_holds (by decide) (holds_signed 25 _), field_signed low]
  rw [pack, x, y, z]
  simp only [Nat.shiftRight_eq_div_pow, Nat.shiftLeft_eq]
  omega

/-- A position is packed as the one of the box that it is congruent to. -/
theorem congruent_unpack_pack (p : BlockPosition) : (unpack (pack p)).Congruent p :=
  pack_eq_iff.mp (pack_unpack p.pack_lt)

theorem eq_of_congruent {p q : BlockPosition} (hp : p.InRange) (hq : q.InRange)
    (congruent : p.Congruent q) : p = q := by
  rw [← unpack_pack hp, pack_eq_iff.mpr congruent, unpack_pack hq]

end BlockPosition

/-! ## Bytes -/

open BlockPosition

theorem decode_blockPosition {bytes : Bytes} (eight : bytes.length = 8) :
    (Wire.decode : Decoder BlockPosition).Reads bytes (unpack bytes.toNatBE) :=
  .ofWord eight

theorem length_encode_blockPosition (p : BlockPosition) : (Wire.encode p : Bytes).length = 8 :=
  Bytes.length_ofNatBE 8 p.pack

theorem toNatBE_encode_blockPosition (p : BlockPosition) :
    Bytes.toNatBE (Wire.encode p) = p.pack := by
  show (Bytes.ofNatBE 8 p.pack).toNatBE = p.pack
  rw [Bytes.toNatBE_ofNatBE, Nat.mod_eq_of_lt p.pack_lt]

/-- Whatever was written, a position of the box is read. -/
theorem decode_encode_blockPosition (p : BlockPosition) :
    (Wire.decode : Decoder BlockPosition).Reads (Wire.encode p) (unpack p.pack) := by
  rw [← toNatBE_encode_blockPosition]
  exact decode_blockPosition (length_encode_blockPosition p)

theorem reads_blockPosition {p : BlockPosition} (h : p.InRange) :
    (Wire.decode : Decoder BlockPosition).Reads (Wire.encode p) p := by
  have reads := decode_encode_blockPosition p
  rwa [unpack_pack h] at reads

theorem encode_unpack {bytes : Bytes} (eight : bytes.length = 8) :
    Wire.encode (unpack bytes.toNatBE) = bytes := by
  have onto (word : Nat) (small : word < Nat.pow 256 8) : pack (unpack word) = word :=
    pack_unpack small
  exact Wire.encode_ofWord onto eight

/-- Eight bytes are a position of the box, and no two positions of it share theirs. -/
theorem bijOn_encode_blockPosition :
    Set.BijOn (Wire.encode : BlockPosition → Bytes) {p | p.InRange} {bytes | bytes.length = 8} := by
  refine ⟨fun p _ => length_encode_blockPosition p, ?_, ?_⟩
  · intro p hp q hq same
    have words := congrArg Bytes.toNatBE same
    rw [toNatBE_encode_blockPosition, toNatBE_encode_blockPosition] at words
    exact eq_of_congruent hp hq (pack_eq_iff.mp words)
  · intro bytes eight
    exact ⟨unpack bytes.toNatBE, inRange_unpack _, encode_unpack eight⟩

/-- **Positions of the box and words are in bijection.** Any eight bytes are read as a position that
is in the box and written as these bytes. Any position, in the box or not, is read back as the only
one of the box that it is congruent to, since each bit of a word is a bit of one coordinate. -/
theorem positions_fill_words :
    (∀ bytes rest : Bytes, bytes.length = 8 → ∃ p : BlockPosition,
      (Wire.decode : Decoder BlockPosition) (bytes ++ rest) = .ok (p, rest) ∧ p.InRange ∧
        Wire.encode p = bytes) ∧
    (∀ (p : BlockPosition) (rest : Bytes), ∃ q : BlockPosition,
      (Wire.decode : Decoder BlockPosition) (Wire.encode p ++ rest) = .ok (q, rest) ∧
        (q.InRange ∧ q.Congruent p) ∧
        ∀ q' : BlockPosition, q'.InRange → q'.Congruent p → q' = q) ∧
    Set.BijOn (Wire.encode : BlockPosition → Bytes) {p | p.InRange} {bytes | bytes.length = 8} ∧
    ∀ (p : BlockPosition) (i : Nat), (Bytes.toNatBE (Wire.encode p)).testBit i =
      if i < 26 then p.position.z.toBitVec.getLsbD i
      else if i < 38 then p.position.y.toBitVec.getLsbD (i - 26)
      else decide (i < 64) && p.position.x.toBitVec.getLsbD (i - 38) := by
  refine ⟨?_, ?_, bijOn_encode_blockPosition, ?_⟩
  · intro bytes rest eight
    exact ⟨unpack bytes.toNatBE, decode_blockPosition eight rest, inRange_unpack _,
      encode_unpack eight⟩
  · intro p rest
    have congruent := congruent_unpack_pack p
    refine ⟨unpack p.pack, decode_encode_blockPosition p rest,
      ⟨inRange_unpack p.pack, congruent⟩, ?_⟩
    intro q inRange same
    apply eq_of_congruent inRange (inRange_unpack p.pack)
    rw [← pack_eq_iff] at congruent same ⊢
    rw [same, congruent]
  · intro p i
    rw [toNatBE_encode_blockPosition, testBit_pack]

/-- One step outside the box on all three sides. -/
theorem place_outside_is_wrapped :
    (Wire.decode : Decoder BlockPosition)
        (Wire.encode (⟨⟨33554432, 2048, -33554433⟩⟩ : BlockPosition) ++ [7]) =
      .ok (⟨⟨-33554432, -2048, 33554431⟩⟩, [7]) ∧
    ∃ p : BlockPosition, (Wire.decode : Decoder BlockPosition)
        ([128, 0, 0, 32, 0, 0, 0, 1] ++ []) = .ok (p, []) ∧
      p.InRange ∧ Wire.encode p = [128, 0, 0, 32, 0, 0, 0, 1] := by
  constructor
  · obtain ⟨q, read, -, unique⟩ := positions_fill_words.2.1 ⟨⟨33554432, 2048, -33554433⟩⟩ [7]
    rw [read, ← unique ⟨⟨-33554432, -2048, 33554431⟩⟩ (by decide)
      ⟨by decide, by decide, by decide⟩]
  · exact positions_fill_words.1 [128, 0, 0, 32, 0, 0, 0, 1] [] rfl

end VoxelServer
