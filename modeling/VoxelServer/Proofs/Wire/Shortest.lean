import Mathlib.Algebra.Group.Int.Defs
import Mathlib.Algebra.Group.Nat.Defs
import Mathlib.Order.Bounds.Basic
import VoxelServer.Proofs.Wire.VarNum

/-!
# Integers take as few bytes as they can

An integer has many numerals: groups may be empty, and the last of a full number of groups has bits
to spare, which are dropped. The shortest one is written.

* `toNat_gather`: a numeral shifted group by group into one word of 64 bits is its number there,
  so nothing is lost that the integer has;
* `VarNumLaws`: what is written, what is read from any bytes and how the others are refused, and
  which numerals are written as they were read;
* `integers_are_shortest`: all this holds of the integers of 32 and of 64 bits.
-/

namespace VoxelServer

open Bytes (toNatGroups)

/-! ## Groups in a word -/

/-- A word with groups of seven bits put into it one above the other, from a place on. -/
def Bytes.gather (word : UInt64) (place : Nat) : Bytes → UInt64
  | [] => word
  | b :: bytes => gather (word ||| (b &&& 127).toUInt64 <<< UInt64.ofNat place) (place + 7) bytes

/-- A group above everything that is in the word, without the bits that do not fit. -/
theorem toNat_put {word : UInt64} {place : Nat} (free : word.toNat < 2 ^ place) (inside : place < 64)
    (b : UInt8) :
    (word ||| (b &&& 127).toUInt64 <<< UInt64.ofNat place).toNat =
      (word.toNat + 2 ^ place * (b.toNat % 128)) % 2 ^ 64 := by
  have group : (b &&& 127).toUInt64.toNat = b.toNat % 128 := by
    rw [UInt8.toNat_toUInt64, UInt8.toNat_and]
    exact Nat.and_two_pow_sub_one_eq_mod b.toNat 7
  have amount : (UInt64.ofNat place).toNat % 64 = place := by
    rw [UInt64.toNat_ofNat']
    omega
  have whole : word.toNat % 2 ^ 64 = word.toNat := Nat.mod_eq_of_lt word.toNat_lt
  have above := Nat.two_pow_add_eq_or_of_lt free (b.toNat % 128)
  rw [UInt64.toNat_or, UInt64.toNat_shiftLeft, group, amount, Nat.shiftLeft_eq,
    Nat.mul_comm _ (2 ^ place), Nat.add_comm, above, Nat.or_mod_two_pow, whole, Nat.or_comm]

/-- Groups that start inside the word make up their number there. -/
theorem toNat_gather {word : UInt64} {place : Nat} {bytes : Bytes} (free : word.toNat < 2 ^ place)
    (room : place + 7 * bytes.length ≤ 70) :
    (Bytes.gather word place bytes).toNat = (word.toNat + 2 ^ place * toNatGroups bytes) % 2 ^ 64 := by
  induction bytes generalizing word place with
  | nil =>
    rw [toNatGroups, Nat.mul_zero, Nat.add_zero, Nat.mod_eq_of_lt word.toNat_lt]
    rfl
  | cons b bytes ih =>
    rw [List.length_cons] at room
    have put := toNat_put free (by omega) b
    have next : 2 ^ (place + 7) = 2 ^ place * 128 := Nat.pow_add 2 place 7
    have free' : (word ||| (b &&& 127).toUInt64 <<< UInt64.ofNat place).toNat < 2 ^ (place + 7) := by
      have low : 2 ^ place * (b.toNat % 128) ≤ 2 ^ place * 127 :=
        Nat.mul_le_mul_left _ (Nat.le_of_lt_succ (Nat.mod_lt _ (by decide)))
      rw [put, next]
      exact Nat.lt_of_le_of_lt (Nat.mod_le _ _) (by omega)
    rw [Bytes.gather, ih free' (by omega), put, Nat.mod_add_mod, next, toNatGroups, Nat.mul_add,
      Nat.mul_assoc, Nat.add_assoc]

/-- Only a numeral of full length can have bits beyond the width. -/
theorem fits_width_iff {width max : Nat} {taken : Bytes} (full : Nat.pow 128 (max - 1) ≤ 2 ^ width)
    (short : taken.length ≤ max) :
    toNatGroups taken < 2 ^ width ↔ (taken.length = max → toNatGroups taken < 2 ^ width) := by
  constructor
  · intro small _
    exact small
  · intro small
    by_cases whole : taken.length = max
    · exact small whole
    · have fewer : Nat.pow 128 taken.length ≤ Nat.pow 128 (max - 1) :=
        Nat.pow_le_pow_right (by decide) (by omega)
      exact Nat.lt_of_lt_of_le (toNatGroups_lt taken) (Nat.le_trans fewer full)

/-! ## The numerals of a value -/

/-- How many bytes are taken for a value, in all ways to read it. -/
def readLengths {α : Type} [Wire α] (a : α) : Set Nat :=
  {length | ∃ taken rest, (Wire.decode : Decoder α) (taken ++ rest) = .ok (a, rest) ∧
    taken.length = length}

namespace VarNumType

variable {α : Type} [Wire α] {width max : Nat} {bits : α → Nat} {ofBits : Nat → α}

/-- The integer that a numeral is read as, in two's complement. -/
theorem bits_eq_iff (h : VarNumType α width max bits ofBits) {toInt : α → Int}
    (signed : ∀ a, toInt a = (bits a : Int).bmod (2 ^ width)) {a : α} {n : Nat} :
    bits a = n % Nat.pow 2 width ↔ toInt a = (n : Int).bmod (2 ^ width) := by
  show bits a = n % 2 ^ width ↔ _
  rw [signed]
  constructor
  · intro same
    rw [same, Int.natCast_emod, Int.emod_bmod]
  · intro same
    have rests := congrArg (· % ((2 ^ width : Nat) : Int)) same
    simp only [Int.bmod_emod] at rests
    have small : bits a % 2 ^ width = bits a := Nat.mod_eq_of_lt (h.bits_lt a)
    rw [← small]
    exact_mod_cast rests

/-- No numeral of a value is shorter than the one that is written. -/
theorem isLeast_length_encode (h : VarNumType α width max bits ofBits) (a : α) :
    IsLeast (readLengths a) (Wire.encode a : Bytes).length := by
  constructor
  · exact ⟨Wire.encode a, [], h.reads a [], rfl⟩
  · rintro _ ⟨taken, rest, read, rfl⟩
    obtain ⟨numeral, -, value⟩ := h.decode_append_iff.mp read
    have small : bits a < Nat.pow 128 taken.length := by
      rw [value]
      exact Nat.lt_of_le_of_lt (Nat.mod_le _ _) (toNatGroups_lt taken)
    rw [h.encode]
    exact length_encodeVarNum_le numeral.length_pos small

theorem encode_eq_iff (h : VarNumType α width max bits ofBits) {taken rest : Bytes} {a : α}
    (read : (Wire.decode : Decoder α) (taken ++ rest) = .ok (a, rest)) :
    Wire.encode a = taken ↔ Unpadded taken ∧ toNatGroups taken < 2 ^ width := by
  obtain ⟨numeral, -, value⟩ := h.decode_append_iff.mp read
  rw [h.encode, encodeVarNum_eq_iff numeral, and_comm]
  refine and_congr_right fun _ => ?_
  rw [value]
  constructor
  · intro same
    rw [same]
    exact Nat.mod_lt _ (Nat.two_pow_pos width)
  · intro small
    exact (Nat.mod_eq_of_lt small).symm

theorem encode_eq_iff_isLeast (h : VarNumType α width max bits ofBits) {taken rest : Bytes} {a : α}
    (read : (Wire.decode : Decoder α) (taken ++ rest) = .ok (a, rest)) :
    Wire.encode a = taken ↔
      IsLeast (readLengths a) taken.length ∧ toNatGroups taken < 2 ^ width := by
  constructor
  · intro written
    exact ⟨written ▸ h.isLeast_length_encode a, ((h.encode_eq_iff read).mp written).2⟩
  · rintro ⟨least, small⟩
    obtain ⟨numeral, -, value⟩ := h.decode_append_iff.mp read
    have same : bits a = toNatGroups taken := by
      rw [value]
      exact Nat.mod_eq_of_lt small
    -- two numerals of one number and one length
    have length := (h.isLeast_length_encode a).unique least
    rw [h.encode, same] at length ⊢
    exact (numeral_encodeVarNum _).eq_of_length numeral length (toNatGroups_encodeVarNum _)

/-! ### What is read and what is refused -/

theorem accepts_iff (h : VarNumType α width max bits ofBits) (input : Bytes) :
    (∃ a rest, (Wire.decode : Decoder α) input = .ok (a, rest)) ↔ ∃ b ∈ input.take max, b < 128 := by
  constructor
  · rintro ⟨a, rest, read⟩
    obtain ⟨taken, rfl, numeral, short, -⟩ := h.decode_ok_iff.mp read
    obtain ⟨b, member, small⟩ := numeral.exists_last
    rw [List.take_append, List.take_of_length_le short]
    exact ⟨b, List.mem_append_left _ member, small⟩
  · intro ends
    obtain ⟨taken, rest, rfl, numeral, short⟩ := Numeral.exists_front ends
    exact ⟨_, rest, h.decode_append_iff.mpr ⟨numeral, short, h.bits_ofBits _⟩⟩

theorem truncated_iff (h : VarNumType α width max bits ofBits) (input : Bytes)
    (needed available : Nat) :
    (Wire.decode : Decoder α) input = .error (.truncated needed available) ↔
      (input.length < max ∧ ∀ b ∈ input, 128 ≤ b) ∧
        needed = input.length + 1 ∧ available = input.length := by
  rw [h.decode_error_iff]
  constructor
  · rintro ⟨continued, fault⟩
    by_cases short : input.length < max
    · rw [if_pos short] at fault
      rw [List.take_of_length_le (Nat.le_of_lt short)] at continued
      cases fault
      exact ⟨⟨short, continued⟩, rfl, rfl⟩
    · rw [if_neg short] at fault
      cases fault
  · rintro ⟨⟨short, continued⟩, rfl, rfl⟩
    rw [if_pos short]
    exact ⟨fun b member => continued b (List.mem_of_mem_take member), rfl⟩

theorem tooLong_iff (h : VarNumType α width max bits ofBits) (input : Bytes) (limit : Nat) :
    (Wire.decode : Decoder α) input = .error (.varNumTooLong limit) ↔
      (¬ (∃ b ∈ input.take max, b < 128) ∧ ¬ (input.length < max ∧ ∀ b ∈ input, 128 ≤ b)) ∧
        limit = max := by
  rw [h.decode_error_iff]
  constructor
  · rintro ⟨continued, fault⟩
    by_cases short : input.length < max
    · rw [if_pos short] at fault
      cases fault
    · rw [if_neg short] at fault
      cases fault
      refine ⟨⟨?_, fun missing => short missing.1⟩, rfl⟩
      rintro ⟨b, member, small⟩
      exact UInt8.not_lt.mpr (continued b member) small
  · rintro ⟨⟨endless, enough⟩, rfl⟩
    have continued : ∀ b ∈ input.take limit, 128 ≤ b := fun b member =>
      UInt8.not_lt.mp fun small => endless ⟨b, member, small⟩
    have long : ¬ input.length < limit := by
      intro short
      rw [List.take_of_length_le (Nat.le_of_lt short)] at continued
      exact enough ⟨short, continued⟩
    rw [if_neg long]
    exact ⟨continued, rfl⟩

/-- The word that a numeral is gathered in has all bits that are kept. -/
theorem bits_eq_gather (h : VarNumType α width max bits ofBits) (inWord : width ≤ 64)
    (places : max ≤ 10) {taken rest : Bytes} {a : α}
    (read : (Wire.decode : Decoder α) (taken ++ rest) = .ok (a, rest)) :
    bits a = (Bytes.gather 0 0 taken).toNat % Nat.pow 2 width := by
  obtain ⟨-, short, value⟩ := h.decode_append_iff.mp read
  have gathered : (Bytes.gather 0 0 taken).toNat = toNatGroups taken % 2 ^ 64 := by
    have put := @toNat_gather 0 0 taken (by decide) (by omega)
    rwa [Nat.pow_zero, Nat.one_mul, UInt64.toNat_zero, Nat.zero_add] at put
  rw [value, gathered]
  exact (Nat.mod_mod_of_dvd _ (Nat.pow_dvd_pow 2 inWord)).symm

end VarNumType

/-! ## All of it -/

/-- What integers of `width` bits have in common that are written in at most `max` bytes. -/
structure VarNumLaws (α : Type) [Wire α] (width max : Nat) (toInt : α → Int) : Prop where
  bounds (a : α) : 1 ≤ (Wire.encode a : Bytes).length ∧ (Wire.encode a : Bytes).length ≤ max
  /-- An integer is read from no fewer bytes than are written. -/
  least (a : α) : IsLeast (readLengths a) (Wire.encode a : Bytes).length
  /-- Reading succeeds where one of the first bytes is without its top bit. -/
  accepts (input : Bytes) :
    (∃ a rest, (Wire.decode : Decoder α) input = .ok (a, rest)) ↔ ∃ b ∈ input.take max, b < 128
  /-- It takes the bytes up to the first of these, and what they make up modulo the width. -/
  ok (input : Bytes) (a : α) (rest : Bytes) :
    (Wire.decode : Decoder α) input = .ok (a, rest) ↔
      ∃ taken, input = taken ++ rest ∧ Numeral taken ∧ taken.length ≤ max ∧
        toInt a = (toNatGroups taken : Int).bmod (2 ^ width)
  /-- Bytes are missing where there are too few and each has its top bit. -/
  truncated (input : Bytes) (needed available : Nat) :
    (Wire.decode : Decoder α) input = .error (.truncated needed available) ↔
      (input.length < max ∧ ∀ b ∈ input, 128 ≤ b) ∧
        needed = input.length + 1 ∧ available = input.length
  /-- All other inputs are too long. -/
  tooLong (input : Bytes) (limit : Nat) :
    (Wire.decode : Decoder α) input = .error (.varNumTooLong limit) ↔
      (¬ (∃ b ∈ input.take max, b < 128) ∧ ¬ (input.length < max ∧ ∀ b ∈ input, 128 ≤ b)) ∧
        limit = max
  /-- What was read is written the same way if there is no shorter one and, at full length, no bit
  was dropped. -/
  written {taken rest : Bytes} {a : α} :
    (Wire.decode : Decoder α) (taken ++ rest) = .ok (a, rest) →
      (Wire.encode a = taken ↔
        IsLeast (readLengths a) taken.length ∧
          (taken.length = max → toNatGroups taken < 2 ^ width))
  /-- Among those that drop no bit, the ones that are too long end in an empty group. -/
  unpadded {taken rest : Bytes} {a : α} :
    (Wire.decode : Decoder α) (taken ++ rest) = .ok (a, rest) →
      (Wire.encode a = taken ↔
        Unpadded taken ∧ (taken.length = max → toNatGroups taken < 2 ^ width))
  /-- Shifting the groups into one word of 64 bits loses none of the bits that are kept. -/
  word {taken rest : Bytes} {a : α} :
    (Wire.decode : Decoder α) (taken ++ rest) = .ok (a, rest) →
      toInt a = ((Bytes.gather 0 0 taken).toNat : Int).bmod (2 ^ width)

theorem VarNumType.laws {α : Type} [Wire α] {width max : Nat} {toInt : α → Int} {bits : α → Nat}
    {ofBits : Nat → α} (h : VarNumType α width max bits ofBits)
    (signed : ∀ a, toInt a = (bits a : Int).bmod (2 ^ width)) (inWord : width ≤ 64)
    (places : max ≤ 10) (full : Nat.pow 128 (max - 1) ≤ 2 ^ width) :
    VarNumLaws α width max toInt where
  bounds a := by
    refine ⟨?_, h.length_encode_le a⟩
    rw [h.encode]
    exact (numeral_encodeVarNum _).length_pos
  least := h.isLeast_length_encode
  accepts := h.accepts_iff
  ok input a rest := by
    rw [h.decode_ok_iff]
    simp only [h.bits_eq_iff signed]
  truncated := h.truncated_iff
  tooLong := h.tooLong_iff
  written read := by
    obtain ⟨-, short, -⟩ := h.decode_append_iff.mp read
    exact (h.encode_eq_iff_isLeast read).trans (and_congr_right fun _ => fits_width_iff full short)
  unpadded read := by
    obtain ⟨-, short, -⟩ := h.decode_append_iff.mp read
    exact (h.encode_eq_iff read).trans (and_congr_right fun _ => fits_width_iff full short)
  word read := (h.bits_eq_iff signed).mp (h.bits_eq_gather inWord places read)

/-- **Integers are written in as few bytes as they can be read from, and every byte string is known
to be read or refused.** Writing gives back what was read, unless a shorter numeral would do or the
last group of a full number of them had bits that were dropped. -/
theorem integers_are_shortest :
    ((∀ v : VarInt, (Wire.encode v : Bytes).length = v.length) ∧
      ∀ v : VarLong, (Wire.encode v : Bytes).length = varNumLength v.value.toUInt64.toNat) ∧
    VarNumLaws VarInt 32 5 (·.value.toInt) ∧ VarNumLaws VarLong 64 10 (·.value.toInt) := by
  have signed (v : VarInt) := BitVec.toInt_eq_toNat_bmod v.value.toBitVec
  have signed' (v : VarLong) := BitVec.toInt_eq_toNat_bmod v.value.toBitVec
  refine ⟨⟨fun v => (varNumLength_eq _).symm, fun v => (varNumLength_eq _).symm⟩, ?_, ?_⟩
  · exact varIntType.laws signed (by decide) (by decide) (by decide)
  · exact varLongType.laws signed' (by decide) (by decide) (by decide)

/-- The last of five groups of ones has three bits that are dropped. -/
theorem minus_one_with_dropped_bits :
    (Wire.decode : Decoder VarInt) [255, 255, 255, 255, 127, 7] = .ok (⟨-1⟩, [7]) ∧
      Wire.encode (⟨-1⟩ : VarInt) ≠ [255, 255, 255, 255, 127] := by
  have read : (Wire.decode : Decoder VarInt) [255, 255, 255, 255, 127, 7] = .ok (⟨-1⟩, [7]) := rfl
  refine ⟨read, fun same => ?_⟩
  have laws := integers_are_shortest.2.1
  have small := ((@laws.written [255, 255, 255, 255, 127] [7] ⟨-1⟩ read).mp same).2 rfl
  exact absurd small (by decide)

end VoxelServer
