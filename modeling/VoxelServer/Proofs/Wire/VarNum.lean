import VoxelServer.Proofs.Computations
import VoxelServer.Proofs.Wire.Delimiting
import VoxelServer.Proofs.Wire.Numeral

/-!
# Integers of variable length

What reading such an integer has to do with the bytes behind it, and with writing it:

* `VarNumType`: the types whose integers are written as numerals, of 32 and of 64 bits. What holds
  of numerals holds of both;
* `VarNumType.selfDelimiting`: bytes behind an integer change neither its value nor a final refusal;
* `VarNumType.reads`: an integer that was written is read back, whatever follows it.
-/

namespace VoxelServer

open Bytes (toNatGroups)

/-- A type whose values are words of `width` bits, written as numerals in at most `max` bytes. -/
structure VarNumType (α : Type) [Wire α] (width max : Nat) (bits : α → Nat) (ofBits : Nat → α) :
    Prop where
  encode (a : α) : Wire.encode a = encodeVarNum (bits a)
  decode : (Wire.decode : Decoder α) = do return ofBits (← decodeVarNum max)
  bits_ofBits (n : Nat) : bits (ofBits n) = n % Nat.pow 2 width
  ofBits_bits (a : α) : ofBits (bits a) = a
  present : 0 < max
  room : Nat.pow 2 width ≤ Nat.pow 128 max

namespace VarNumType

variable {α : Type} [Wire α] {width max : Nat} {bits : α → Nat} {ofBits : Nat → α}

theorem bits_lt (h : VarNumType α width max bits ofBits) (a : α) : bits a < Nat.pow 2 width := by
  rw [← h.ofBits_bits a, h.bits_ofBits]
  exact Nat.mod_lt _ (Nat.pow_pos (by decide))

theorem ofBits_eq_iff (h : VarNumType α width max bits ofBits) {a : α} {n : Nat} :
    ofBits n = a ↔ bits a = n % Nat.pow 2 width := by
  constructor
  · rintro rfl
    exact h.bits_ofBits n
  · intro same
    rw [← h.bits_ofBits n] at same
    rw [← h.ofBits_bits a, same, h.ofBits_bits]

/-! ### Reading -/

theorem decode_eq (h : VarNumType α width max bits ofBits) (input : Bytes) :
    (Wire.decode : Decoder α) input =
      (fun r => (ofBits r.1, r.2)) <$> decodeVarNumFrom max 0 max input := by
  rw [h.decode]
  simp only [decodeVarNum, bind, StateT.bind, Except.bind]
  cases decodeVarNumFrom max 0 max input <;> rfl

/-- What is read is the word of the numeral at the front, if it is short enough. -/
theorem decode_ok_iff (h : VarNumType α width max bits ofBits) {input : Bytes} {a : α}
    {rest : Bytes} :
    (Wire.decode : Decoder α) input = .ok (a, rest) ↔
      ∃ taken, input = taken ++ rest ∧ Numeral taken ∧ taken.length ≤ max ∧
        bits a = toNatGroups taken % Nat.pow 2 width := by
  rw [h.decode_eq]
  constructor
  · intro read
    obtain ⟨⟨n, left⟩, front, same⟩ := exists_of_map_ok read
    obtain ⟨value, rfl⟩ := Prod.mk.inj same
    obtain ⟨taken, split, numeral, short, rfl⟩ := decodeVarNumFrom_ok_iff.mp front
    exact ⟨taken, split, numeral, short, h.ofBits_eq_iff.mp value⟩
  · rintro ⟨taken, rfl, numeral, short, value⟩
    rw [numeral.decode max 0 short rest, ← h.ofBits_eq_iff.mpr value]
    rfl

/-- An input is refused if its first bytes all have the top bit, for want of bytes where it has no
others. -/
theorem decode_error_iff (h : VarNumType α width max bits ofBits) {input : Bytes}
    {e : CodecError} :
    (Wire.decode : Decoder α) input = .error e ↔
      (∀ b ∈ input.take max, 128 ≤ b) ∧
        e = if input.length < max then .truncated (input.length + 1) input.length
          else .varNumTooLong max := by
  have refused := @decodeVarNumFrom_error_iff max 0 max input e
  rw [Nat.zero_add] at refused
  rw [h.decode_eq, ← refused]
  constructor
  · exact error_of_map_error
  · intro read
    rw [read]
    rfl

theorem decode_append_iff (h : VarNumType α width max bits ofBits) {taken : Bytes} {a : α}
    {rest : Bytes} :
    (Wire.decode : Decoder α) (taken ++ rest) = .ok (a, rest) ↔
      Numeral taken ∧ taken.length ≤ max ∧ bits a = toNatGroups taken % Nat.pow 2 width := by
  rw [h.decode_ok_iff]
  constructor
  · rintro ⟨taken', same, read⟩
    rwa [List.append_cancel_right same]
  · intro read
    exact ⟨taken, rfl, read⟩

/-- Bytes are missing only where there are fewer than an integer can have. -/
theorem length_of_incomplete (h : VarNumType α width max bits ofBits) {input : Bytes}
    {e : CodecError} (refused : (Wire.decode : Decoder α) input = .error e)
    (missing : e.isIncomplete = true) : input.length < max := by
  obtain ⟨-, rfl⟩ := h.decode_error_iff.mp refused
  by_cases short : input.length < max
  · exact short
  · rw [if_neg short] at missing
    cases missing

theorem selfDelimiting (h : VarNumType α width max bits ofBits) :
    (Wire.decode : Decoder α).SelfDelimiting where
  ok {input a rest} read := by
    obtain ⟨taken, rfl, numeral, short, value⟩ := h.decode_ok_iff.mp read
    refine ⟨List.suffix_append taken rest, fun more => ?_⟩
    rw [List.append_assoc, h.decode_append_iff]
    exact ⟨numeral, short, value⟩
  error {input e} refused final more := by
    obtain ⟨continued, rfl⟩ := h.decode_error_iff.mp refused
    by_cases short : input.length < max
    · rw [if_pos short] at final
      cases final
    · have same : (input ++ more).take max = input.take max :=
        List.take_append_of_le_length (Nat.not_lt.mp short)
      have long : ¬ (input ++ more).length < max := by
        rw [List.length_append]
        omega
      rw [h.decode_error_iff, same, if_neg short, if_neg long]
      exact ⟨continued, rfl⟩

/-! ### Writing -/

theorem length_encode_le (h : VarNumType α width max bits ofBits) (a : α) :
    (Wire.encode a : Bytes).length ≤ max := by
  rw [h.encode]
  exact length_encodeVarNum_le h.present (Nat.lt_of_lt_of_le (h.bits_lt a) h.room)

/-- An integer that was written is read back, whatever follows it. -/
theorem reads (h : VarNumType α width max bits ofBits) (a : α) (rest : Bytes) :
    (Wire.decode : Decoder α) (Wire.encode a ++ rest) = .ok (a, rest) := by
  have short := h.length_encode_le a
  rw [h.encode] at short
  rw [h.encode, h.decode_append_iff, toNatGroups_encodeVarNum, Nat.mod_eq_of_lt (h.bits_lt a)]
  exact ⟨numeral_encodeVarNum (bits a), short, rfl⟩

end VarNumType

/-! ## Integers of 32 and of 64 bits -/

theorem varIntType : VarNumType VarInt 32 5 (·.value.toUInt32.toNat) (⟨Int32.ofNat ·⟩) where
  encode _ := rfl
  decode := rfl
  bits_ofBits _ := UInt32.toNat_ofNat'
  ofBits_bits v := congrArg VarInt.mk (Int32.ofNat_bitVecToNat v.value.toBitVec)
  present := by decide
  room := by decide

theorem varLongType : VarNumType VarLong 64 10 (·.value.toUInt64.toNat) (⟨Int64.ofNat ·⟩) where
  encode _ := rfl
  decode := rfl
  bits_ofBits _ := UInt64.toNat_ofNat'
  ofBits_bits v := congrArg VarLong.mk (Int64.ofNat_bitVecToNat v.value.toBitVec)
  present := by decide
  room := by decide

theorem varInt_selfDelimiting : (Wire.decode : Decoder VarInt).SelfDelimiting :=
  varIntType.selfDelimiting

theorem varLong_selfDelimiting : (Wire.decode : Decoder VarLong).SelfDelimiting :=
  varLongType.selfDelimiting

/-- An integer has bytes of its own, and is read off them whatever comes next. -/
theorem front_of_varInt {input : Bytes} {v : VarInt} {rest : Bytes}
    (h : (Wire.decode : Decoder VarInt) input = .ok (v, rest)) :
    ∃ field, input = field ++ rest ∧ 0 < field.length ∧ field.length ≤ 5 ∧
      ∀ more, (Wire.decode : Decoder VarInt) (field ++ more) = .ok (v, more) := by
  obtain ⟨field, rfl, numeral, short, value⟩ := varIntType.decode_ok_iff.mp h
  refine ⟨field, rfl, numeral.length_pos, short, fun more => ?_⟩
  exact varIntType.decode_append_iff.mpr ⟨numeral, short, value⟩

theorem length_of_varInt_incomplete {input : Bytes} {e : CodecError}
    (h : (Wire.decode : Decoder VarInt) input = .error e) (missing : e.isIncomplete = true) :
    input.length < 5 :=
  varIntType.length_of_incomplete h missing

theorem decode_varInt (v : VarInt) (rest : Bytes) :
    (Wire.decode : Decoder VarInt) (Wire.encode v ++ rest) = .ok (v, rest) :=
  varIntType.reads v rest

/-- An integer takes at most five bytes. -/
theorem length_varInt_le (v : VarInt) : (Wire.encode v).length ≤ 5 :=
  varIntType.length_encode_le v

/-- A length that fits 31 bits is not changed by being written. -/
theorem toInt_ofLength {n : Nat} (h : n < 2147483648) : (VarInt.ofLength n).value.toInt = n :=
  Int32.toInt_ofNat_of_lt h

end VoxelServer
