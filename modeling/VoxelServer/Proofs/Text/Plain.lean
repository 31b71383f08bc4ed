import VoxelServer.Proofs.Text.Dialect

/-!
# Reading UTF-8 back

* `Utf8.decodeFrom_encodeChar`: the reader takes the bytes of one character as that character;
* `Utf8.decode_encode`: a text that was written is read back.
-/

namespace VoxelServer.Utf8

open ModifiedUtf8 (oneByte twoBytes decodeFrom_unit encodeUnit toNat_char)

/-- The bytes of a character, by its size. -/
inductive Form (c : Char) : Bytes → Prop
  | one (high : c.toNat < 0x80) : Form c [UInt8.ofNat c.toNat]
  | two (low : 0x80 ≤ c.toNat) (high : c.toNat < 0x800) :
      Form c [UInt8.ofNat (0xC0 + c.toNat / 64), UInt8.ofNat (0x80 + c.toNat % 64)]
  | three (low : 0x800 ≤ c.toNat) (high : c.toNat < 0x10000) : Form c (encodeUnit c.toNat)
  | four (low : 0x10000 ≤ c.toNat) :
      Form c [UInt8.ofNat (0xF0 + c.toNat / 262144), UInt8.ofNat (0x80 + c.toNat / 4096 % 64),
        UInt8.ofNat (0x80 + c.toNat / 64 % 64), UInt8.ofNat (0x80 + c.toNat % 64)]

theorem form_encodeChar (c : Char) : Form c (String.utf8EncodeChar c) := by
  have range := toNat_char c
  unfold String.utf8EncodeChar
  simp only [show c.val.toNat = c.toNat from rfl]
  by_cases one : c.toNat ≤ 127
  · rw [if_pos one]
    exact .one (by omega)
  rw [if_neg one]
  by_cases two : c.toNat ≤ 2047
  · rw [if_pos two, show c.toNat / 64 % 32 + 192 = 0xC0 + c.toNat / 64 by omega,
      Nat.add_comm (c.toNat % 64)]
    exact .two (by omega) (by omega)
  rw [if_neg two]
  by_cases three : c.toNat ≤ 65535
  · rw [if_pos three, Nat.add_comm _ 224, Nat.add_comm (c.toNat / 64 % 64),
      Nat.add_comm (c.toNat % 64)]
    exact .three (by omega) (by omega)
  · rw [if_neg three, show c.toNat / 262144 % 8 + 240 = 0xF0 + c.toNat / 262144 by omega,
      Nat.add_comm (c.toNat / 4096 % 64), Nat.add_comm (c.toNat / 64 % 64),
      Nat.add_comm (c.toNat % 64)]
    exact .four (by omega)

/-- Second bytes of four. -/
theorem isSecond_four {a b : UInt8} (low : 0xF0 ≤ a.toNat) (tail : 0x80 ≤ b.toNat ∧ b.toNat < 0xC0)
    (first : a.toNat = 0xF0 → 0x90 ≤ b.toNat) (last : a.toNat = 0xF4 → b.toNat < 0x90) :
    isSecond a b = true := by
  have high : a.toNat ≠ 0xE0 ∧ a.toNat ≠ 0xED := by omega
  simp only [isSecond, isTail, beq_iff_eq, ← UInt8.toNat_inj, UInt8.reduceToNat, high, if_false]
  repeat' split
  all_goals
    simp only [Bool.and_eq_true, decide_eq_true_eq, UInt8.lt_iff_toNat_lt, UInt8.le_iff_toNat_le,
      UInt8.reduceToNat]
    omega

/-- A character of four bytes. -/
theorem fourBytes {n : Nat} (low : 0x10000 ≤ n) (high : n < 0x110000) :
    ∃ a b c d, UInt8.ofNat (0xF0 + n / 262144) = a ∧ UInt8.ofNat (0x80 + n / 4096 % 64) = b ∧
      UInt8.ofNat (0x80 + n / 64 % 64) = c ∧ UInt8.ofNat (0x80 + n % 64) = d ∧
      width a = 4 ∧ isSecond a b = true ∧ isTail c = true ∧ isTail d = true ∧
      shiftIn (shiftIn (shiftIn (a.toNat % 8) b) c) d = n := by
  have lead : (UInt8.ofNat (0xF0 + n / 262144)).toNat = 0xF0 + n / 262144 :=
    toNat_ofNat_byte (by omega)
  have tail (m : Nat) : (UInt8.ofNat (0x80 + m % 64)).toNat = 0x80 + m % 64 :=
    toNat_ofNat_byte (by omega)
  refine ⟨_, _, _, _, rfl, rfl, rfl, rfl, ?_, ?_, ?_, ?_, ?_⟩
  · rw [width_eq, lead, if_neg (by omega), if_neg (by omega), if_neg (by omega),
      if_neg (by omega), if_pos (by omega)]
  · have middle := tail (n / 4096)
    exact isSecond_four (by omega) (by omega) (by omega) (by omega)
  · rw [isTail_iff, tail]
    omega
  · rw [isTail_iff, tail]
    omega
  · simp only [shiftIn, lead, tail]
    omega

theorem decodeFrom_encodeChar (i : Nat) (c : Char) (rest : Bytes) :
    ∃ j, decodeFrom i (String.utf8EncodeChar c ++ rest) = (c :: ·) <$> decodeFrom j rest := by
  have range := toNat_char c
  have form := form_encodeChar c
  generalize String.utf8EncodeChar c = bytes at form
  cases form with
  | one high =>
    obtain ⟨value, width⟩ := oneByte high
    refine ⟨i + 1, ?_⟩
    rw [List.singleton_append, decodeFrom.eq_def]
    simp only [width, value, Char.ofNat_toNat]
  | two low high =>
    obtain ⟨a, b, lead, last, width, second, -, value⟩ := twoBytes low high
    refine ⟨i + 2, ?_⟩
    rw [lead, last, List.cons_append, List.singleton_append, decodeFrom.eq_def]
    simp [width, second, value, Char.ofNat_toNat]
  | three low high =>
    refine ⟨i + 3, ?_⟩
    rw [decodeFrom_unit i low high (by omega), Char.ofNat_toNat]
  | four low =>
    obtain ⟨a, b, c', d, lead, middle, third, last, width, second, tail, tail', value⟩ :=
      fourBytes low (by omega)
    refine ⟨i + 4, ?_⟩
    rw [lead, middle, third, last, List.cons_append, List.cons_append, List.cons_append,
      List.singleton_append, decodeFrom.eq_def]
    simp [width, second, tail, tail', value, Char.ofNat_toNat]

theorem decodeFrom_encode (i : Nat) (chars : List Char) :
    decodeFrom i (chars.flatMap String.utf8EncodeChar) = .ok chars := by
  induction chars generalizing i with
  | nil => rfl
  | cons c chars ih =>
    obtain ⟨j, first⟩ := decodeFrom_encodeChar i c (chars.flatMap String.utf8EncodeChar)
    rw [List.flatMap_cons, first, ih j]
    rfl

/-- A text that was written is read back. -/
theorem decode_encode (text : String) : decode (encode text) = .ok text := by
  rw [decode, encode, decodeFrom_encode]
  exact congrArg Except.ok String.ofList_toList

end VoxelServer.Utf8
