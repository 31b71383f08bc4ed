import VoxelServer.Proofs.Wire.VarNum
import VoxelServer.Text.ModifiedUtf8

/-!
# Reading modified UTF-8 back

A reader of the dialect tries plain UTF-8 first. Most texts are the same in both, and the two forms
that the dialect has of its own are no plain UTF-8, so that the first attempt either gives the text
that was written or fails:

* `ModifiedUtf8.Form`: the bytes of a character, by its size;
* `ModifiedUtf8.decodeDialect?_encodeChar`, `ModifiedUtf8.decodeFrom_encodeChar`: what the two
  readers make of the bytes of one character;
* `ModifiedUtf8.decode?_encode`: what was written is read back.
-/

namespace VoxelServer

namespace Utf8

variable {a b : UInt8}

theorem width_eq (a : UInt8) :
    width a = if a.toNat < 0x80 then 1 else if a.toNat < 0xC2 then 0 else if a.toNat < 0xE0 then 2
      else if a.toNat < 0xF0 then 3 else if a.toNat < 0xF5 then 4 else 0 := by
  simp [width, UInt8.lt_iff_toNat_lt]

theorem isTail_iff : isTail b = true ↔ 0x80 ≤ b.toNat ∧ b.toNat < 0xC0 := by
  simp [isTail, UInt8.lt_iff_toNat_lt, UInt8.le_iff_toNat_le]

/-- Second bytes of three. -/
theorem isSecond_iff (high : a.toNat < 0xF0) :
    isSecond a b = true ↔ (0x80 ≤ b.toNat ∧ b.toNat < 0xC0) ∧ (a.toNat = 0xE0 → 0xA0 ≤ b.toNat) ∧
      (a.toNat = 0xED → b.toNat < 0xA0) := by
  have low : a.toNat ≠ 0xF0 ∧ a.toNat ≠ 0xF4 := by omega
  simp only [isSecond, isTail, beq_iff_eq, ← UInt8.toNat_inj, UInt8.reduceToNat, low, if_false]
  repeat' split
  all_goals
    simp only [Bool.and_eq_true, decide_eq_true_eq, UInt8.lt_iff_toNat_lt, UInt8.le_iff_toNat_le,
      UInt8.reduceToNat]
    omega

end Utf8

namespace ModifiedUtf8

/-- The bytes of a character. -/
inductive Form (c : Char) : Bytes → Prop
  | zero (zero : c.toNat = 0) : Form c [0xC0, 0x80]
  | one (low : 0 < c.toNat) (high : c.toNat < 0x80) : Form c [UInt8.ofNat c.toNat]
  | two (low : 0x80 ≤ c.toNat) (high : c.toNat < 0x800) :
      Form c [UInt8.ofNat (0xC0 + c.toNat / 64), UInt8.ofNat (0x80 + c.toNat % 64)]
  | three (low : 0x800 ≤ c.toNat) (high : c.toNat < 0x10000) : Form c (encodeUnit c.toNat)
  | pair (low : 0x10000 ≤ c.toNat) :
      Form c (encodeUnit (0xD800 + (c.toNat - 0x10000) / 1024) ++
        encodeUnit (0xDC00 + (c.toNat - 0x10000) % 1024))

theorem form_encodeChar (c : Char) : Form c (encodeChar c) := by
  unfold encodeChar
  dsimp only
  split
  · rename_i zero
    exact .zero (by simpa using zero)
  rename_i nonzero
  have low : 0 < c.toNat := by simp at nonzero; omega
  split
  · rename_i high
    unfold String.utf8EncodeChar
    simp only [show c.val.toNat = c.toNat from rfl]
    by_cases one : c.toNat ≤ 127
    · rw [if_pos one]
      exact .one low (by omega)
    rw [if_neg one]
    by_cases two : c.toNat ≤ 2047
    · rw [if_pos two, show c.toNat / 64 % 32 + 192 = 0xC0 + c.toNat / 64 by omega,
        Nat.add_comm (c.toNat % 64)]
      exact .two (by omega) (by omega)
    · rw [if_neg two, if_pos (by omega), Nat.add_comm _ 224, Nat.add_comm (c.toNat / 64 % 64),
        Nat.add_comm (c.toNat % 64)]
      exact .three (by omega) high
  · exact .pair (by omega)

/-- What the three bytes of a unit are, and what they are put together to. -/
structure UnitBytes (unit : Nat) (a b c : UInt8) : Prop where
  width : Utf8.width a = 3
  tail : Utf8.isTail c = true
  second : Utf8.isSecond a b = true ↔ 0x800 ≤ unit ∧ (unit < 0xD800 ∨ 0xE000 ≤ unit)
  lead : a.toNat = 0xE0 + unit / 4096
  middle : b.toNat = 0x80 + unit / 64 % 64
  value : Utf8.shiftIn (Utf8.shiftIn (a.toNat % 16) b) c = unit

theorem encodeUnit_eq {unit : Nat} (fits : unit < 0x10000) :
    ∃ a b c, encodeUnit unit = [a, b, c] ∧ UnitBytes unit a b c := by
  refine ⟨_, _, _, rfl, ?_⟩
  have lead : (UInt8.ofNat (0xE0 + unit / 4096 % 16)).toNat = 0xE0 + unit / 4096 := by
    rw [toNat_ofNat_byte (by omega)]
    omega
  have middle : (UInt8.ofNat (0x80 + unit / 64 % 64)).toNat = 0x80 + unit / 64 % 64 :=
    toNat_ofNat_byte (by omega)
  have last : (UInt8.ofNat (0x80 + unit % 64)).toNat = 0x80 + unit % 64 :=
    toNat_ofNat_byte (by omega)
  refine ⟨?_, ?_, ?_, lead, middle, ?_⟩
  · rw [Utf8.width_eq, lead, if_neg (by omega), if_neg (by omega), if_neg (by omega),
      if_pos (by omega)]
  · rw [Utf8.isTail_iff, last]
    omega
  · rw [Utf8.isSecond_iff (by omega), lead, middle]
    omega
  · simp only [Utf8.shiftIn, lead, middle, last]
    omega

/-- A unit that is a character of its own. -/
theorem decodeDialect?_unit {unit : Nat} (low : 0x800 ≤ unit) (fits : unit < 0x10000)
    (character : unit < 0xD800 ∨ 0xE000 ≤ unit) (rest : Bytes) :
    decodeDialect? (encodeUnit unit ++ rest) = (Char.ofNat unit :: ·) <$> decodeDialect? rest := by
  obtain ⟨a, b, c, bytes, h⟩ := encodeUnit_eq fits
  have second := h.second.mpr ⟨low, character⟩
  rw [bytes, List.cons_append, List.cons_append, List.cons_append, List.nil_append,
    decodeDialect?.eq_def]
  simp only [h.width, h.tail, h.value, second, Bool.and_self, if_true]

theorem decodeFrom_unit (i : Nat) {unit : Nat} (low : 0x800 ≤ unit) (fits : unit < 0x10000)
    (character : unit < 0xD800 ∨ 0xE000 ≤ unit) (rest : Bytes) :
    Utf8.decodeFrom i (encodeUnit unit ++ rest) =
      (Char.ofNat unit :: ·) <$> Utf8.decodeFrom (i + 3) rest := by
  obtain ⟨a, b, c, bytes, h⟩ := encodeUnit_eq fits
  have second := h.second.mpr ⟨low, character⟩
  rw [bytes, List.cons_append, List.cons_append, List.cons_append, List.nil_append,
    Utf8.decodeFrom.eq_def]
  simp [h.width, h.tail, h.value, second]

/-- The two halves of a pair. -/
theorem decodeDialect?_pair {high low : Nat} (fitsHigh : high < 1024) (fitsLow : low < 1024)
    (rest : Bytes) :
    decodeDialect? (encodeUnit (0xD800 + high) ++ encodeUnit (0xDC00 + low) ++ rest) =
      (Char.ofNat (0x10000 + high * 1024 + low) :: ·) <$> decodeDialect? rest := by
  obtain ⟨a, b, c, bytes, h⟩ := @encodeUnit_eq (0xD800 + high) (by omega)
  obtain ⟨d, e, f, bytes', h'⟩ := @encodeUnit_eq (0xDC00 + low) (by omega)
  have lead : (a == 0xED) = true ∧ (d == 0xED) = true := by
    simp only [beq_iff_eq, ← UInt8.toNat_inj, h.lead, h'.lead, UInt8.reduceToNat]
    omega
  have upper : (0xA0 ≤ b ∧ b < 0xB0) ∧ 0xB0 ≤ e ∧ e < 0xC0 := by
    simp only [UInt8.le_iff_toNat_le, UInt8.lt_iff_toNat_lt, h.middle, h'.middle,
      UInt8.reduceToNat]
    omega
  have second : Utf8.isSecond a b = false := by
    rw [Bool.eq_false_iff, ne_eq, h.second]
    omega
  have value : Utf8.shiftIn (e.toNat % 16) f = low := by
    have all := h'.value
    have middle := h'.middle
    have lead := h'.lead
    simp only [Utf8.shiftIn] at all ⊢
    omega
  have top : (0xD800 + high) % 1024 = high := by omega
  rw [bytes, bytes']
  simp only [List.cons_append, List.nil_append]
  rw [decodeDialect?.eq_def]
  simp only [h.width, h.tail, h'.tail, h.value, second, lead, upper, value, top, decide_true,
    Bool.and_self, Bool.false_and, Bool.false_eq_true, if_false, if_true]

/-- Plain UTF-8 has no halves of pairs. -/
theorem decodeFrom_surrogate (i : Nat) {high : Nat} (fits : high < 1024) (rest : Bytes) :
    Utf8.decodeFrom i (encodeUnit (0xD800 + high) ++ rest) = .error ⟨i, some 1⟩ := by
  obtain ⟨a, b, c, bytes, h⟩ := @encodeUnit_eq (0xD800 + high) (by omega)
  have second : Utf8.isSecond a b = false := by
    rw [Bool.eq_false_iff, ne_eq, h.second]
    omega
  rw [bytes, List.cons_append, List.cons_append, List.cons_append, List.nil_append,
    Utf8.decodeFrom.eq_def]
  simp [h.width, second]

/-- A character of one byte. -/
theorem oneByte {n : Nat} (high : n < 0x80) :
    (UInt8.ofNat n).toNat = n ∧ Utf8.width (UInt8.ofNat n) = 1 := by
  have value : (UInt8.ofNat n).toNat = n := toNat_ofNat_byte (by omega)
  rw [Utf8.width_eq, value, if_pos high]
  exact ⟨rfl, rfl⟩

/-- A character of two bytes. -/
theorem twoBytes {n : Nat} (low : 0x80 ≤ n) (high : n < 0x800) :
    ∃ a b, UInt8.ofNat (0xC0 + n / 64) = a ∧ UInt8.ofNat (0x80 + n % 64) = b ∧
      Utf8.width a = 2 ∧ Utf8.isSecond a b = true ∧ Utf8.isTail b = true ∧
      Utf8.shiftIn (a.toNat % 32) b = n := by
  have lead : (UInt8.ofNat (0xC0 + n / 64)).toNat = 0xC0 + n / 64 := toNat_ofNat_byte (by omega)
  have last : (UInt8.ofNat (0x80 + n % 64)).toNat = 0x80 + n % 64 := toNat_ofNat_byte (by omega)
  refine ⟨_, _, rfl, rfl, ?_, ?_, ?_, ?_⟩
  · rw [Utf8.width_eq, lead, if_neg (by omega), if_neg (by omega), if_pos (by omega)]
  · rw [Utf8.isSecond_iff (by omega), lead, last]
    omega
  · rw [Utf8.isTail_iff, last]
    omega
  · simp only [Utf8.shiftIn, lead, last]
    omega

theorem toNat_char (c : Char) : c.toNat < 0xD800 ∨ 0xE000 ≤ c.toNat ∧ c.toNat < 0x110000 := by
  obtain low | ⟨high, last⟩ := c.valid
  · exact .inl low
  · exact .inr ⟨high, last⟩

/-- The dialect's reader reads every character. -/
theorem decodeDialect?_encodeChar (c : Char) (rest : Bytes) :
    decodeDialect? (encodeChar c ++ rest) = (c :: ·) <$> decodeDialect? rest := by
  have range := toNat_char c
  have form := form_encodeChar c
  generalize encodeChar c = bytes at form
  cases form with
  | zero zero =>
    obtain rfl : c = Char.ofNat 0 := by rw [← zero, Char.ofNat_toNat]
    rfl
  | one low high =>
    obtain ⟨value, width⟩ := oneByte high
    rw [List.singleton_append, decodeDialect?.eq_def]
    simp only [width, value, Char.ofNat_toNat]
  | two low high =>
    obtain ⟨a, b, lead, last, width, -, tail, value⟩ := twoBytes low high
    rw [lead, last, List.cons_append, List.singleton_append, decodeDialect?.eq_def]
    simp only [width, tail, value, Char.ofNat_toNat, if_true]
  | three low high =>
    rw [decodeDialect?_unit low high (by omega), Char.ofNat_toNat]
  | pair low =>
    have whole : 0x10000 + (c.toNat - 0x10000) / 1024 * 1024 + (c.toNat - 0x10000) % 1024 =
        c.toNat := by omega
    rw [decodeDialect?_pair (by omega) (by omega), whole, Char.ofNat_toNat]

/-- The reader of plain UTF-8 either reads a character or refuses the bytes. -/
theorem decodeFrom_encodeChar (i : Nat) (c : Char) (rest : Bytes) :
    (∃ fault, Utf8.decodeFrom i (encodeChar c ++ rest) = .error fault) ∨
      ∃ j, Utf8.decodeFrom i (encodeChar c ++ rest) = (c :: ·) <$> Utf8.decodeFrom j rest := by
  have range := toNat_char c
  have form := form_encodeChar c
  generalize encodeChar c = bytes at form
  cases form with
  | zero zero => exact .inl ⟨_, rfl⟩
  | one low high =>
    obtain ⟨value, width⟩ := oneByte high
    refine .inr ⟨i + 1, ?_⟩
    rw [List.singleton_append, Utf8.decodeFrom.eq_def]
    simp only [width, value, Char.ofNat_toNat]
  | two low high =>
    obtain ⟨a, b, lead, last, width, second, -, value⟩ := twoBytes low high
    refine .inr ⟨i + 2, ?_⟩
    rw [lead, last, List.cons_append, List.singleton_append, Utf8.decodeFrom.eq_def]
    simp [width, second, value, Char.ofNat_toNat]
  | three low high =>
    refine .inr ⟨i + 3, ?_⟩
    rw [decodeFrom_unit i low high (by omega), Char.ofNat_toNat]
  | pair low =>
    have high : (c.toNat - 0x10000) / 1024 < 1024 := by omega
    rw [List.append_assoc]
    exact .inl ⟨_, decodeFrom_surrogate i high _⟩

/-! ## Texts -/

theorem decodeDialect?_encode (chars : List Char) :
    decodeDialect? (chars.flatMap encodeChar) = some chars := by
  induction chars with
  | nil => rfl
  | cons c chars ih =>
    rw [List.flatMap_cons, decodeDialect?_encodeChar, ih]
    rfl

theorem decodeFrom_encode {i : Nat} {chars read : List Char}
    (ok : Utf8.decodeFrom i (chars.flatMap encodeChar) = .ok read) : read = chars := by
  induction chars generalizing i read with
  | nil =>
    cases ok
    rfl
  | cons c chars ih =>
    rw [List.flatMap_cons] at ok
    obtain ⟨fault, refused⟩ | ⟨j, first⟩ := decodeFrom_encodeChar i c (chars.flatMap encodeChar)
    · rw [refused] at ok
      cases ok
    · rw [first] at ok
      cases others : Utf8.decodeFrom j (chars.flatMap encodeChar) with
      | error fault =>
        rw [others] at ok
        cases ok
      | ok read =>
        rw [others] at ok
        cases ok
        rw [ih others]

/-- What was written in the dialect is read back, by whichever reader comes first. -/
theorem decode?_encode (text : String) : decode? (encode text) = some text := by
  unfold decode? Utf8.decode encode
  cases read : Utf8.decodeFrom 0 (text.toList.flatMap encodeChar) with
  | ok chars =>
    obtain rfl := decodeFrom_encode read
    exact congrArg some String.ofList_toList
  | error fault =>
    rw [decodeDialect?_encode]
    exact congrArg some String.ofList_toList

end ModifiedUtf8

end VoxelServer
