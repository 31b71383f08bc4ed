import VoxelServer.Wire.Number

/-!
# The bytes of an integer

Which bytes are read as an integer of variable length, and which are written for one:

* `Numeral`: the bytes of exactly one integer, and `Bytes.toNatGroups`, the number they stand for;
* `decodeVarNumFrom_ok_iff` and `decodeVarNumFrom_error_iff`: what is made of any input. It starts
  with at most one numeral, and is refused only where it starts with none that is short enough;
* `encodeVarNum_eq_iff`: of all numerals of a number the one without empty groups at its end is
  written.
-/

namespace VoxelServer

/-- The number that the low seven bits of each byte make up, least significant group first. -/
def Bytes.toNatGroups : Bytes → Nat
  | [] => 0
  | b :: bytes => b.toNat % 128 + 128 * toNatGroups bytes

/-- The bytes of one integer: the top bit is set in all of them but the last. -/
inductive Numeral : Bytes → Prop
  | last {b : UInt8} : b < 128 → Numeral [b]
  | more {b : UInt8} {bytes : Bytes} : 128 ≤ b → Numeral bytes → Numeral (b :: bytes)

open Bytes (toNatGroups)

theorem ends_iff {b : UInt8} : b < 128 ↔ b.toNat < 128 := UInt8.lt_iff_toNat_lt

theorem continues_iff {b : UInt8} : 128 ≤ b ↔ 128 ≤ b.toNat := UInt8.le_iff_toNat_le

theorem toNatGroups_singleton {b : UInt8} (ends : b < 128) : toNatGroups [b] = b.toNat :=
  Nat.mod_eq_of_lt (ends_iff.mp ends)

namespace Numeral

variable {bytes : Bytes}

theorem length_pos (h : Numeral bytes) : 0 < bytes.length := by
  cases h with
  | last | more => exact Nat.zero_lt_succ _

theorem exists_last (h : Numeral bytes) : ∃ b ∈ bytes, b < 128 := by
  induction h with
  | last small => exact ⟨_, List.mem_singleton_self _, small⟩
  | more _ _ ih =>
    obtain ⟨b, member, small⟩ := ih
    exact ⟨b, List.mem_cons_of_mem _ member, small⟩

/-- The first byte without its top bit ends the numeral that an input starts with. -/
theorem exists_front {left : Nat} {input : Bytes} (ends : ∃ b ∈ input.take left, b < 128) :
    ∃ taken rest, input = taken ++ rest ∧ Numeral taken ∧ taken.length ≤ left := by
  induction left generalizing input with
  | zero => simp at ends
  | succ left ih =>
    cases input with
    | nil => simp at ends
    | cons b input =>
      by_cases small : b < 128
      · exact ⟨[b], input, rfl, .last small, by simp⟩
      · rw [List.take_succ_cons] at ends
        obtain ⟨c, member, ends⟩ := ends
        have later : c ∈ input.take left := by
          cases member with
          | head => exact absurd ends small
          | tail _ later => exact later
        obtain ⟨taken, rest, rfl, numeral, short⟩ := ih ⟨c, later, ends⟩
        exact ⟨b :: taken, rest, rfl, .more (UInt8.not_lt.mp small) numeral,
          Nat.succ_le_succ short⟩

end Numeral

/-! ## Reading -/

theorem Numeral.decode {taken : Bytes} (h : Numeral taken) (max seen : Nat) {left : Nat}
    (short : taken.length ≤ left) (rest : Bytes) :
    decodeVarNumFrom max seen left (taken ++ rest) = .ok (toNatGroups taken, rest) := by
  induction h generalizing seen left with
  | last small =>
    cases left with
    | zero => simp at short
    | succ left =>
      rw [List.singleton_append, decodeVarNumFrom, if_pos small, toNatGroups_singleton small]
  | more continued _ ih =>
    cases left with
    | zero => simp at short
    | succ left =>
      rw [List.cons_append, decodeVarNumFrom, if_neg (UInt8.not_lt.mpr continued),
        ih (seen + 1) (Nat.le_of_succ_le_succ short)]
      rfl

theorem numeral_of_decode {max seen left : Nat} {input : Bytes} {n : Nat} {rest : Bytes}
    (h : decodeVarNumFrom max seen left input = .ok (n, rest)) :
    ∃ taken, input = taken ++ rest ∧ Numeral taken ∧ taken.length ≤ left ∧
      toNatGroups taken = n := by
  induction left generalizing seen input n rest with
  | zero => cases h
  | succ left ih =>
    cases input with
    | nil => cases h
    | cons b input =>
      rw [decodeVarNumFrom] at h
      by_cases small : b < 128
      · rw [if_pos small] at h
        cases h
        exact ⟨[b], rfl, .last small, by simp, toNatGroups_singleton small⟩
      · rw [if_neg small] at h
        cases read : decodeVarNumFrom max (seen + 1) left input with
        | error e =>
          rw [read] at h
          cases h
        | ok r =>
          obtain ⟨taken, rfl, numeral, short, value⟩ := ih read
          rw [read] at h
          cases h
          refine ⟨b :: taken, rfl, .more (UInt8.not_lt.mp small) numeral,
            Nat.succ_le_succ short, ?_⟩
          rw [toNatGroups, value]

/-- What is read is the numeral at the front, if it is short enough. -/
theorem decodeVarNumFrom_ok_iff {max seen left : Nat} {input : Bytes} {n : Nat} {rest : Bytes} :
    decodeVarNumFrom max seen left input = .ok (n, rest) ↔
      ∃ taken, input = taken ++ rest ∧ Numeral taken ∧ taken.length ≤ left ∧
        toNatGroups taken = n := by
  constructor
  · exact numeral_of_decode
  · rintro ⟨taken, rfl, numeral, short, rfl⟩
    exact numeral.decode max seen short rest

theorem decodeVarNumFrom_of_continued {max seen left : Nat} {input : Bytes}
    (continued : ∀ b ∈ input.take left, 128 ≤ b) :
    decodeVarNumFrom max seen left input =
      .error (if input.length < left then .truncated (seen + input.length + 1) (seen + input.length)
        else .varNumTooLong max) := by
  induction left generalizing seen input with
  | zero => rfl
  | succ left ih =>
    cases input with
    | nil => rfl
    | cons b input =>
      rw [List.take_succ_cons] at continued
      have here : ¬ b < 128 := UInt8.not_lt.mpr (continued b List.mem_cons_self)
      have later : decodeVarNumFrom max (seen + 1) left input = _ :=
        ih fun c member => continued c (List.mem_cons_of_mem b member)
      rw [decodeVarNumFrom, if_neg here, later, List.length_cons]
      simp only [Nat.succ_lt_succ_iff, Nat.add_assoc, Nat.add_comm 1]
      rfl

/-- An input is refused if its first bytes all have the top bit, for want of bytes where it has no
others. -/
theorem decodeVarNumFrom_error_iff {max seen left : Nat} {input : Bytes} {e : CodecError} :
    decodeVarNumFrom max seen left input = .error e ↔
      (∀ b ∈ input.take left, 128 ≤ b) ∧
        e = if input.length < left then
            .truncated (seen + input.length + 1) (seen + input.length)
          else .varNumTooLong max := by
  constructor
  · intro refused
    have continued : ∀ b ∈ input.take left, 128 ≤ b := by
      intro b member
      apply UInt8.not_lt.mp
      intro small
      obtain ⟨taken, rest, rfl, numeral, short⟩ := Numeral.exists_front ⟨b, member, small⟩
      rw [numeral.decode max seen short] at refused
      cases refused
    rw [decodeVarNumFrom_of_continued continued] at refused
    cases refused
    exact ⟨continued, rfl⟩
  · rintro ⟨continued, rfl⟩
    exact decodeVarNumFrom_of_continued continued

/-! ## Writing -/

theorem toNat_ofNat_byte {n : Nat} (h : n < 256) : (UInt8.ofNat n).toNat = n :=
  UInt8.toNat_ofNat_of_lt' h

theorem numeral_encodeVarNum (n : Nat) : Numeral (encodeVarNum n) := by
  induction n using encodeVarNum.induct with
  | case1 n small =>
    rw [encodeVarNum, if_pos small]
    apply Numeral.last
    rw [ends_iff, toNat_ofNat_byte (by omega)]
    exact small
  | case2 n large ih =>
    rw [encodeVarNum, if_neg large]
    refine .more ?_ ih
    rw [continues_iff, toNat_ofNat_byte (by omega)]
    exact Nat.le_add_left 128 _

theorem toNatGroups_encodeVarNum (n : Nat) : toNatGroups (encodeVarNum n) = n := by
  induction n using encodeVarNum.induct with
  | case1 n small =>
    rw [encodeVarNum, if_pos small, toNatGroups, toNat_ofNat_byte (by omega)]
    exact Nat.mod_eq_of_lt small
  | case2 n large ih =>
    rw [encodeVarNum, if_neg large, toNatGroups, ih, toNat_ofNat_byte (by omega)]
    omega

theorem varNumLength_eq (n : Nat) : varNumLength n = (encodeVarNum n).length := by
  induction n using varNumLength.induct with
  | case1 n small => rw [varNumLength, encodeVarNum, if_pos small, if_pos small]; rfl
  | case2 n large ih =>
    rw [varNumLength, encodeVarNum, if_neg large, if_neg large, ih]
    rfl

theorem toNatGroups_lt (bytes : Bytes) : toNatGroups bytes < Nat.pow 128 bytes.length := by
  induction bytes with
  | nil => exact Nat.zero_lt_one
  | cons b bytes ih =>
    rw [toNatGroups, List.length_cons]
    show _ < Nat.pow 128 bytes.length * 128
    omega

theorem length_encodeVarNum_le {n length : Nat} (present : 0 < length)
    (fits : n < Nat.pow 128 length) : (encodeVarNum n).length ≤ length := by
  induction n using encodeVarNum.induct generalizing length with
  | case1 n small =>
    rw [encodeVarNum, if_pos small]
    exact present
  | case2 n large ih =>
    rw [encodeVarNum, if_neg large]
    cases length with
    | zero => exact absurd present (Nat.lt_irrefl 0)
    | succ length =>
      have high : n / 128 < Nat.pow 128 length :=
        Nat.div_lt_of_lt_mul (by rwa [Nat.mul_comm])
      have present' : 0 < length := by
        apply Nat.pos_of_ne_zero
        rintro rfl
        exact large fits
      exact Nat.succ_le_succ (ih present' high)

/-! ## The numerals of a number -/

/-- Bytes that do not end in an empty group, unless they are those of zero. -/
def Unpadded (bytes : Bytes) : Prop := bytes = [0] ∨ bytes.getLast? ≠ some 0

namespace Numeral

variable {bytes bytes' : Bytes}

/-- A number has one numeral of each length at most. -/
theorem eq_of_length (h : Numeral bytes) (h' : Numeral bytes') (length : bytes.length = bytes'.length)
    (value : toNatGroups bytes = toNatGroups bytes') : bytes = bytes' := by
  induction h generalizing bytes' with
  | @last b small =>
    cases h' with
    | @last c small' =>
      rw [toNatGroups_singleton small, toNatGroups_singleton small'] at value
      rw [UInt8.toNat_inj.mp value]
    | more _ numeral' => exact absurd (Nat.succ.inj length) (Nat.ne_of_lt numeral'.length_pos)
  | @more b bytes continued numeral ih =>
    cases h' with
    | last _ => exact absurd (Nat.succ.inj length) (Nat.ne_of_gt numeral.length_pos)
    | @more c bytes' continued' numeral' =>
      rw [continues_iff] at continued continued'
      have below := b.toNat_lt
      have below' := c.toNat_lt
      simp only [toNatGroups] at value
      have low : b.toNat = c.toNat := by omega
      have high : toNatGroups bytes = toNatGroups bytes' := by omega
      rw [UInt8.toNat_inj.mp low, ih numeral' (Nat.succ.inj length) high]

theorem getLast?_cons (h : Numeral bytes) (b : UInt8) : (b :: bytes).getLast? = bytes.getLast? := by
  cases h with
  | last | more => exact List.getLast?_cons_cons

theorem toNatGroups_pos (h : Numeral bytes) (used : bytes.getLast? ≠ some 0) :
    0 < toNatGroups bytes := by
  induction h with
  | @last b small =>
    rw [toNatGroups_singleton small]
    apply Nat.pos_of_ne_zero
    intro zero
    exact used (congrArg some (UInt8.toNat_inj.mp zero))
  | more _ numeral ih =>
    rw [numeral.getLast?_cons] at used
    have above := ih used
    simp only [toNatGroups]
    omega

theorem encode_of_used (h : Numeral bytes) (used : bytes.getLast? ≠ some 0) :
    encodeVarNum (toNatGroups bytes) = bytes := by
  induction h with
  | @last b small =>
    rw [toNatGroups_singleton small, encodeVarNum, if_pos (ends_iff.mp small), UInt8.ofNat_toNat]
  | @more b bytes continued numeral ih =>
    rw [numeral.getLast?_cons] at used
    have above := numeral.toNatGroups_pos used
    have below := b.toNat_lt
    rw [continues_iff] at continued
    have low : (b.toNat % 128 + 128 * toNatGroups bytes) % 128 + 128 = b.toNat := by omega
    have high : (b.toNat % 128 + 128 * toNatGroups bytes) / 128 = toNatGroups bytes := by omega
    rw [toNatGroups, encodeVarNum, if_neg (by omega), low, high, UInt8.ofNat_toNat, ih used]

end Numeral

theorem getLast?_encodeVarNum {n : Nat} (positive : 0 < n) :
    (encodeVarNum n).getLast? ≠ some 0 := by
  induction n using encodeVarNum.induct with
  | case1 n small =>
    intro last
    rw [encodeVarNum, if_pos small] at last
    have zero : UInt8.ofNat n = 0 := Option.some.inj last
    have value : (UInt8.ofNat n).toNat = n := toNat_ofNat_byte (by omega)
    rw [zero] at value
    exact absurd value (Nat.ne_of_lt positive)
  | case2 n large ih =>
    rw [encodeVarNum, if_neg large, (numeral_encodeVarNum _).getLast?_cons]
    exact ih (Nat.div_pos (Nat.not_lt.mp large) (by decide))

/-- Of all numerals of a number the one without empty groups at its end is written. -/
theorem encodeVarNum_eq_iff {n : Nat} {bytes : Bytes} (h : Numeral bytes) :
    encodeVarNum n = bytes ↔ toNatGroups bytes = n ∧ Unpadded bytes := by
  constructor
  · rintro rfl
    refine ⟨toNatGroups_encodeVarNum n, ?_⟩
    rcases Nat.eq_zero_or_pos n with rfl | positive
    · exact .inl (by rw [encodeVarNum]; rfl)
    · exact .inr (getLast?_encodeVarNum positive)
  · rintro ⟨rfl, rfl | used⟩
    · rw [encodeVarNum]; rfl
    · exact h.encode_of_used used

end VoxelServer
