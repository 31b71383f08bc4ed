import VoxelServer.Proofs.Text.Plain
import VoxelServer.Proofs.Wire.Packing
import VoxelServer.Wire.Composite
import VoxelServer.Wire.Text

/-!
# Composite values are read back

Components follow each other without anything between them, so each has to be read from exactly its
own bytes:

* `WireType`: the types of the protocol, each with the values that can be written;
* `values_read_back`: every such value is read back, whatever follows it, and no two values have one
  encoding. A text that is too long is refused.
-/

namespace VoxelServer

/-! ## Numbers and identities -/

namespace LawfulWire

instance : LawfulWire UInt64 := ofWord UInt64.toNat_lt fun _ => UInt64.ofNat_toNat

instance : LawfulWire Bool where
  reads b := by
    cases b with
    | false => exact (reads_byte 0).bind_nil (.pure false)
    | true => exact (reads_byte 1).bind_nil (.pure true)

instance : LawfulWire VarInt := ⟨varIntType.reads⟩

instance : LawfulWire VarLong := ⟨varLongType.reads⟩

instance : LawfulWire Uuid where
  reads u := by
    have taken : (take 16).Reads (Wire.encode u) (Wire.encode u) :=
      .take (Bytes.length_ofNatBE 16 _)
    have back : Uuid.ofBytes (Wire.encode u) = u := by
      have fits : u.value.toNat < Nat.pow 256 16 := u.value.isLt
      show Uuid.ofBytes (Bytes.ofNatBE 16 u.value.toNat) = u
      rw [Uuid.ofBytes, Bytes.toNatBE_ofNatBE, Nat.mod_eq_of_lt fits, BitVec.ofNat_toNat,
        BitVec.setWidth_eq]
    refine taken.bind_nil ?_
    rw [back]
    exact .pure u

end LawfulWire

/-! ## Texts -/

/-- A length is judged before any of the bytes behind it. -/
theorem bytesUpTo_behind (max : Nat) (length : VarInt) (input : Bytes) :
    bytesUpTo max (Wire.encode length ++ input) =
      if length.value.toInt < 0 then .error (.negativeLength length.value.toInt)
      else if length.value.toInt.toNat > max then .error (.tooLong length.value.toInt.toNat max)
      else take length.value.toInt.toNat input := by
  unfold bytesUpTo
  simp only [Bind.bind, StateT.bind, Except.bind, decode_varInt length input]
  split
  · rfl
  split
  · rfl
  · rfl

/-- A text within the limit of its reader is read back. -/
theorem reads_textUpTo {max : Nat} {text : String} (fits : (Utf8.encode text).length ≤ max)
    (small : (Utf8.encode text).length < 2 ^ 31) : (textUpTo max).Reads (Wire.encode text) text := by
  have bytes : (bytesUpTo max).Reads (Wire.encode text) (Utf8.encode text) := by
    intro rest
    show bytesUpTo max (Wire.encode (VarInt.ofLength (Utf8.encode text).length) ++
      Utf8.encode text ++ rest) = _
    rw [List.append_assoc, bytesUpTo_behind, toInt_ofLength small, if_neg (by omega),
      Int.toNat_natCast, if_neg (by omega)]
    exact Decoder.Reads.take rfl rest
  refine bytes.bind_nil ?_
  simp only [Utf8.decode_encode]
  exact .pure text

theorem reads_text {text : String} (fits : (Utf8.encode text).length ≤ maxTextLength) :
    (Wire.decode : Decoder String).Reads (Wire.encode text) text :=
  reads_textUpTo fits (Nat.lt_of_le_of_lt fits (by decide))

/-- A text is refused if the number its length is written as is. -/
theorem decode_text_error {max : Nat} {text : String} {e : CodecError}
    (refused : ∀ input, bytesUpTo max
      (Wire.encode (VarInt.ofLength (Utf8.encode text).length) ++ input) = .error e)
    (rest : Bytes) : textUpTo max (Wire.encode text ++ rest) = .error e := by
  have bytes : bytesUpTo max (Wire.encode text ++ rest) = .error e := by
    show bytesUpTo max (Wire.encode (VarInt.ofLength (Utf8.encode text).length) ++
      Utf8.encode text ++ rest) = _
    rw [List.append_assoc, refused]
  simp only [textUpTo, Bind.bind, StateT.bind, Except.bind, bytes]

theorem decode_longText {max : Nat} {text : String} (long : max < (Utf8.encode text).length)
    (small : (Utf8.encode text).length < 2 ^ 31) (rest : Bytes) :
    textUpTo max (Wire.encode text ++ rest) =
      .error (.tooLong (Utf8.encode text).length max) := by
  refine decode_text_error (fun input => ?_) rest
  rw [bytesUpTo_behind, toInt_ofLength small, if_neg (by omega), Int.toNat_natCast, if_pos long]

/-- The length of a text of two gibibytes is written as a negative number. -/
theorem decode_hugeText {max : Nat} {text : String}
    (huge : (Utf8.encode text).length = 2147483648) (rest : Bytes) :
    textUpTo max (Wire.encode text ++ rest) = .error (.negativeLength (-2147483648)) := by
  have wrapped : (VarInt.ofLength 2147483648).value.toInt = -2147483648 := by decide
  refine decode_text_error (fun input => ?_) rest
  rw [bytesUpTo_behind, huge, wrapped, if_pos (by decide)]

/-- A text of so many letters. -/
def letters (n : Nat) : String := String.ofList (List.replicate n 'a')

theorem length_encode_letters (n : Nat) : (Utf8.encode (letters n)).length = n := by
  rw [Utf8.encode, letters, String.toList_ofList]
  induction n with
  | zero => rfl
  | succ n ih =>
    rw [List.replicate_succ, List.flatMap_cons, List.length_append, ih]
    exact Nat.add_comm 1 n

/-! ## Components -/

/-- The values of a type that satisfy a condition are read back. -/
def ReadsBack (α : Type) [Wire α] (P : α → Prop) : Prop :=
  ∀ a, P a → (Wire.decode : Decoder α).Reads (Wire.encode a) a

section Composite

variable {α β : Type} [Wire α] [Wire β] {P : α → Prop} {Q : β → Prop}

theorem ReadsBack.option (h : ReadsBack α P) : ReadsBack (Option α) fun o => ∀ a ∈ o, P a := by
  intro o valid
  cases o with
  | none => exact (LawfulWire.reads false).bind_nil (.pure none)
  | some a => exact (LawfulWire.reads true).bind ((h a (valid a rfl)).bind_nil (.pure (some a)))

theorem ReadsBack.vec3 (h : ReadsBack α P) :
    ReadsBack (Vec3 α) fun v => P v.x ∧ P v.y ∧ P v.z := by
  rintro v ⟨x, y, z⟩
  have components : (Wire.decode : Decoder (Vec3 α)).Reads
      (Wire.encode v.x ++ (Wire.encode v.y ++ Wire.encode v.z)) v :=
    (h v.x x).bind ((h v.y y).bind ((h v.z z).bind_nil (.pure v)))
  rwa [← List.append_assoc] at components

theorem ReadsBack.pair (h : ReadsBack α P) (h' : ReadsBack β Q) :
    ReadsBack (α × β) fun p => P p.1 ∧ Q p.2 := by
  rintro ⟨a, b⟩ ⟨first, second⟩
  exact (h a first).bind ((h' b second).bind_nil (.pure (a, b)))

end Composite

/-- The types of the protocol's values, and which of their values can be written. Tuples of three
and more are pairs whose second component is a tuple. -/
inductive WireType : (α : Type) → [Wire α] → (α → Prop) → Prop
  | u8 : WireType UInt8 fun _ => True
  | u16 : WireType UInt16 fun _ => True
  | u64 : WireType UInt64 fun _ => True
  | i8 : WireType Int8 fun _ => True
  | i16 : WireType Int16 fun _ => True
  | i32 : WireType Int32 fun _ => True
  | i64 : WireType Int64 fun _ => True
  | single : WireType Single fun _ => True
  | double : WireType Double fun _ => True
  | bool : WireType Bool fun _ => True
  | varInt : WireType VarInt fun _ => True
  | varLong : WireType VarLong fun _ => True
  | uuid : WireType Uuid fun _ => True
  | blockPosition : WireType BlockPosition BlockPosition.InRange
  | text : WireType String fun text => (Utf8.encode text).length ≤ maxTextLength
  | option {α : Type} [Wire α] {P : α → Prop} : WireType α P →
      WireType (Option α) fun o => ∀ a ∈ o, P a
  | vec3 {α : Type} [Wire α] {P : α → Prop} : WireType α P →
      WireType (Vec3 α) fun v => P v.x ∧ P v.y ∧ P v.z
  | pair {α β : Type} [Wire α] [Wire β] {P : α → Prop} {Q : β → Prop} : WireType α P →
      WireType β Q → WireType (α × β) fun p => P p.1 ∧ Q p.2

theorem WireType.readsBack {α : Type} [Wire α] {P : α → Prop} (h : WireType α P) :
    ReadsBack α P := by
  induction h with
  | blockPosition => exact fun _ => reads_blockPosition
  | text => exact fun _ => reads_text
  | option _ ih => exact ih.option
  | vec3 _ ih => exact ih.vec3
  | pair _ _ ih ih' => exact ih.pair ih'
  | _ => exact fun a _ => LawfulWire.reads a

/-- Encodings with something behind them are the same only if both the values and what is behind
them are. -/
theorem ReadsBack.unique {α : Type} [Wire α] {P : α → Prop} (h : ReadsBack α P) {a b : α}
    (ha : P a) (hb : P b) {rest rest' : Bytes}
    (same : Wire.encode a ++ rest = Wire.encode b ++ rest') : a = b ∧ rest = rest' := by
  have read := h a ha rest
  rw [same, h b hb rest'] at read
  cases read
  exact ⟨rfl, rfl⟩

/-- **Every value is read back from its encoding, whatever follows it**, and no two values of a
type have one encoding. Of texts this holds up to the limit of the protocol. A longer one is
refused, as long as its length fits the 32 bits it is written in. -/
theorem values_read_back :
    (∀ {α : Type} [Wire α] {P : α → Prop}, WireType α P →
      (∀ a, P a → ∀ rest, (Wire.decode : Decoder α) (Wire.encode a ++ rest) = .ok (a, rest)) ∧
      ∀ a b, P a → P b → Wire.encode a = Wire.encode b → a = b) ∧
    ∀ text : String, maxTextLength < (Utf8.encode text).length →
      (Utf8.encode text).length < 2 ^ 31 → ∀ rest,
        (Wire.decode : Decoder String) (Wire.encode text ++ rest) =
          .error (.tooLong (Utf8.encode text).length maxTextLength) := by
  refine ⟨fun type => ⟨type.readsBack, fun a b ha hb same => ?_⟩, fun _ => decode_longText⟩
  exact (type.readsBack.unique ha hb (congrArg (· ++ []) same)).1

theorem place_and_letters_read_back :
    (Wire.decode : Decoder (Option (BlockPosition × Vec3 VarInt × String)))
        (Wire.encode (some (⟨⟨-3, 64, 33554431⟩⟩, ⟨⟨300⟩, ⟨-1⟩, ⟨0⟩⟩, letters 2) :
          Option (BlockPosition × Vec3 VarInt × String)) ++ [7]) =
      .ok (some (⟨⟨-3, 64, 33554431⟩⟩, ⟨⟨300⟩, ⟨-1⟩, ⟨0⟩⟩, letters 2), [7]) ∧
    (Wire.decode : Decoder String) (Wire.encode (letters 40000) ++ [7]) =
      .error (.tooLong (Utf8.encode (letters 40000)).length maxTextLength) := by
  constructor
  · refine (values_read_back.1
      (.option (.pair .blockPosition (.pair (.vec3 .varInt) .text)))).1 _ ?_ [7]
    intro a found
    cases found
    exact ⟨by decide, ⟨trivial, trivial, trivial⟩, by decide⟩
  · exact values_read_back.2 (letters 40000) (by rw [length_encode_letters]; decide)
      (by rw [length_encode_letters]; decide) [7]

/-- A text of two gibibytes is longer than the limit, and refused for another reason. -/
theorem two_gibibytes_negative :
    maxTextLength < (Utf8.encode (letters 2147483648)).length ∧ ∀ rest,
      (Wire.decode : Decoder String) (Wire.encode (letters 2147483648) ++ rest) =
        .error (.negativeLength (-2147483648)) := by
  have length := length_encode_letters 2147483648
  refine ⟨?_, decode_hugeText length⟩
  rw [length]
  decide

end VoxelServer
