import VoxelServer.Proofs.Nbt.Extent
import VoxelServer.Proofs.Wire.VarNum
import VoxelServer.Wire.BlockPosition
import VoxelServer.Wire.Composite
import VoxelServer.Wire.Slot
import VoxelServer.Wire.Text

/-!
# Values that are still arriving

A connection waits as long as bytes are missing and ends on anything that is malformed. Every
decoder of the protocol tells the one from the other:

* `WireDecoder`: the decoders, with all ways of putting them together;
* `decoders_read_prefixes`: each takes a value off the front without looking past its end, sticks to
  a refusal that is not for want of bytes, and refuses every part of a value for want of bytes.
-/

namespace VoxelServer

open Decoder (SelfDelimiting)

/-! ## The decoders one by one -/

theorem bool_selfDelimiting : (Wire.decode : Decoder Bool).SelfDelimiting := by
  refine SelfDelimiting.ofWord.bind fun b => ?_
  split
  · exact .pure false
  split
  · exact .pure true
  · exact .throw _

theorem bytesUpTo_selfDelimiting (max : Nat) : (bytesUpTo max).SelfDelimiting := by
  refine varInt_selfDelimiting.bind fun length => ?_
  -- the length is judged before any of the bytes behind it
  dsimp only
  split
  · exact .throw _
  split
  · exact .throw _
  · exact .take _

theorem textUpTo_selfDelimiting (max : Nat) : (textUpTo max).SelfDelimiting := by
  refine (bytesUpTo_selfDelimiting max).bind fun bytes => ?_
  split
  · exact .pure _
  · exact .throw _

theorem uuid_selfDelimiting : (Wire.decode : Decoder Uuid).SelfDelimiting :=
  (SelfDelimiting.take 16).bind fun _ => .pure _

theorem slot_selfDelimiting : (Wire.decode : Decoder WireSlot).SelfDelimiting := by
  refine SelfDelimiting.map ?_ WireSlot.mk
  refine SelfDelimiting.ofWord.bind fun id => ?_
  split
  · exact .pure none
  · refine SelfDelimiting.ofWord.bind fun count => SelfDelimiting.ofWord.bind fun damage => ?_
    exact Nbt.decodeRoot_selfDelimiting.bind fun nbt => .pure _

section Composite

variable {α β : Type} [Wire α] [Wire β]

theorem option_selfDelimiting (h : (Wire.decode : Decoder α).SelfDelimiting) :
    (Wire.decode : Decoder (Option α)).SelfDelimiting := by
  refine bool_selfDelimiting.bind fun isPresent => ?_
  split
  · exact h.bind fun a => .pure (some a)
  · exact .pure none

theorem vec3_selfDelimiting (h : (Wire.decode : Decoder α).SelfDelimiting) :
    (Wire.decode : Decoder (Vec3 α)).SelfDelimiting :=
  h.bind fun x => h.bind fun y => h.bind fun z => .pure (Vec3.mk x y z)

theorem pair_selfDelimiting (h : (Wire.decode : Decoder α).SelfDelimiting)
    (h' : (Wire.decode : Decoder β).SelfDelimiting) :
    (Wire.decode : Decoder (α × β)).SelfDelimiting :=
  h.bind fun a => h'.bind fun b => .pure (a, b)

end Composite

/-! ## All of them -/

/-- The decoders of the protocol's values. An instance may be any, so that the parts of a composite
value may have limits of their own. -/
inductive WireDecoder : {α : Type} → Decoder α → Prop
  | u8 : WireDecoder (Wire.decode : Decoder UInt8)
  | u16 : WireDecoder (Wire.decode : Decoder UInt16)
  | u64 : WireDecoder (Wire.decode : Decoder UInt64)
  | i8 : WireDecoder (Wire.decode : Decoder Int8)
  | i16 : WireDecoder (Wire.decode : Decoder Int16)
  | i32 : WireDecoder (Wire.decode : Decoder Int32)
  | i64 : WireDecoder (Wire.decode : Decoder Int64)
  | single : WireDecoder (Wire.decode : Decoder Single)
  | double : WireDecoder (Wire.decode : Decoder Double)
  | bool : WireDecoder (Wire.decode : Decoder Bool)
  | varInt : WireDecoder (Wire.decode : Decoder VarInt)
  | varLong : WireDecoder (Wire.decode : Decoder VarLong)
  | bytes (max : Nat) : WireDecoder (bytesUpTo max)
  | text (max : Nat) : WireDecoder (textUpTo max)
  | uuid : WireDecoder (Wire.decode : Decoder Uuid)
  | blockPosition : WireDecoder (Wire.decode : Decoder BlockPosition)
  | nbt : WireDecoder Nbt.decodeRoot
  | slot : WireDecoder (Wire.decode : Decoder WireSlot)
  | option {α : Type} [Wire α] : WireDecoder (Wire.decode : Decoder α) →
      WireDecoder (Wire.decode : Decoder (Option α))
  | vec3 {α : Type} [Wire α] : WireDecoder (Wire.decode : Decoder α) →
      WireDecoder (Wire.decode : Decoder (Vec3 α))
  | pair {α β : Type} [Wire α] [Wire β] : WireDecoder (Wire.decode : Decoder α) →
      WireDecoder (Wire.decode : Decoder β) → WireDecoder (Wire.decode : Decoder (α × β))

theorem WireDecoder.selfDelimiting {α : Type} {d : Decoder α} (h : WireDecoder d) :
    d.SelfDelimiting := by
  induction h with
  | u8 | u16 | u64 | i8 | i16 | i32 | i64 | blockPosition => exact .ofWord
  | single | double => exact (SelfDelimiting.take _).bind fun _ => .pure _
  | bool => exact bool_selfDelimiting
  | varInt => exact varInt_selfDelimiting
  | varLong => exact varLong_selfDelimiting
  | bytes max => exact bytesUpTo_selfDelimiting max
  | text max => exact textUpTo_selfDelimiting max
  | uuid => exact uuid_selfDelimiting
  | nbt => exact Nbt.decodeRoot_selfDelimiting
  | slot => exact slot_selfDelimiting
  | option _ ih => exact option_selfDelimiting ih
  | vec3 _ ih => exact vec3_selfDelimiting ih
  | pair _ _ ih ih' => exact pair_selfDelimiting ih ih'

/-- **Every decoder takes a value off the front and nothing else.** Bytes behind an accepted value
and bytes behind a final refusal change nothing. So a part of a value is refused for want of bytes,
always, and nothing that could still become a value is taken for a malformed one. -/
theorem decoders_read_prefixes {α : Type} {d : Decoder α} (h : WireDecoder d) :
    d.SelfDelimiting ∧
      (∀ part missing rest a, d (part ++ missing ++ rest) = .ok (a, rest) → missing ≠ [] →
        ∃ needed available, d part = .error (.truncated needed available)) ∧
      ∀ part more rest a e, d (part ++ more) = .ok (a, rest) → d part = .error e →
        e.isIncomplete = true := by
  refine ⟨h.selfDelimiting, fun _ _ _ _ => h.selfDelimiting.incomplete, ?_⟩
  intro part more rest a e accepted refused
  cases final : e.isIncomplete with
  | true => rfl
  | false =>
    rw [h.selfDelimiting.error refused final more] at accepted
    cases accepted

/-- An item with an empty tag tree and a count, cut off inside the tree. -/
theorem part_of_slot_incomplete : ∃ needed available,
    (Wire.decode : Decoder (Option (WireSlot × VarInt))) [1, 1, 20, 64, 0, 3, 10, 0] =
      .error (.truncated needed available) :=
  (decoders_read_prefixes (.option (.pair .slot .varInt))).2.1
    [1, 1, 20, 64, 0, 3, 10, 0] [0, 0, 172, 2] [255]
    (some (⟨some { id := 276, count := 64, damage := 3, nbt := some (.compound []) }⟩, ⟨300⟩))
    rfl (by decide)

end VoxelServer
