import VoxelServer.Proofs.Wire.VarNum
import VoxelServer.Zlib.Deflate
import VoxelServer.Zlib.Inflate

/-!
# Stored content

Compression stores the content in blocks of plain bytes, so reading it back follows the blocks:

* `readBlock_stored`: one block gives its bytes;
* `inflate_deflate`: a stream gives its content back, under any limit above its length.
-/

namespace VoxelServer

/-- A program whose first part is known goes on with the second. -/
theorem BitReader.bind_of_some {α β : Type} {x : BitReader α} {f : α → BitReader β}
    {s s' : BitStream} {a : α} (h : x s = some (a, s')) : (x >>= f) s = f a s' := by
  simp [bind, StateT.bind, h]

theorem BitReader.pure_apply {α : Type} (a : α) (s : BitStream) :
    (pure a : BitReader α) s = some (a, s) := rfl

theorem BitStream.takeBytes_append (used : Nat) (front rest : Bytes) {n : Nat}
    (h : front.length = n) :
    BitStream.takeBytes n ⟨used, front ++ rest⟩ = some (front, ⟨used, rest⟩) := by
  subst h
  simp [BitStream.takeBytes]

namespace Zlib

/-! ## One block -/

/-- The first byte of a stored block. -/
def storedMark (isLast : Bool) : UInt8 := if isLast then 1 else 0

theorem bit_storedMark (isLast : Bool) (rest : Bytes) :
    BitStream.bit ⟨0, storedMark isLast :: rest⟩ =
      some (if isLast then 1 else 0, ⟨1, storedMark isLast :: rest⟩) := by
  cases isLast <;> rfl

theorem bits_storedMark (isLast : Bool) (rest : Bytes) :
    BitStream.bits 2 ⟨1, storedMark isLast :: rest⟩ = some (0, ⟨3, storedMark isLast :: rest⟩) := by
  have second : BitStream.bit ⟨1, storedMark isLast :: rest⟩ =
      some (0, ⟨2, storedMark isLast :: rest⟩) := by cases isLast <;> rfl
  have third : BitStream.bit ⟨2, storedMark isLast :: rest⟩ =
      some (0, ⟨3, storedMark isLast :: rest⟩) := by cases isLast <;> rfl
  have one : BitStream.bits 1 ⟨2, storedMark isLast :: rest⟩ =
      some (0, ⟨3, storedMark isLast :: rest⟩) := by
    rw [BitStream.bits, BitReader.bind_of_some third]
    rfl
  rw [BitStream.bits, BitReader.bind_of_some second, BitReader.bind_of_some one]
  rfl

/-- The length of a block, in the two bytes that give it. -/
theorem toNatLE_ofNatLE_two {n : Nat} (h : n ≤ 65535) : (Bytes.ofNatLE 2 n).toNatLE = n := by
  simp only [Bytes.ofNatLE, Bytes.toNatLE, List.foldr_cons, List.foldr_nil, UInt8.toNat_ofNat']
  omega

theorem takeBytes_ofNatLE_two (n : Nat) (rest : Bytes) :
    BitStream.takeBytes 2 ⟨0, Bytes.ofNatLE 2 n ++ rest⟩ =
      some (Bytes.ofNatLE 2 n, ⟨0, rest⟩) :=
  BitStream.takeBytes_append 0 _ rest rfl

theorem storedBlock_append (isLast : Bool) (content rest : Bytes) :
    storedBlock isLast content ++ rest =
      storedMark isLast :: (Bytes.ofNatLE 2 content.length ++
        (Bytes.ofNatLE 2 (65535 - content.length) ++ (content ++ rest))) := by
  simp [storedBlock, storedMark]

/-- One block gives its bytes. -/
theorem readBlock_stored (out : Output) (isLast : Bool) (content rest : Bytes)
    (short : content.length ≤ maxStored) (fits : content.length ≤ out.room) :
    readBlock out ⟨1, storedBlock isLast content ++ rest⟩ =
      some (⟨out.bytes ++ content.toArray, out.room - content.length⟩, ⟨0, rest⟩) := by
  have short : content.length ≤ 65535 := short
  have length := toNatLE_ofNatLE_two short
  have complement := toNatLE_ofNatLE_two (Nat.sub_le 65535 content.length)
  have whole : content.length + (65535 - content.length) = 65535 := by omega
  rw [storedBlock_append, readBlock, BitReader.bind_of_some (bits_storedMark _ _)]
  show readStored out _ = _
  have aligned : BitStream.align ⟨3, storedMark isLast :: (Bytes.ofNatLE 2 content.length ++
      (Bytes.ofNatLE 2 (65535 - content.length) ++ (content ++ rest)))⟩ =
      some ((), ⟨0, Bytes.ofNatLE 2 content.length ++
        (Bytes.ofNatLE 2 (65535 - content.length) ++ (content ++ rest))⟩) := rfl
  rw [readStored, BitReader.bind_of_some aligned,
    BitReader.bind_of_some (takeBytes_ofNatLE_two _ _)]
  dsimp only
  rw [BitReader.bind_of_some (takeBytes_ofNatLE_two _ _)]
  have taken : content.length = min content.length out.room := by omega
  simp only [length, complement, whole, bne_self_eq_false, Bool.false_eq_true, if_false]
  rw [BitReader.bind_of_some (BitStream.takeBytes_append 0 content rest taken)]
  simp [Output.append, List.take_of_length_le fits, BitReader.pure_apply]

/-! ## The whole stream -/

/-- One round of reading: the block that comes next, and what is done after it. -/
theorem readBlocks_stored (out : Output) (isLast : Bool) (content rest : Bytes) (rounds : Nat)
    (short : content.length ≤ maxStored) (fits : content.length < out.room) :
    readBlocks (rounds + 1) out ⟨0, storedBlock isLast content ++ rest⟩ =
      let out : Output := ⟨out.bytes ++ content.toArray, out.room - content.length⟩
      if isLast then some (out, ⟨0, rest⟩) else readBlocks rounds out ⟨0, rest⟩ := by
  have block := readBlock_stored out isLast content rest short (Nat.le_of_lt fits)
  rw [storedBlock_append] at block ⊢
  rw [readBlocks, BitReader.bind_of_some (bit_storedMark _ _)]
  dsimp only
  rw [BitReader.bind_of_some block]
  have notFull : ¬ out.room - content.length = 0 := by omega
  cases isLast <;> simp [Output.isFull, notFull, BitReader.pure_apply]

theorem length_le_storedBlocks (content : Bytes) :
    content.length ≤ (storedBlocks content).length := by
  induction content using storedBlocks.induct with
  | case1 content tail last =>
    rw [storedBlocks, dif_pos last]
    have := List.drop_eq_nil_iff.mp last
    simp [storedBlock]
    omega
  | case2 content tail more ih =>
    have ih : (content.drop maxStored).length ≤ (storedBlocks (content.drop maxStored)).length := ih
    rw [storedBlocks, dif_neg more]
    simp only [List.length_drop] at ih
    simp [storedBlock]
    omega

/-- The blocks of a content give it back, behind what was read before. -/
theorem readBlocks_storedBlocks (content rest : Bytes) (out : Output) (rounds : Nat)
    (enough : content.length < rounds) (fits : content.length < out.room) :
    readBlocks rounds out ⟨0, storedBlocks content ++ rest⟩ =
      some (⟨out.bytes ++ content.toArray, out.room - content.length⟩, ⟨0, rest⟩) := by
  have positive : 0 < maxStored := by decide
  induction content using storedBlocks.induct generalizing out rounds with
  | case1 content tail last =>
    obtain ⟨rounds, rfl⟩ : ∃ n, rounds = n + 1 := ⟨rounds - 1, by omega⟩
    have short : content.length ≤ maxStored := List.drop_eq_nil_iff.mp last
    have whole : content.take maxStored = content := List.take_of_length_le short
    rw [storedBlocks, dif_pos last, whole]
    exact readBlocks_stored out true content rest rounds short fits
  | case2 content tail more ih =>
    obtain ⟨rounds, rfl⟩ : ∃ n, rounds = n + 1 := ⟨rounds - 1, by omega⟩
    let front := content.take maxStored
    have some_left : 0 < tail.length := List.length_pos_iff.mpr more
    have tail_length : tail.length = content.length - maxStored := List.length_drop
    have front_length : front.length = maxStored := List.length_take_of_le (by omega)
    have joined : front ++ tail = content := List.take_append_drop maxStored content
    rw [storedBlocks, dif_neg more, List.append_assoc,
      readBlocks_stored out false front _ rounds (by omega) (by omega)]
    simp only [Bool.false_eq_true, if_false]
    rw [ih _ rounds (by omega) (by simp only; omega)]
    have bytes : out.bytes ++ front.toArray ++ tail.toArray = out.bytes ++ content.toArray := by
      rw [← joined]
      simp
    have room : out.room - front.length - tail.length = out.room - content.length := by omega
    rw [bytes, room]

theorem checksum_lt (content : Bytes) : Adler.checksum content < 4294967296 := by
  have sums : ∀ (bytes : Bytes) (s : Nat × Nat), s.1 < Adler.modulus ∧ s.2 < Adler.modulus →
      (bytes.foldl Adler.step s).1 < Adler.modulus ∧
        (bytes.foldl Adler.step s).2 < Adler.modulus := by
    intro bytes
    induction bytes with
    | nil => exact fun _ h => h
    | cons b bytes ih =>
      intro s _
      exact ih _ ⟨Nat.mod_lt _ (by decide), Nat.mod_lt _ (by decide)⟩
  obtain ⟨low, high⟩ := sums content (1, 0) (by decide)
  simp only [Adler.modulus] at low high
  simp only [Adler.checksum]
  omega

/-- A stream gives its content back, under any limit above its length. -/
theorem inflate_deflate (content : Bytes) {limit : Nat} (h : content.length < limit) :
    inflate? limit (deflate content) = some content := by
  have header : isHeader 0x78 0x01 = true := by decide
  have enough : content.length < 3 * (storedBlocks content ++
      Bytes.ofNatBE 4 (Adler.checksum content)).length := by
    have := length_le_storedBlocks content
    simp only [List.length_append, Bytes.length_ofNatBE]
    omega
  have blocks := readBlocks_storedBlocks content (Bytes.ofNatBE 4 (Adler.checksum content))
    ⟨#[], limit⟩ _ enough h
  have notFull : ¬ limit - content.length = 0 := by omega
  have aligned : BitStream.align ⟨0, Bytes.ofNatBE 4 (Adler.checksum content)⟩ =
      some ((), ⟨0, Bytes.ofNatBE 4 (Adler.checksum content)⟩) := rfl
  have check : (BitStream.align >>= fun _ => BitStream.takeBytes 4 : BitReader Bytes)
      ⟨0, Bytes.ofNatBE 4 (Adler.checksum content)⟩ =
      some (Bytes.ofNatBE 4 (Adler.checksum content), ⟨0, []⟩) := by
    rw [BitReader.bind_of_some aligned]
    simpa using BitStream.takeBytes_append 0 (Bytes.ofNatBE 4 (Adler.checksum content)) []
      (Bytes.length_ofNatBE 4 _)
  have sum : (Bytes.ofNatBE 4 (Adler.checksum content)).toNatBE = Adler.checksum content := by
    rw [Bytes.toNatBE_ofNatBE]
    exact Nat.mod_eq_of_lt (checksum_lt content)
  simp only [deflate, inflate?, List.cons_append, header, if_true, BitStream.ofBytes, blocks]
  simp [Output.isFull, notFull, check, sum]

end Zlib

end VoxelServer
