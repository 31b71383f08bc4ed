import VoxelServer.Proofs.Zlib.Stored

/-!
# Content within a limit

A limit only stops the decompressor, it never changes what it makes of a stream. What it gives
below the limit is therefore the whole content:

* `Zlib.Spells`: the bytes that the symbols of a block stand for, without any limit;
* `Zlib.Inflates`: what a stream holds, under every limit above it;
* `Zlib.inflates_of_short`: an answer shorter than the limit is what the stream holds;
* `Zlib.Inflates.unique`: a stream holds one content.
-/

namespace VoxelServer

/-- A program that succeeds has parts that succeed. -/
theorem BitReader.bind_eq_some {α β : Type} {x : BitReader α} {f : α → BitReader β}
    {s rest : BitStream} {b : β} :
    (x >>= f) s = some (b, rest) ↔ ∃ a s', x s = some (a, s') ∧ f a s' = some (b, rest) := by
  simp only [bind, StateT.bind, Option.bind_eq_some_iff, Prod.exists]

theorem BitStream.length_of_takeBytes {n : Nat} {s rest : BitStream} {bytes : Bytes}
    (h : BitStream.takeBytes n s = some (bytes, rest)) : bytes.length = n := by
  simp only [BitStream.takeBytes] at h
  split at h
  · rename_i whole
    cases h
    exact whole
  · cases h

namespace Zlib

/-- An output of which `total` bytes may be written in all. -/
def Output.within (total : Nat) (bytes : Array UInt8) : Output := ⟨bytes, total - bytes.size⟩

variable {total : Nat} {bytes more : Array UInt8} {s rest : BitStream} {out : Output}

@[simp] theorem bytes_within : (Output.within total bytes).bytes = bytes := rfl

theorem isFull_within : (Output.within total bytes).isFull = decide (total ≤ bytes.size) := by
  simp only [Output.isFull, Output.within]
  exact Bool.eq_iff_iff.mpr (by simp; omega)

/-! ## Writing -/

/-- Bytes with `length` more, each of them the one that is `distance` bytes back. -/
def copied (distance : Nat) : (length : Nat) → Array UInt8 → Array UInt8
  | 0, bytes => bytes
  | length + 1, bytes => copied distance length (bytes.push (bytes.getD (bytes.size - distance) 0))

@[simp] theorem size_copied (distance length : Nat) (bytes : Array UInt8) :
    (copied distance length bytes).size = bytes.size + length := by
  induction length generalizing bytes with
  | zero => rfl
  | succ length ih =>
    rw [copied, ih, Array.size_push]
    omega

theorem push_within (b : UInt8) : (Output.within total bytes).push b =
    .within total (bytes.push b) := by
  simp only [Output.within, Output.push, Array.size_push, Output.mk.injEq, true_and]
  omega

theorem copy_within (distance length : Nat) (fits : bytes.size + length ≤ total) :
    (Output.within total bytes).copy distance length =
      .within total (copied distance length bytes) := by
  induction length generalizing bytes with
  | zero => rfl
  | succ length ih =>
    have notFull : ¬ total ≤ bytes.size := by omega
    rw [Output.copy, isFull_within, if_neg (by simpa using notFull), push_within]
    exact ih (by rw [Array.size_push]; omega)

/-- A copy that does not fit fills the output. -/
theorem copy_fills (distance length : Nat) (fits : bytes.size ≤ total)
    (long : total ≤ bytes.size + length) :
    ∃ more, (Output.within total bytes).copy distance length = .within total more ∧
      more.size = total := by
  induction length generalizing bytes with
  | zero => exact ⟨bytes, rfl, by omega⟩
  | succ length ih =>
    by_cases full : total ≤ bytes.size
    · refine ⟨bytes, ?_, by omega⟩
      rw [Output.copy, isFull_within, if_pos (by simpa using full)]
    · rw [Output.copy, isFull_within, if_neg (by simpa using full), push_within]
      exact ih (by rw [Array.size_push]; omega) (by rw [Array.size_push]; omega)

theorem append_within (bs : Bytes) (fits : bytes.size + bs.length ≤ total) :
    (Output.within total bytes).append bs = .within total (bytes ++ bs.toArray) := by
  have whole : bs.take (total - bytes.size) = bs := List.take_of_length_le (by omega)
  simp only [Output.within, Output.append, whole, Array.size_append, List.size_toArray,
    Output.mk.injEq, true_and]
  omega

/-! ## Symbols -/

/-- The symbols at the front of a stream, up to the end of their block, stand for the bytes from
`bytes` to `more`. -/
inductive Spells (literals distances : PrefixCode) :
    Array UInt8 → BitStream → Array UInt8 → BitStream → Prop
  | stop {bytes : Array UInt8} {s rest : BitStream} :
      literals.read s = some (256, rest) → Spells literals distances bytes s bytes rest
  | literal {bytes more : Array UInt8} {s s₁ rest : BitStream} {symbol : Nat} :
      literals.read s = some (symbol, s₁) → symbol < 256 →
      Spells literals distances (bytes.push (UInt8.ofNat symbol)) s₁ more rest →
      Spells literals distances bytes s more rest
  | copy {bytes more : Array UInt8} {s s₁ s₂ s₃ s₄ rest : BitStream}
      {symbol length code distance : Nat} :
      literals.read s = some (symbol, s₁) → 256 < symbol →
      readExtended lengthCodes (symbol - 257) s₁ = some (length, s₂) →
      distances.read s₂ = some (code, s₃) →
      readExtended distanceCodes code s₃ = some (distance, s₄) → distance ≤ bytes.size →
      Spells literals distances (copied distance length bytes) s₄ more rest →
      Spells literals distances bytes s more rest

variable {literals distances : PrefixCode}

theorem Spells.grows (h : Spells literals distances bytes s more rest) :
    bytes.size ≤ more.size := by
  induction h with
  | stop => exact Nat.le_refl _
  | literal _ _ _ ih =>
    rw [Array.size_push] at ih
    omega
  | copy _ _ _ _ _ _ _ ih =>
    rw [size_copied] at ih
    omega

/-- No length symbol stands for an empty copy. -/
theorem pos_of_readExtended {symbol length : Nat}
    (h : readExtended lengthCodes symbol s = some (length, rest)) : 0 < length := by
  have positive : ∀ code ∈ lengthCodes, 0 < code.1 := by decide
  unfold readExtended at h
  cases found : lengthCodes[symbol]? with
  | none =>
    rw [found] at h
    cases h
  | some code =>
    rw [found] at h
    obtain ⟨extra, s', -, given⟩ := BitReader.bind_eq_some.mp h
    have := positive _ (List.mem_of_getElem? found)
    cases given
    omega

/-- What symbols stand for is read off them by any output with room for it. -/
theorem readSymbols_of_spells {rounds : Nat} (h : Spells literals distances bytes s more rest)
    (room : more.size < total) (enough : total - bytes.size < rounds) :
    readSymbols literals distances rounds (.within total bytes) s =
      some (.within total more, rest) := by
  induction h generalizing rounds with
  | stop symbolRead =>
    obtain ⟨rounds, rfl⟩ : ∃ n, rounds = n + 1 := ⟨rounds - 1, by omega⟩
    rw [readSymbols, isFull_within, if_neg (by simpa using room),
      BitReader.bind_of_some symbolRead]
    rfl
  | @literal bytes _ _ _ _ symbol symbolRead small following ih =>
    obtain ⟨rounds, rfl⟩ : ∃ n, rounds = n + 1 := ⟨rounds - 1, by omega⟩
    have grows := following.grows
    have size : (bytes.push (UInt8.ofNat symbol)).size = bytes.size + 1 := Array.size_push _
    rw [readSymbols, isFull_within, if_neg (by simp; omega), BitReader.bind_of_some symbolRead,
      if_pos small, push_within]
    exact ih room (by omega)
  | copy symbolRead large lengthRead codeRead distanceRead inside following ih =>
    obtain ⟨rounds, rfl⟩ : ∃ n, rounds = n + 1 := ⟨rounds - 1, by omega⟩
    have grows := following.grows
    have positive := pos_of_readExtended lengthRead
    rw [size_copied] at grows ih
    rw [readSymbols, isFull_within, if_neg (by simp; omega), BitReader.bind_of_some symbolRead,
      if_neg (by omega), if_neg (by simp; omega), BitReader.bind_of_some lengthRead,
      BitReader.bind_of_some codeRead, BitReader.bind_of_some distanceRead,
      bytes_within, if_neg (Nat.not_lt.mpr inside), copy_within _ _ (by omega)]
    exact ih room (by omega)

/-- Reading symbols fills the output or comes to what they stand for. -/
theorem spells_of_readSymbols {rounds : Nat} (fits : bytes.size ≤ total)
    (enough : total - bytes.size < rounds)
    (read : readSymbols literals distances rounds (.within total bytes) s = some (out, rest)) :
    ∃ more, out = .within total more ∧ more.size ≤ total ∧
      (more.size < total → Spells literals distances bytes s more rest) := by
  induction rounds generalizing bytes s with
  | zero => omega
  | succ rounds ih =>
    by_cases full : total ≤ bytes.size
    · rw [readSymbols, isFull_within, if_pos (by simpa using full)] at read
      cases read
      exact ⟨bytes, rfl, fits, fun room => by omega⟩
    rw [readSymbols, isFull_within, if_neg (by simpa using full)] at read
    obtain ⟨symbol, s₁, symbolRead, read⟩ := BitReader.bind_eq_some.mp read
    by_cases small : symbol < 256
    · have size : (bytes.push (UInt8.ofNat symbol)).size = bytes.size + 1 := Array.size_push _
      rw [if_pos small, push_within] at read
      obtain ⟨more, rfl, fits', spells⟩ := ih (by omega) (by omega) read
      exact ⟨more, rfl, fits', fun room => .literal symbolRead small (spells room)⟩
    rw [if_neg small] at read
    by_cases stop : symbol = 256
    · rw [if_pos (by simpa using stop)] at read
      cases read
      subst stop
      exact ⟨bytes, rfl, fits, fun _ => .stop symbolRead⟩
    rw [if_neg (by simpa using stop)] at read
    obtain ⟨length, s₂, lengthRead, read⟩ := BitReader.bind_eq_some.mp read
    obtain ⟨code, s₃, codeRead, read⟩ := BitReader.bind_eq_some.mp read
    obtain ⟨distance, s₄, distanceRead, read⟩ := BitReader.bind_eq_some.mp read
    have positive := pos_of_readExtended lengthRead
    rw [bytes_within] at read
    by_cases far : distance > bytes.size
    · rw [if_pos far] at read
      cases read
    rw [if_neg far] at read
    by_cases long : total ≤ bytes.size + length
    · -- a full output ends the reading, whatever comes next
      obtain ⟨more, written, full'⟩ := copy_fills distance length fits long
      rw [written] at read
      cases rounds with
      | zero => omega
      | succ rounds =>
        rw [readSymbols, isFull_within, if_pos (by simp; omega)] at read
        cases read
        exact ⟨more, rfl, Nat.le_of_eq full', fun room => by omega⟩
    · have size := size_copied distance length bytes
      rw [copy_within _ _ (by omega)] at read
      obtain ⟨more, rfl, fits', spells⟩ := ih (by omega) (by omega) read
      exact ⟨more, rfl, fits', fun room =>
        .copy symbolRead (by omega) lengthRead codeRead distanceRead (by omega) (spells room)⟩

/-! ## Blocks -/

/-- A reader that writes behind what there is. Unless it fills the output, it comes to the same in
every other output that it does not fill. -/
structure LimitFree (read : Output → BitReader Output) : Prop where
  outcome {total : Nat} {bytes : Array UInt8} {s rest : BitStream} {out : Output} :
    bytes.size ≤ total → read (.within total bytes) s = some (out, rest) →
    ∃ more, out = .within total more ∧ more.size ≤ total ∧
      (more.size < total → bytes.size ≤ more.size ∧ ∀ total', more.size < total' →
        read (.within total' bytes) s = some (.within total' more, rest))

namespace LimitFree

theorem failure : LimitFree fun _ => failure where
  outcome _ read := by cases read

/-- What is read before the first byte is written does not see the output. -/
theorem bind {α : Type} (x : BitReader α) {f : α → Output → BitReader Output}
    (h : ∀ a, LimitFree (f a)) : LimitFree fun out => x >>= fun a => f a out where
  outcome {total bytes s rest out} fits read := by
    obtain ⟨a, s₁, first, read⟩ := BitReader.bind_eq_some.mp read
    obtain ⟨more, rfl, fits', same⟩ := (h a).outcome fits read
    refine ⟨more, rfl, fits', fun room => ⟨(same room).1, fun total' room' => ?_⟩⟩
    rw [BitReader.bind_of_some first]
    exact (same room).2 total' room'

theorem readSymbols (literals distances : PrefixCode) :
    LimitFree fun out => readSymbols literals distances (out.room + 1) out where
  outcome {total bytes s rest out} fits read := by
    obtain ⟨more, rfl, fits', spells⟩ := spells_of_readSymbols fits (Nat.lt_succ_self _) read
    exact ⟨more, rfl, fits', fun room => ⟨(spells room).grows, fun total' room' =>
      readSymbols_of_spells (spells room) room' (Nat.lt_succ_self _)⟩⟩

theorem readStored : LimitFree readStored := by
  refine bind _ fun _ => bind _ fun length => bind _ fun complement => ?_
  by_cases faulty : length.toNatLE + complement.toNatLE != 65535
  · simp only [faulty, if_true]
    exact failure
  simp only [faulty, if_false, Bool.false_eq_true]
  constructor
  intro total bytes s rest out fits read
  obtain ⟨front, s₁, taken, given⟩ := BitReader.bind_eq_some.mp read
  have size := BitStream.length_of_takeBytes taken
  simp only [Output.within] at size
  cases given
  rw [append_within front (by omega)]
  refine ⟨_, rfl, ?_, fun room => ⟨?_, fun total' room' => ?_⟩⟩
  · simp
    omega
  · simp
  · simp only [Array.size_append, List.size_toArray] at room room'
    have whole : min length.toNatLE (Output.within total' bytes).room =
        min length.toNatLE (Output.within total bytes).room := by
      simp only [Output.within]
      omega
    rw [whole, BitReader.bind_of_some taken, append_within front (by omega)]
    rfl

theorem readBlock : LimitFree readBlock := by
  refine bind _ fun kind => ?_
  split
  · exact readStored
  · cases PrefixCode.ofLengths? true fixedLengths with
    | none => exact failure
    | some literals =>
      cases PrefixCode.ofLengths? true (List.replicate 32 5) with
      | none => exact failure
      | some distances => exact readSymbols literals distances
  · exact bind readCodes fun codes => readSymbols codes.1 codes.2
  · exact failure

theorem readBlocks (rounds : Nat) : LimitFree (readBlocks rounds) := by
  induction rounds with
  | zero => exact failure
  | succ rounds ih =>
    refine bind BitStream.bit fun flag => ?_
    constructor
    intro total bytes s rest out fits read
    obtain ⟨block, s₁, first, read⟩ := BitReader.bind_eq_some.mp read
    obtain ⟨middle, rfl, fits₁, same₁⟩ := readBlock.outcome fits first
    rw [isFull_within] at read
    by_cases full : total ≤ middle.size
    · rw [if_pos (by simp [full])] at read
      cases read
      exact ⟨middle, rfl, fits₁, fun room => by omega⟩
    obtain ⟨grows₁, same₁⟩ := same₁ (Nat.lt_of_not_le full)
    by_cases isLast : (flag == 1) = true
    · rw [if_pos (by simp [isLast])] at read
      cases read
      refine ⟨middle, rfl, fits₁, fun room => ⟨grows₁, fun total' room' => ?_⟩⟩
      rw [BitReader.bind_of_some (same₁ total' room'), if_pos (by simp [isLast])]
      rfl
    · rw [if_neg (by simp [isLast, full])] at read
      obtain ⟨more, rfl, fits₂, same₂⟩ := ih.outcome fits₁ read
      refine ⟨more, rfl, fits₂, fun room => ?_⟩
      obtain ⟨grows₂, same₂⟩ := same₂ room
      refine ⟨Nat.le_trans grows₁ grows₂, fun total' room' => ?_⟩
      have notFull : ¬ total' ≤ middle.size := by omega
      rw [BitReader.bind_of_some (same₁ total' (by omega)), isFull_within,
        if_neg (by simp [isLast, notFull])]
      exact same₂ total' room'

end LimitFree

/-! ## The whole stream -/

/-- What a stream holds: every limit above its length gives all of it. -/
def Inflates (data content : Bytes) : Prop :=
  ∀ limit, content.length < limit → inflate? limit data = some content

/-- A stream holds one content. -/
theorem Inflates.unique {data content other : Bytes} (h : Inflates data content)
    (h' : Inflates data other) : content = other := by
  have whole := h (content.length + other.length + 1) (by omega)
  rw [h' _ (by omega)] at whole
  exact (Option.some.inj whole).symm

/-- An answer is never longer than the limit, and one that is shorter is what the stream holds. -/
theorem inflates_of_short {limit : Nat} {data content : Bytes}
    (h : inflate? limit data = some content) :
    content.length ≤ limit ∧ (content.length < limit → Inflates data content) := by
  unfold inflate? at h
  split at h
  · rename_i method flags body
    split at h
    · rename_i header
      obtain ⟨⟨out, rest⟩, read, h⟩ := Option.bind_eq_some_iff.mp h
      obtain ⟨more, rfl, fits, same⟩ :=
        (LimitFree.readBlocks _).outcome (Nat.zero_le limit) read
      dsimp only at h
      rw [isFull_within, bytes_within] at h
      by_cases full : limit ≤ more.size
      · rw [if_pos (by simpa using full)] at h
        cases h
        rw [Array.length_toList]
        exact ⟨fits, fun short => by omega⟩
      rw [if_neg (by simpa using full)] at h
      obtain ⟨⟨sum, rest'⟩, sumRead, given⟩ := Option.bind_eq_some_iff.mp h
      dsimp only at given
      split at given
      · rename_i checked
        have checked := beq_iff_eq.mp checked
        cases given
        rw [Array.length_toList]
        refine ⟨fits, fun room limit' room' => ?_⟩
        rw [Array.length_toList] at room'
        have notFull : ¬ limit' ≤ more.size := by omega
        have blocks := (same room).2 limit' room'
        simp only [Output.within, List.size_toArray, List.length_nil, Nat.sub_zero] at blocks
        simp [inflate?, header, blocks, sumRead, checked, Output.isFull, Nat.sub_eq_zero_iff_le,
          notFull]
      · cases given
    · cases h
  · cases h

end Zlib

end VoxelServer
