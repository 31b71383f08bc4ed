import VoxelServer.Proofs.Frame.RoundTrip

/-!
# Frames fed in chunks

A reader appends what arrives to its buffer and takes frames off it until bytes are missing. Where
the network cuts a stream of frames is of no consequence to what it takes:

* `FrameCodec.takeFrames`, `FrameCodec.feed`: the reader, on one buffer and on chunks;
* `FrameCodec.takeFrames_append`: a buffer that grows later gives the frames it would have given;
* `frames_survive_chunks`: the payloads of a stream come back in order, whatever the chunks, the
  threshold and the compressor.
-/

namespace VoxelServer

namespace FrameCodec

/-- Takes whole frames off the front of a buffer until bytes are missing or a frame is faulty.
Gives their payloads, the fault if there is one, and what is left of the buffer. -/
def takeFrames (codec : FrameCodec) (buffer : Bytes) : List Bytes × Except CodecError Unit × Bytes :=
  match decoded : codec.decode buffer with
  | .incomplete => ([], .ok (), buffer)
  | .invalid e rest => ([], .error e, rest)
  | .frame payload rest =>
    have := length_rest_of_frame decoded
    let (payloads, result) := codec.takeFrames rest
    (payload :: payloads, result)
termination_by buffer.length

/-- Takes frames after each chunk that arrives behind a buffer. Nothing is read after a fault. -/
def feed (codec : FrameCodec) (buffer : Bytes) :
    List Bytes → List Bytes × Except CodecError Unit × Bytes
  | [] => ([], .ok (), buffer)
  | chunk :: chunks =>
    match codec.takeFrames (buffer ++ chunk) with
    | (payloads, .ok (), rest) =>
      let (more, result) := codec.feed rest chunks
      (payloads ++ more, result)
    | (payloads, .error e, rest) => (payloads, .error e, rest)

variable {codec : FrameCodec}

/-! ## One round of reading -/

theorem takeFrames_of_incomplete {buffer : Bytes} (decoded : codec.decode buffer = .incomplete) :
    codec.takeFrames buffer = ([], .ok (), buffer) := by
  rw [takeFrames]
  split <;> simp_all

theorem takeFrames_of_invalid {buffer rest : Bytes} {e : CodecError}
    (decoded : codec.decode buffer = .invalid e rest) :
    codec.takeFrames buffer = ([], .error e, rest) := by
  rw [takeFrames]
  split <;> simp_all

theorem takeFrames_of_frame {buffer payload rest : Bytes}
    (decoded : codec.decode buffer = .frame payload rest) :
    codec.takeFrames buffer =
      let (payloads, result) := codec.takeFrames rest
      (payload :: payloads, result) := by
  rw [takeFrames]
  split
  · simp_all
  · simp_all
  · rename_i found
    obtain ⟨rfl, rfl⟩ := Decoded.frame.inj (found.symm.trans decoded)
    rfl

/-! ## A buffer that grows -/

/-- More bytes arrive behind a buffer that frames were taken off. After a fault nobody looks at
them. -/
def takeMore (codec : FrameCodec) (more : Bytes) :
    List Bytes × Except CodecError Unit × Bytes → List Bytes × Except CodecError Unit × Bytes
  | (payloads, .ok (), rest) =>
    let (others, result) := codec.takeFrames (rest ++ more)
    (payloads ++ others, result)
  | (payloads, .error e, rest) => (payloads, .error e, rest ++ more)

theorem takeMore_cons (codec : FrameCodec) (more payload : Bytes)
    (taken : List Bytes × Except CodecError Unit × Bytes) :
    codec.takeMore more (payload :: taken.1, taken.2) =
      let (payloads, result) := codec.takeMore more taken
      (payload :: payloads, result) := by
  obtain ⟨payloads, result, rest⟩ := taken
  cases result <;> rfl

/-- A buffer that grows later gives the frames it would have given as a whole. -/
theorem takeFrames_append (buffer more : Bytes) :
    codec.takeFrames (buffer ++ more) = codec.takeMore more (codec.takeFrames buffer) := by
  fun_induction takeFrames codec buffer with
  | case1 buffer incomplete => rfl
  | case2 buffer e rest invalid =>
    have same := decode_append more (by rw [invalid]; simp)
    rw [invalid] at same
    exact takeFrames_of_invalid same
  | case3 buffer payload rest frame shorter payloads result taken ih =>
    have same := decode_append more (by rw [frame]; simp)
    rw [frame] at same
    have cons := codec.takeMore_cons more payload (payloads, result)
    rw [takeFrames_of_frame same, ih, taken, cons]

/-- Frames are taken until the rest has none. -/
theorem incomplete_of_takeFrames {buffer rest : Bytes} {payloads : List Bytes}
    (taken : codec.takeFrames buffer = (payloads, .ok (), rest)) :
    codec.decode rest = .incomplete := by
  fun_induction takeFrames codec buffer generalizing payloads with
  | case1 buffer incomplete =>
    obtain ⟨-, -, rfl⟩ := by simpa only [Prod.mk.injEq] using taken
    exact incomplete
  | case2 => simp at taken
  | case3 buffer payload rest' frame shorter payloads' result found ih =>
    obtain ⟨-, rfl⟩ := Prod.mk.inj taken
    exact ih found

/-- Chunks without a fault give what the whole stream gives. -/
theorem feed_eq_takeFrames {buffer rest : Bytes} {chunks payloads : List Bytes}
    (waiting : codec.decode buffer = .incomplete)
    (taken : codec.takeFrames (buffer ++ chunks.flatten) = (payloads, .ok (), rest)) :
    codec.feed buffer chunks = (payloads, .ok (), rest) := by
  induction chunks generalizing buffer payloads with
  | nil =>
    rw [List.flatten_nil, List.append_nil, takeFrames_of_incomplete waiting] at taken
    exact taken
  | cons chunk chunks ih =>
    rw [List.flatten_cons, ← List.append_assoc, takeFrames_append] at taken
    rw [feed]
    cases first : codec.takeFrames (buffer ++ chunk) with
    | mk early left =>
      obtain ⟨result, tail⟩ := left
      cases result with
      | error e => simp [first, takeMore] at taken
      | ok =>
        rw [first] at taken
        simp only [takeMore, Prod.mk.injEq] at taken
        obtain ⟨rfl, later⟩ := taken
        dsimp only
        rw [ih (incomplete_of_takeFrames first) (Prod.ext rfl later)]

theorem decode_nil (codec : FrameCodec) : codec.decode [] = .incomplete := rfl

/-! ## A stream of frames -/

/-- A reader with a limit whose threshold was set or not. -/
def ofThreshold (maxLength : Nat) : Option Int32 → FrameCodec
  | none => .ofMaxLength maxLength
  | some threshold => (ofMaxLength maxLength).setCompression threshold

theorem threshold_ofThreshold_of_off (maxLength : Nat) {threshold : Option Int32}
    (off : ∀ t ∈ threshold, t < 0) : (ofThreshold maxLength threshold).threshold = none := by
  cases threshold with
  | none => rfl
  | some t => exact if_pos (off t rfl)

theorem threshold_ofThreshold_of_on (maxLength : Nat) {threshold : Option Int32} {t : Int32}
    (set : t ∈ threshold) (on : 0 ≤ t) :
    (ofThreshold maxLength threshold).threshold = some t.toInt.toNat := by
  cases set
  exact if_neg (Int32.not_lt.mpr on)

variable {deflate : Bytes → Bytes}

theorem bodyWith_of_off (off : codec.threshold = none) (payload : Bytes) :
    codec.bodyWith deflate payload = payload := by
  rw [bodyWith, off]

/-- A whole stream gives its payloads, and no byte is left over. -/
theorem takeFrames_encodeWith {payloads : List Bytes} (undoes : Undoes deflate)
    (bodies : ∀ p ∈ payloads, Fits codec.maxLength (codec.bodyWith deflate p))
    (fit : ∀ p ∈ payloads, Fits codec.maxLength p) :
    codec.takeFrames (payloads.map (codec.encodeWith deflate)).flatten = (payloads, .ok (), []) := by
  induction payloads with
  | nil => exact takeFrames_of_incomplete codec.decode_nil
  | cons payload payloads ih =>
    simp only [List.forall_mem_cons] at bodies fit
    have first : codec.decode (codec.encodeWith deflate payload ++
        (payloads.map (codec.encodeWith deflate)).flatten) = .frame payload _ :=
      decode_encodeWith undoes _ rfl bodies.1 fit.1
    rw [List.map_cons, List.flatten_cons, takeFrames_of_frame first, ih bodies.2 fit.2]

/-- What stands behind the length of a frame under a threshold: the length of the payload, which is
0 exactly where the payload is raw. -/
theorem declared_bodyWith (deflate : Bytes → Bytes) {threshold : Nat} {payload : Bytes}
    (on : codec.threshold = some threshold) (fits : Fits codec.maxLength payload) :
    ∃ declared data,
      (Wire.decode : Decoder VarInt) (codec.bodyWith deflate payload) = .ok (declared, data) ∧
      (declared.value = 0 ↔ payload = [] ∨ payload.length < threshold) := by
  unfold bodyWith
  rw [on]
  dsimp only
  split
  · rename_i raw
    refine ⟨⟨0⟩, payload, rfl, iff_of_true rfl ?_⟩
    simpa [or_comm] using raw
  · rename_i packed
    refine ⟨_, _, decode_varInt (VarInt.ofLength payload.length) (deflate payload), ?_⟩
    have value := toInt_ofLength fits.short
    simp only [Bool.or_eq_true, decide_eq_true_eq, beq_iff_eq, not_or] at packed
    refine iff_of_false (fun zero => ?_) (by simpa [and_comm] using packed)
    rw [zero] at value
    exact packed.2 (Int.ofNat_inj.mp value).symm

end FrameCodec

/-- **Frames survive any chunks.** Payloads that were framed one after the other come back in order
and without a fault, wherever the stream is cut, and no byte is left over. Each frame is the number
of the bytes behind it and these bytes. Where the threshold is off they are the payload; else a
length stands before the data, and it is 0 exactly for payloads that are empty or below the
threshold. This holds for every compressor that is undone, and `Zlib.deflate` is one. -/
theorem frames_survive_chunks {deflate : Bytes → Bytes} (undoes : FrameCodec.Undoes deflate)
    (max : Nat) (threshold : Option Int32) (payloads chunks : List Bytes) :
    let codec := FrameCodec.ofThreshold max threshold
    (∀ p ∈ payloads, FrameCodec.Fits max (FrameCodec.bodyOf (codec.encodeWith deflate p))) →
    (∀ p ∈ payloads, FrameCodec.Fits max p) →
    chunks.flatten = (payloads.map (codec.encodeWith deflate)).flatten →
    codec.feed [] chunks = (payloads, .ok (), []) ∧
    (∀ p ∈ payloads, ∃ declared body,
      (Wire.decode : Decoder VarInt) (codec.encodeWith deflate p) = .ok (declared, body) ∧
      declared.value.toInt = body.length ∧
      ((∀ t ∈ threshold, t < 0) → body = p) ∧
      ∀ t ∈ threshold, 0 ≤ t → ∃ length data,
        (Wire.decode : Decoder VarInt) body = .ok (length, data) ∧
        (length.value = 0 ↔ p = [] ∨ (p.length : Int) < t.toInt)) ∧
    FrameCodec.Undoes Zlib.deflate ∧ codec.encode = codec.encodeWith Zlib.deflate := by
  intro codec bodies fit whole
  have limit : codec.maxLength = max := by
    cases threshold <;> rfl
  simp only [FrameCodec.bodyOf_encodeWith, ← limit] at bodies fit
  refine ⟨?_, fun p hp => ?_, FrameCodec.undoes_deflate, rfl⟩
  · refine FrameCodec.feed_eq_takeFrames codec.decode_nil ?_
    rw [List.nil_append, whole]
    exact FrameCodec.takeFrames_encodeWith undoes bodies fit
  · refine ⟨_, _, FrameCodec.decode_frameWith deflate codec p, toInt_ofLength (bodies p hp).short,
      fun off => ?_, fun t ht on => ?_⟩
    · exact FrameCodec.bodyWith_of_off (FrameCodec.threshold_ofThreshold_of_off max off) p
    · have set := FrameCodec.threshold_ofThreshold_of_on max ht on
      obtain ⟨length, data, read, zero⟩ :=
        FrameCodec.declared_bodyWith deflate set (fit p hp)
      refine ⟨length, data, read, zero.trans (or_congr_right ?_)⟩
      have nonneg : (0 : Int32).toInt ≤ t.toInt := Int32.le_iff_toInt_le.mp on
      simp only [Int32.toInt_zero] at nonneg
      omega

/-- An empty payload, a short one and a packed one, in chunks that end inside of a header and inside
of a body. -/
theorem three_frames_survive_chunks :
    ((FrameCodec.ofMaxLength 64).setCompression 4).feed []
      [[1], [0, 3, 0, 7], [7, 17], [5, 120, 1, 1, 5, 0, 250], [],
        [255, 1, 2, 3, 4, 5, 0, 40, 0, 16]] =
      ([[], [7, 7], [1, 2, 3, 4, 5]], .ok (), []) := by
  refine (frames_survive_chunks FrameCodec.undoes_deflate 64 (some 4)
    [[], [7, 7], [1, 2, 3, 4, 5]] _ ?_ ?_ ?_).1
  · intro p hp
    simp only [List.mem_cons, List.not_mem_nil, or_false] at hp
    obtain rfl | rfl | rfl := hp <;> constructor <;> decide +kernel
  · intro p hp
    simp only [List.mem_cons, List.not_mem_nil, or_false] at hp
    obtain rfl | rfl | rfl := hp <;> constructor <;> decide
  · decide +kernel

end VoxelServer
