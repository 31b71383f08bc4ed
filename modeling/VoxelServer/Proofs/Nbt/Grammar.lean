import VoxelServer.Proofs.Nbt.Extent
import VoxelServer.Proofs.Nbt.RoundTrip
import VoxelServer.Proofs.Wire.Consuming

/-!
# The payloads that are passed over

The walk over a tag tree accepts a language of byte strings, given here without it:

* `Nbt.Payload`: the well-formed payloads of a tag, no part of which is nested too deeply;
* `Nbt.Payload.reads`: each of them is passed over, whatever follows it;
* `Nbt.skipWithin_consumes`: nothing else is;
* `Nbt.skip_eq_ok_iff`: the walk ends at `rest` exactly when what is before `rest` is a payload.
-/

namespace VoxelServer

namespace Nbt

/-- How many bytes a number of this tag takes. -/
def scalarWidth? : UInt8 → Option Nat
  | 1 => some 1
  | 2 => some 2
  | 3 | 5 => some 4
  | 4 | 6 => some 8
  | _ => none

/-- How many bytes each element of an array of this tag takes. -/
def elementWidth? : UInt8 → Option Nat
  | 7 => some 1
  | 11 => some 4
  | 12 => some 8
  | _ => none

/-- A text behind its length. -/
def named (text : Bytes) : Bytes := Bytes.ofNatBE 2 text.length ++ text

/-- An entry of a compound as it stands on the wire. -/
structure RawEntry where
  tag : UInt8
  name : Bytes
  payload : Bytes

namespace RawEntry

/-- Zero ends a compound, and 16 bits give the length of a name. -/
structure Proper (entry : RawEntry) : Prop where
  tag_ne : entry.tag ≠ 0
  short : entry.name.length < 2 ^ 16

def bytes (entry : RawEntry) : Bytes := entry.tag :: (named entry.name ++ entry.payload)

end RawEntry

/-- The well-formed payloads of a tag around which `depth` others are open. -/
inductive Payload : (depth : Nat) → (tag : UInt8) → Bytes → Prop
  | scalar {depth : Nat} {tag : UInt8} {number : Bytes} (shallow : depth ≤ maxDepth)
      (width : scalarWidth? tag = some number.length) : Payload depth tag number
  | array {depth width : Nat} {tag : UInt8} {count : Int32} {elements : Bytes}
      (shallow : depth ≤ maxDepth) (each : elementWidth? tag = some width) (nonneg : ¬ count < 0)
      (length : elements.length = count.toInt.toNat * width) :
      Payload depth tag (Wire.encode count ++ elements)
  | string {depth : Nat} {text : Bytes} (shallow : depth ≤ maxDepth)
      (short : text.length < 2 ^ 16) : Payload depth 8 (named text)
  | list {depth : Nat} {inner : UInt8} {count : Int32} {elements : List Bytes}
      (shallow : depth ≤ maxDepth) (length : elements.length = count.toInt.toNat)
      (members : ∀ element ∈ elements, Payload (depth + 1) inner element) :
      Payload depth 9 ([inner] ++ (Wire.encode count ++ elements.flatten))
  | compound {depth : Nat} {entries : List RawEntry} (shallow : depth ≤ maxDepth)
      (proper : ∀ entry ∈ entries, entry.Proper)
      (members : ∀ entry ∈ entries, Payload (depth + 1) entry.tag entry.payload) :
      Payload depth 10 (entries.flatMap RawEntry.bytes ++ [0])

theorem scalarWidth?_pos {tag : UInt8} {width : Nat} (h : scalarWidth? tag = some width) :
    isKnownTag tag = true ∧ 0 < width := by
  unfold scalarWidth? at h
  split at h <;> cases h <;> decide

theorem elementWidth?_known {tag : UInt8} {width : Nat} (h : elementWidth? tag = some width) :
    isKnownTag tag = true := by
  unfold elementWidth? at h
  split at h <;> cases h <;> rfl

/-- Only known tags have payloads, and no payload is empty. -/
theorem Payload.nonempty {depth : Nat} {tag : UInt8} {bytes : Bytes}
    (h : Payload depth tag bytes) : isKnownTag tag = true ∧ 0 < bytes.length := by
  cases h with
  | scalar _ width => exact scalarWidth?_pos width
  | array _ each =>
    refine ⟨elementWidth?_known each, ?_⟩
    rw [List.length_append, show (Wire.encode _).length = 4 from Bytes.length_ofNatBE 4 _]
    omega
  | string =>
    refine ⟨rfl, ?_⟩
    rw [named, List.length_append, Bytes.length_ofNatBE]
    omega
  | list =>
    refine ⟨rfl, ?_⟩
    rw [List.length_append, List.length_singleton]
    omega
  | compound =>
    refine ⟨rfl, ?_⟩
    rw [List.length_append, List.length_singleton]
    omega

theorem Payload.shallow {depth : Nat} {tag : UInt8} {bytes : Bytes}
    (h : Payload depth tag bytes) : depth ≤ maxDepth := by
  cases h <;> assumption

/-! ## Payloads are passed over -/

theorem skipWithin_scalar {tag : UInt8} {width : Nat} (h : scalarWidth? tag = some width)
    (left : Nat) : skipWithin (left + 1) tag = discard (take width) := by
  unfold scalarWidth? at h
  split at h <;> cases h <;> rfl

theorem skipWithin_array {tag : UInt8} {width : Nat} (h : elementWidth? tag = some width)
    (left : Nat) : skipWithin (left + 1) tag = discard (takeArray width) := by
  unfold elementWidth? at h
  split at h <;> cases h <;> rfl

theorem reads_takeArray_of_length {width : Nat} {count : Int32} {elements : Bytes}
    (nonneg : ¬ count < 0) (length : elements.length = count.toInt.toNat * width) :
    (takeArray width).Reads (Wire.encode count ++ elements) elements := by
  refine (LawfulWire.reads count).bind ?_
  rw [if_neg nonneg]
  exact .take length

theorem reads_skipTimes {skip : Decoder Unit} {elements : List Bytes}
    (each : ∀ element ∈ elements, skip.Reads element ()) :
    (skipTimes skip elements.length).Reads elements.flatten () := by
  induction elements with
  | nil => exact .pure ()
  | cons element elements ih =>
    rw [List.flatten_cons]
    exact (each element List.mem_cons_self).bind
      (ih fun element' mem => each element' (List.mem_cons_of_mem _ mem))

theorem reads_skipEntries {skip : UInt8 → Decoder Unit} {entries : List RawEntry}
    (proper : ∀ entry ∈ entries, entry.Proper)
    (each : ∀ entry ∈ entries, (skip entry.tag).Reads entry.payload ()) {rounds : Bytes}
    (enough : entries.length < rounds.length) :
    (skipEntries skip rounds).Reads (entries.flatMap RawEntry.bytes ++ [0]) () := by
  induction entries generalizing rounds with
  | nil =>
    obtain _ | ⟨_, rounds⟩ := rounds
    · cases enough
    · exact (reads_byte 0).bind_nil (.pure ())
  | cons entry entries ih =>
    obtain _ | ⟨_, rounds⟩ := rounds
    · cases enough
    have others := ih (fun entry' mem => proper entry' (List.mem_cons_of_mem _ mem))
      (fun entry' mem => each entry' (List.mem_cons_of_mem _ mem)) (Nat.lt_of_succ_lt_succ enough)
    have goes_on : ¬ (entry.tag == 0) = true := by
      rw [beq_iff_eq]
      exact (proper entry List.mem_cons_self).tag_ne
    have bytes : (entry :: entries).flatMap RawEntry.bytes ++ [0] =
        [entry.tag] ++ (named entry.name ++
          (entry.payload ++ (entries.flatMap RawEntry.bytes ++ [0]))) := by
      simp [RawEntry.bytes]
    rw [bytes]
    refine (reads_byte _).bind ?_
    rw [if_neg goes_on]
    refine (reads_takeName (proper entry List.mem_cons_self).short).bind ?_
    exact (each entry List.mem_cons_self).bind others

/-- Every entry takes a byte. -/
theorem length_le_flatMap_bytes (entries : List RawEntry) :
    entries.length ≤ (entries.flatMap RawEntry.bytes).length := by
  induction entries with
  | nil => exact Nat.le_refl 0
  | cons entry entries ih =>
    rw [List.flatMap_cons, List.length_append, RawEntry.bytes, List.length_cons, List.length_cons]
    omega

/-- A payload that is not too deep may be begun, with one less for those inside it. -/
theorem exists_left {left depth : Nat} (shallow : depth ≤ maxDepth)
    (limit : left + depth = maxDepth + 1) :
    ∃ inside, left = inside + 1 ∧ inside + (depth + 1) = maxDepth + 1 :=
  ⟨left - 1, by omega, by omega⟩

/-- A payload is passed over, whatever follows it. -/
theorem Payload.reads {depth : Nat} {tag : UInt8} {bytes : Bytes} (h : Payload depth tag bytes)
    {left : Nat} (limit : left + depth = maxDepth + 1) : (skipWithin left tag).Reads bytes () := by
  induction h generalizing left with
  | scalar shallow width =>
    obtain ⟨left, rfl, -⟩ := exists_left shallow limit
    rw [skipWithin_scalar width]
    exact .discard (.take rfl)
  | array shallow each nonneg length =>
    obtain ⟨left, rfl, -⟩ := exists_left shallow limit
    rw [skipWithin_array each]
    exact .discard (reads_takeArray_of_length nonneg length)
  | string shallow short =>
    obtain ⟨left, rfl, -⟩ := exists_left shallow limit
    exact .discard (reads_takeName short)
  | list shallow length _ members =>
    obtain ⟨left, rfl, inside⟩ := exists_left shallow limit
    refine (reads_byte _).bind ((LawfulWire.reads _).bind ?_)
    rw [← length]
    exact reads_skipTimes fun element mem => members element mem inside
  | @compound _ entries shallow proper _ members =>
    obtain ⟨left, rfl, inside⟩ := exists_left shallow limit
    intro rest
    -- the input itself bounds the rounds
    have few : entries.length < (entries.flatMap RawEntry.bytes ++ [0] ++ rest).length := by
      have each := length_le_flatMap_bytes entries
      simp only [List.length_append, List.length_singleton]
      omega
    exact reads_skipEntries proper (fun entry mem => members entry mem inside) few rest

/-! ## Nothing else is passed over -/

theorem takeName_consumes : takeName.Consumes fun taken text =>
    taken = named text ∧ text.length < 2 ^ 16 := by
  refine Decoder.Consumes.uint16.bind ?_
  rintro _ length rfl
  refine (Decoder.Consumes.take _).mono ?_
  rintro text _ ⟨rfl, fits⟩
  rw [named, fits]
  exact ⟨rfl, length.toNat_lt⟩

theorem takeArray_consumes (width : Nat) : (takeArray width).Consumes fun taken elements =>
    ∃ count : Int32, ¬ count < 0 ∧ elements.length = count.toInt.toNat * width ∧
      taken = Wire.encode count ++ elements := by
  refine Decoder.Consumes.int32.bind ?_
  rintro _ count rfl
  split
  · exact .throw _
  rename_i nonneg
  refine (Decoder.Consumes.take _).mono ?_
  rintro elements _ ⟨rfl, fits⟩
  exact ⟨count, nonneg, fits, rfl⟩

theorem skipTimes_consumes {skip : Decoder Unit} {P : Bytes → Prop}
    (each : skip.Consumes fun taken _ => P taken) (count : Nat) :
    (skipTimes skip count).Consumes fun taken _ => ∃ elements : List Bytes,
      elements.length = count ∧ (∀ element ∈ elements, P element) ∧ taken = elements.flatten := by
  induction count with
  | zero => exact .pure ⟨[], rfl, by simp, rfl⟩
  | succ count ih =>
    refine each.bind ?_
    rintro element _ suits
    refine ih.mono ?_
    rintro _ _ ⟨elements, rfl, suit, rfl⟩
    exact ⟨element :: elements, rfl, List.forall_mem_cons.mpr ⟨suits, suit⟩, rfl⟩

/-- Rounds run out only behind at least as many bytes, since every entry takes one. -/
theorem skipEntries_consumes {skip : UInt8 → Decoder Unit} {P : UInt8 → Bytes → Prop}
    (each : ∀ tag, (skip tag).Consumes fun taken _ => P tag taken) (rounds : Bytes) :
    (skipEntries skip rounds).Consumes fun taken _ =>
      rounds.length < taken.length ∨ ∃ entries : List RawEntry, (∀ entry ∈ entries, entry.Proper) ∧
        (∀ entry ∈ entries, P entry.tag entry.payload) ∧
          taken = entries.flatMap RawEntry.bytes ++ [0] := by
  induction rounds with
  | nil =>
    refine (Decoder.Consumes.take 1).bind ?_
    rintro _ front ⟨rfl, one⟩
    refine .pure (.inl ?_)
    rw [List.append_nil, one]
    exact Nat.one_pos
  | cons round rounds ih =>
    refine Decoder.Consumes.byte.bind ?_
    rintro _ tag rfl
    split
    case isTrue ends =>
      obtain rfl := eq_of_beq ends
      exact .pure (.inr ⟨[], by simp, by simp, rfl⟩)
    case isFalse goes_on =>
      refine takeName_consumes.bind ?_
      rintro _ name ⟨rfl, short⟩
      refine (each tag).bind ?_
      rintro payload _ suits
      refine ih.mono ?_
      rintro taken _ (many | ⟨entries, proper, suit, rfl⟩)
      · left
        simp only [List.length_append, List.length_cons]
        omega
      · right
        have nonzero : tag ≠ 0 := fun zero => goes_on (beq_iff_eq.mpr zero)
        refine ⟨⟨tag, name, payload⟩ :: entries, ?_, ?_, ?_⟩
        · exact List.forall_mem_cons.mpr ⟨⟨nonzero, short⟩, proper⟩
        · exact List.forall_mem_cons.mpr ⟨suits, suit⟩
        · simp [RawEntry.bytes]

/-- What is passed over is a payload. -/
theorem skipWithin_consumes {left depth : Nat} (limit : left + depth = maxDepth + 1)
    (tag : UInt8) : (skipWithin left tag).Consumes fun taken _ => Payload depth tag taken := by
  induction left generalizing depth tag with
  | zero => exact .throw _
  | succ left ih =>
    have shallow : depth ≤ maxDepth := by omega
    have inside (inner : UInt8) :
        (skipWithin left inner).Consumes fun taken _ => Payload (depth + 1) inner taken :=
      ih (by omega) inner
    unfold skipWithin
    split
    -- a string
    case h_8 =>
      refine .discard (takeName_consumes.mono ?_)
      rintro _ text ⟨rfl, short⟩
      exact .string shallow short
    -- a list
    case h_9 =>
      refine Decoder.Consumes.byte.bind ?_
      rintro _ inner rfl
      refine Decoder.Consumes.int32.bind ?_
      rintro _ count rfl
      refine (skipTimes_consumes (inside inner) _).mono ?_
      rintro _ _ ⟨elements, length, members, rfl⟩
      exact .list shallow length members
    -- a compound
    case h_10 =>
      intro input _ rest given
      obtain ⟨taken, split, fits⟩ := skipEntries_consumes inside input input () rest given
      refine ⟨taken, split, ?_⟩
      obtain many | ⟨entries, proper, members, rfl⟩ := fits
      · rw [split, List.length_append] at many
        omega
      · exact .compound shallow proper members
    case h_13 => exact .throw _
    case h_7 | h_11 | h_12 =>
      refine .discard ((takeArray_consumes _).mono ?_)
      rintro _ elements ⟨count, nonneg, length, rfl⟩
      exact .array shallow rfl nonneg length
    all_goals
      refine .discard ((Decoder.Consumes.take _).mono ?_)
      rintro taken _ ⟨rfl, length⟩
      exact .scalar shallow (congrArg some length.symm)

/-- The walk accepts exactly the payloads of a tag. -/
theorem skip_eq_ok_iff (tag : UInt8) (depth : Nat) (input rest : Bytes) :
    skip tag depth input = .ok ((), rest) ↔
      ∃ bytes, input = bytes ++ rest ∧ Payload depth tag bytes := by
  constructor
  · intro given
    by_cases shallow : depth ≤ maxDepth
    · exact skipWithin_consumes (by omega) tag input () rest given
    · rw [skip, show maxDepth + 1 - depth = 0 by omega] at given
      cases given
  · rintro ⟨bytes, rfl, payload⟩
    have shallow := payload.shallow
    exact payload.reads (by omega) rest

/-- No payload goes on where another one ends. -/
theorem Payload.unique {depth : Nat} {tag : UInt8} {bytes bytes' rest rest' : Bytes}
    (h : Payload depth tag bytes) (h' : Payload depth tag bytes')
    (same : bytes ++ rest = bytes' ++ rest') : bytes = bytes' := by
  have walked := (skip_eq_ok_iff tag depth _ rest).mpr ⟨bytes, rfl, h⟩
  rw [same, (skip_eq_ok_iff tag depth _ rest').mpr ⟨bytes', rfl, h'⟩] at walked
  cases walked
  exact List.append_cancel_right same

end Nbt

end VoxelServer
