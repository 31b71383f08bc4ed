import VoxelServer.Nbt.Reader
import VoxelServer.Proofs.Wire.Delimiting
import VoxelServer.Proofs.Wire.Reads

/-!
# Tag trees that are still arriving

The walk over a tag tree stops where the tree ends, and says of a part of one that bytes are
missing:

* `Nbt.skipEntries_rounds`: the walk over a compound never runs out of rounds, so that the length of
  the input does not matter;
* `Nbt.skipWithin_selfDelimiting`: the walk, by induction on the nesting;
* `Nbt.decodeRoot_selfDelimiting`: so is a whole tree, as only measured bytes are read.
-/

namespace VoxelServer

namespace Decoder

variable {α β : Type}

/-- Decoders that go on alike from wherever the first one stops. -/
theorem bind_congr {d : Decoder α} {f g : α → Decoder β} {input : Bytes}
    (alike : ∀ a rest, d input = .ok (a, rest) → f a rest = g a rest) :
    (d >>= f) input = (d >>= g) input := by
  simp only [Bind.bind, StateT.bind, Except.bind]
  cases first : d input with
  | error e => rfl
  | ok r => exact alike r.1 r.2 first

/-- Only the bytes that were passed over are given, not their number among those that arrived. -/
theorem SelfDelimiting.measure {d : Decoder Unit} (hd : d.SelfDelimiting) :
    d.measure.SelfDelimiting where
  ok {input bytes rest} given := by
    simp only [Decoder.measure, Bind.bind, Except.bind] at given ⊢
    cases walked : d input with
    | error e => simp [walked] at given
    | ok r =>
      simp only [walked] at given
      cases given
      obtain ⟨⟨front, rfl⟩, same⟩ := hd.ok walked
      refine ⟨List.suffix_append _ _, fun more => ?_⟩
      rw [same more]
      simp [Pure.pure, Except.pure]
  error {input e} refused final more := by
    simp only [Decoder.measure, Bind.bind, Except.bind] at refused ⊢
    cases walked : d input with
    | ok r => simp [walked, Pure.pure, Except.pure] at refused
    | error e' =>
      simp only [walked] at refused
      cases refused
      rw [hd.error walked final more]

end Decoder

namespace Nbt

open Decoder (SelfDelimiting)

theorem takeName_selfDelimiting : takeName.SelfDelimiting :=
  SelfDelimiting.ofWord.bind fun _ => .take _

theorem takeArray_selfDelimiting (width : Nat) : (takeArray width).SelfDelimiting := by
  refine SelfDelimiting.ofWord.bind fun count => ?_
  split
  · exact .throw _
  · exact .take _

theorem skipTimes_selfDelimiting {skip : Decoder Unit} (h : skip.SelfDelimiting) (count : Nat) :
    (skipTimes skip count).SelfDelimiting := by
  induction count with
  | zero => exact .pure ()
  | succ count ih => exact h.bind fun _ => ih

section Entries

variable {skip : UInt8 → Decoder Unit} (h : ∀ tag, (skip tag).SelfDelimiting)

include h

theorem skipEntries_selfDelimiting (rounds : Bytes) :
    (skipEntries skip rounds).SelfDelimiting := by
  induction rounds with
  | nil => exact (SelfDelimiting.take 1).bind fun _ => .pure ()
  | cons _ rounds ih =>
    refine SelfDelimiting.ofWord.bind fun tag => ?_
    split
    · exact .pure ()
    · exact takeName_selfDelimiting.bind fun _ => (h tag).bind fun _ => ih

/-- Rounds that are at least as many as the bytes do not run out: every entry takes a byte. -/
theorem skipEntries_rounds {rounds rounds' input : Bytes} (enough : input.length ≤ rounds.length)
    (enough' : input.length ≤ rounds'.length) :
    skipEntries skip rounds input = skipEntries skip rounds' input := by
  induction rounds generalizing rounds' input with
  | nil =>
    obtain rfl := List.length_eq_zero_iff.mp (Nat.le_zero.mp enough)
    cases rounds' <;> rfl
  | cons r rounds ih =>
    cases input with
    | nil => cases rounds' <;> rfl
    | cons b input =>
      cases rounds' with
      | nil => simp at enough'
      | cons r' rounds' =>
        unfold skipEntries
        refine Decoder.bind_congr fun tag rest read => ?_
        rw [show b :: input = [b] ++ input from rfl, reads_byte b input] at read
        cases read
        split
        · rfl
        refine Decoder.bind_congr fun _ afterName named => ?_
        refine Decoder.bind_congr fun _ afterValue skipped => ?_
        have name := (takeName_selfDelimiting.ok named).1.length_le
        have value := ((h b).ok skipped).1.length_le
        simp only [List.length_cons] at enough enough'
        exact ih (by omega) (by omega)

/-- More bytes bring more rounds, which make no difference. -/
theorem skipCompound_selfDelimiting :
    SelfDelimiting fun input => skipEntries skip input input := by
  have more_rounds (input more : Bytes) :
      skipEntries skip input input = skipEntries skip (input ++ more) input :=
    skipEntries_rounds h (Nat.le_refl _) (by simp)
  constructor
  case ok =>
    intro input v rest given
    refine ⟨((skipEntries_selfDelimiting h input).ok given).1, ?_⟩
    intro more
    rw [more_rounds input more] at given
    exact ((skipEntries_selfDelimiting h (input ++ more)).ok given).2 more
  case error =>
    intro input e refused final more
    rw [more_rounds input more] at refused
    exact (skipEntries_selfDelimiting h (input ++ more)).error refused final more

end Entries

theorem skipWithin_selfDelimiting (left : Nat) (tag : UInt8) :
    (skipWithin left tag).SelfDelimiting := by
  induction left generalizing tag with
  | zero => exact .throw _
  | succ left ih =>
    unfold skipWithin
    split
    -- a list
    case h_9 =>
      exact SelfDelimiting.ofWord.bind fun inner => SelfDelimiting.ofWord.bind fun count =>
        skipTimes_selfDelimiting (ih inner) _
    -- a compound
    case h_10 => exact skipCompound_selfDelimiting ih
    all_goals first
      | exact .throw _
      | exact .discard (.take _)
      | exact .discard takeName_selfDelimiting
      | exact .discard (takeArray_selfDelimiting _)

theorem readRoot_selfDelimiting (payload : Bytes) : (readRoot payload).SelfDelimiting := by
  unfold readRoot
  split
  · exact .pure _
  · exact .throw _

theorem decodeRoot_selfDelimiting : decodeRoot.SelfDelimiting := by
  refine SelfDelimiting.ofWord.bind fun tag => ?_
  split
  · exact .pure none
  split
  · refine takeName_selfDelimiting.bind fun _ => ?_
    refine (skipWithin_selfDelimiting _ 10).measure.bind fun payload => ?_
    exact (readRoot_selfDelimiting payload).bind fun _ => .pure _
  · exact .throw _

end Nbt

end VoxelServer
