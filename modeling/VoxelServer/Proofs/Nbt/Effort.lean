import VoxelServer.Proofs.Computations
import VoxelServer.Proofs.Nbt.Grammar

/-!
# How much a walk over a tag tree does

The counts in a tag tree come from the peer, and a list may announce two billion elements in five
bytes. A walk that keeps a tally shows that announcing them costs nothing:

* `Nbt.countWithin`: the walk, with the payloads that were begun and those that were passed over;
* `Nbt.countWithin_counts`: it ends as `Nbt.skipWithin` does;
* `Nbt.countWithin_charged`: every payload that is passed over is paid for with a byte, also where
  the walk fails in the end;
* `Nbt.skip_exact`: which inputs are passed over, and for how many payloads.
-/

namespace VoxelServer

namespace Nbt

/-- How many payloads a walk has begun, and how many of them it has passed over. -/
structure Tally where
  begun : Nat
  passed : Nat

/-- Decoders that keep a tally, also of what they do before they fail. -/
abbrev Counting := StateT Bytes (ExceptT CodecError (StateM Tally))

namespace Counting

variable {α β : Type}

/-- A decoder that leaves the tally as it is. -/
def quiet (d : Decoder α) : Counting α := fun input tally => (d input, tally)

def enter : Counting Unit := fun input tally =>
  (.ok ((), input), { tally with begun := tally.begun + 1 })

def leave : Counting Unit := fun input tally =>
  (.ok ((), input), { tally with passed := tally.passed + 1 })

end Counting

open Counting (quiet enter leave)

/-- `skipTimes`, counting. -/
def countTimes (walk : Counting Unit) : (count : Nat) → Counting Unit
  | 0 => return ()
  | count + 1 => do
    walk
    countTimes walk count

/-- `skipEntries`, counting. -/
def countEntries (walk : UInt8 → Counting Unit) : (rounds : Bytes) → Counting Unit
  | [] => quiet (skipEntries (fun _ => return ()) [])
  | _ :: rounds => do
    let tag : UInt8 ← quiet Wire.decode
    if tag == 0 then return ()
    else
      let _ ← quiet takeName
      walk tag
      countEntries walk rounds

/-- What is inside a payload, where `walk` passes over those nested in it. -/
def countInside (walk : UInt8 → Counting Unit) (left : Nat) (tag : UInt8) : Counting Unit :=
  match tag with
  | 9 => do
    let inner : UInt8 ← quiet Wire.decode
    let count : Int32 ← quiet Wire.decode
    countTimes (walk inner) count.toInt.toNat
  | 10 => fun input => countEntries walk input input
  | tag => quiet (skipWithin (left + 1) tag)

/-- `skipWithin`, counting each payload as it begins and again once it is passed over. -/
def countWithin : (left : Nat) → (tag : UInt8) → Counting Unit
  | 0, tag => do
    enter
    quiet (skipWithin 0 tag)
  | left + 1, tag => do
    enter
    countInside (countWithin left) left tag
    leave

namespace Counting

variable {α β : Type}

theorem run_bind (c : Counting α) (f : α → Counting β) (input : Bytes) (tally : Tally) :
    (c >>= f) input tally =
      match c input tally with
      | (.ok (a, rest), tally') => f a rest tally'
      | (.error e, tally') => (.error e, tally') := by
  refine (run_bind_state (c input) (fun r => f r.1 r.2) tally).trans ?_
  cases c input tally with
  | mk result tally' => cases result <;> rfl

/-! ## The tally changes nothing -/

/-- A decoder that keeps a tally, and the same one without it. -/
def Counts (c : Counting α) (d : Decoder α) : Prop := ∀ input tally, (c input tally).1 = d input

namespace Counts

theorem quiet (d : Decoder α) : (quiet d).Counts d := fun _ _ => rfl

theorem bind {c : Counting α} {d : Decoder α} {f : α → Counting β} {g : α → Decoder β}
    (hc : c.Counts d) (hf : ∀ a, (f a).Counts (g a)) : Counting.Counts (c >>= f) (d >>= g) := by
  intro input tally
  have first := hc input tally
  rw [run_bind]
  simp only [Bind.bind, StateT.bind, Except.bind, ← first]
  cases c input tally with
  | mk result tally' =>
    cases result with
    | error e => rfl
    | ok r => exact hf r.1 r.2 tally'

/-- What is counted on the way in and on the way out is not seen in the result. -/
theorem enter_bind {c : Counting α} {d : Decoder α} (hc : c.Counts d) :
    Counting.Counts (do enter; c) d :=
  fun input _ => hc input _

theorem bind_leave {c : Counting Unit} {d : Decoder Unit} (hc : c.Counts d) :
    Counting.Counts (do c; leave) d := by
  intro input tally
  have first := hc input tally
  rw [run_bind, ← first]
  cases c input tally with
  | mk result tally' => cases result <;> rfl

end Counts

end Counting

theorem countTimes_counts {walk : Counting Unit} {skip : Decoder Unit} (h : walk.Counts skip)
    (count : Nat) : (countTimes walk count).Counts (skipTimes skip count) := by
  induction count with
  | zero => exact fun _ _ => rfl
  | succ count ih => exact h.bind fun _ => ih

theorem countEntries_counts {walk : UInt8 → Counting Unit} {skip : UInt8 → Decoder Unit}
    (h : ∀ tag, (walk tag).Counts (skip tag)) (rounds : Bytes) :
    (countEntries walk rounds).Counts (skipEntries skip rounds) := by
  induction rounds with
  | nil => exact .quiet _
  | cons _ rounds ih =>
    refine (Counting.Counts.quiet _).bind fun tag => ?_
    split
    · exact fun _ _ => rfl
    · exact (Counting.Counts.quiet _).bind fun _ => (h tag).bind fun _ => ih

/-- The walk that counts ends as the walk that does not. -/
theorem countWithin_counts (left : Nat) (tag : UInt8) :
    (countWithin left tag).Counts (skipWithin left tag) := by
  induction left generalizing tag with
  | zero => exact .enter_bind (.quiet _)
  | succ left ih =>
    refine .enter_bind (.bind_leave ?_)
    unfold countInside
    split
    · exact (Counting.Counts.quiet _).bind fun inner =>
        (Counting.Counts.quiet _).bind fun count => countTimes_counts (ih inner) _
    · exact fun input => countEntries_counts ih input input
    · exact .quiet _

/-! ## Payloads are paid for with bytes -/

namespace Counting

variable {α β : Type} {spare : Nat}

/-- Every payload is paid for with a byte of the input, and so many bytes are left over. Where the
walk fails, the payloads that are open have been paid for by those around them, all but the
outermost. -/
structure Charged (spare : Nat) (c : Counting α) : Prop where
  ok {input a rest tally tally'} : c input tally = (.ok (a, rest), tally') →
    tally'.begun + rest.length + spare ≤ tally.begun + input.length ∧
      tally'.passed + rest.length + spare ≤ tally.passed + input.length
  error {input e tally tally'} : c input tally = (.error e, tally') →
    tally'.begun + spare ≤ tally.begun + input.length + 1 ∧
      tally'.passed ≤ tally.passed + input.length

namespace Charged

theorem pure (a : α) : Counting.Charged 0 (Pure.pure a) where
  ok {_ _ _ _ _} given := by
    cases given
    exact ⟨Nat.le_refl _, Nat.le_refl _⟩
  error {_ _ _ _} refused := by cases refused

theorem quiet {d : Decoder α} (few : spare ≤ 1)
    (takes : d.Consumes fun taken _ => spare ≤ taken.length) : (quiet d).Charged spare where
  ok {input a rest tally _} given := by
    obtain ⟨result, rfl⟩ := Prod.mk.inj given
    obtain ⟨taken, rfl, long⟩ := takes input a rest result
    rw [List.length_append]
    omega
  error {_ _ _ _} refused := by
    obtain ⟨_, rfl⟩ := Prod.mk.inj refused
    omega

/-- Bytes that are read beside the payloads pay for nothing. -/
theorem gratis {d : Decoder α} {P : Bytes → α → Prop} (takes : d.Consumes P) :
    (Counting.quiet d).Charged 0 :=
  .quiet (Nat.zero_le 1) (takes.mono fun _ _ _ => Nat.zero_le _)

/-- What is left over at first is left over at the end. -/
theorem bind {c : Counting α} {f : α → Counting β} (hc : c.Charged spare)
    (hf : ∀ a, (f a).Charged 0) : Counting.Charged spare (c >>= f) where
  ok {input b rest tally tally'} given := by
    rw [run_bind] at given
    split at given
    · rename_i first
      have before := hc.ok first
      have after := (hf _).ok given
      omega
    · cases given
  error {input e tally tally'} refused := by
    rw [run_bind] at refused
    split at refused
    · rename_i first
      have before := hc.ok first
      have after := (hf _).error refused
      omega
    · rename_i first
      cases refused
      exact hc.error first

theorem weaken {c : Counting α} (hc : c.Charged spare) : c.Charged 0 where
  ok {_ _ _ _ _} given := by
    have charged := hc.ok given
    omega
  error {_ _ _ _} refused := by
    have charged := hc.error refused
    omega

theorem byte : (Counting.quiet (Wire.decode : Decoder UInt8)).Charged 1 := by
  refine .quiet (Nat.le_refl 1) (Decoder.Consumes.byte.mono ?_)
  rintro _ tag rfl
  exact Nat.le_refl 1

/-- The byte that is left over pays for the payload itself. -/
theorem payload {c : Counting Unit} (hc : c.Charged 1) :
    Counting.Charged 0 (do enter; c; leave) where
  ok {input a rest tally tally'} given := by
    rw [run_bind] at given
    simp only [enter, run_bind] at given
    split at given
    · rename_i inside
      have charged := hc.ok inside
      cases given
      dsimp only at charged ⊢
      omega
    · cases given
  error {input e tally tally'} refused := by
    rw [run_bind] at refused
    simp only [enter, run_bind] at refused
    split at refused
    · cases refused
    · rename_i inside
      have charged := hc.error inside
      cases refused
      dsimp only at charged
      omega

/-- A payload nested too deeply is begun and left at once. -/
theorem refused (e : CodecError) : Counting.Charged 0 (do enter; (throw e : Counting α)) where
  ok {_ _ _ _ _} given := by cases given
  error {_ _ _ _} refused := by
    cases refused
    dsimp only
    omega

end Charged

end Counting

theorem countTimes_charged {walk : Counting Unit} (h : walk.Charged 0) (count : Nat) :
    (countTimes walk count).Charged 0 := by
  induction count with
  | zero => exact .pure ()
  | succ count ih => exact h.bind fun _ => ih

theorem countEntries_charged {walk : UInt8 → Counting Unit} (h : ∀ tag, (walk tag).Charged 0)
    (rounds : Bytes) : (countEntries walk rounds).Charged 1 := by
  induction rounds with
  | nil =>
    refine .quiet (Nat.le_refl 1) ((Decoder.Consumes.take 1).bind ?_)
    rintro _ front ⟨rfl, one⟩
    refine .pure ?_
    rw [List.append_nil]
    exact Nat.le_of_eq one.symm
  | cons _ rounds ih =>
    refine Counting.Charged.byte.bind fun tag => ?_
    split
    · exact .pure ()
    · exact (Counting.Charged.gratis takeName_consumes).bind fun _ =>
        (h tag).bind fun _ => ih.weaken

/-- A walk spends at most a byte on each payload, whatever comes of it. -/
theorem countWithin_charged {left depth : Nat} (limit : left + depth = maxDepth + 1)
    (tag : UInt8) : (countWithin left tag).Charged 0 := by
  induction left generalizing depth tag with
  | zero => exact .refused _
  | succ left ih =>
    have inside (inner : UInt8) : (countWithin left inner).Charged 0 :=
      ih (Nat.succ_add_eq_add_succ left depth ▸ limit) inner
    refine .payload ?_
    unfold countInside
    split
    -- a list
    case h_1 =>
      exact Counting.Charged.byte.bind fun inner =>
        (Counting.Charged.gratis Decoder.Consumes.int32).bind fun count =>
          countTimes_charged (inside inner) _
    -- a compound
    case h_2 =>
      constructor
      · intro input _ _ _ _ given
        exact (countEntries_charged inside input).ok given
      · intro input _ _ _ refused
        exact (countEntries_charged inside input).error refused
    -- nothing is nested in the others
    case h_3 =>
      refine .quiet (Nat.le_refl 1) ((skipWithin_consumes limit _).mono ?_)
      intro taken _ payload
      exact payload.nonempty.2

/-- The walk accepts exactly the payloads of a tag, of which an input starts with one at most. It
passes over no more payloads than the input has bytes, whatever the counts in it say and also where
it fails; and of those it begins, one at most is not paid for. -/
theorem skip_exact (tag : UInt8) (depth : Nat) (input : Bytes) :
    (∀ rest, skip tag depth input = .ok ((), rest) ↔
      ∃ bytes, input = bytes ++ rest ∧ Payload depth tag bytes) ∧
    (∀ bytes bytes', bytes <+: input → bytes' <+: input → Payload depth tag bytes →
      Payload depth tag bytes' → bytes = bytes') ∧
    (∀ bytes, Payload depth tag bytes → isKnownTag tag = true ∧ 1 ≤ bytes.length) ∧
    ∃ tally : Tally,
      countWithin (maxDepth + 1 - depth) tag input ⟨0, 0⟩ = (skip tag depth input, tally) ∧
        tally.passed ≤ input.length ∧ tally.begun ≤ input.length + 1 := by
  refine ⟨skip_eq_ok_iff tag depth input, ?_, fun bytes => Payload.nonempty, ?_⟩
  · rintro bytes bytes' ⟨rest, rfl⟩ ⟨rest', same⟩ h h'
    exact h.unique h' same.symm
  · have limit : maxDepth + 1 - depth + (maxDepth + 1 - (maxDepth + 1 - depth)) = maxDepth + 1 := by
      omega
    have charged := countWithin_charged limit tag
    have same := countWithin_counts (maxDepth + 1 - depth) tag input ⟨0, 0⟩
    generalize run : countWithin (maxDepth + 1 - depth) tag input ⟨0, 0⟩ = counted at same
    obtain ⟨result, tally⟩ := counted
    refine ⟨tally, congrArg (·, tally) same, ?_⟩
    cases result with
    | ok r =>
      have spent := charged.ok run
      dsimp only at spent
      omega
    | error e =>
      have spent := charged.error run
      dsimp only at spent
      omega

/-- A list of two texts, of which the second is empty, and a byte that does not belong to it. -/
theorem list_of_texts_passed_over :
    ∃ bytes, [8, 0, 0, 0, 2, 0, 1, 97, 0, 0, 255] = bytes ++ [255] ∧ Payload 0 9 bytes :=
  ((skip_exact 9 0 [8, 0, 0, 0, 2, 0, 1, 97, 0, 0, 255]).1 [255]).mp rfl

end Nbt

end VoxelServer
