import VoxelServer.Proofs.Particle.Expansion

/-!
# The items of particles

Particles of some kinds look like an item, which a message names in one extra number. Particles of
the block kinds have two things to name, and pack them.

* `blockOf`: the block and its data that a client reads from a number;
* `blockOf_number`: it reads those that went in, if the number has room for them;
* `PlacedEffect.expand_of_about`: a single message shows an item;
* `item_particles_identify_iff`: effects without an item show nothing, except for a block with an
  id of zero and data. All others tell their item.
-/

namespace VoxelServer

/-! ## Numbers of blocks -/

/-- The block and its data that a client reads from a number. -/
def blockOf (number : Int32) : Int32 × Int32 := (number &&& 0xFFF, number >>> 12)

/-- Ids and data that the number of a block has room for: twelve bits, and twenty with a sign. -/
structure FitsNumber (id data : Int32) : Prop where
  positive : 0 ≤ id
  small : id < 4096
  above : -524288 ≤ data
  below : data < 524288

theorem toNat_shifted (data : Int32) :
    (data <<< 12).toBitVec.toNat = (data.toBitVec.toNat % 2 ^ 20) <<< 12 := by
  have shifted : (data <<< 12).toBitVec = data.toBitVec <<< 12 := rfl
  rw [shifted, BitVec.toNat_shiftLeft, Nat.shiftLeft_eq, Nat.shiftLeft_eq]
  omega

/-- The two parts of a number do not overlap. -/
theorem toNat_number {id : Int32} (low : id.toBitVec.toNat < 2 ^ 12) (data : Int32) :
    (data <<< 12 ||| id).toBitVec.toNat =
      data.toBitVec.toNat % 2 ^ 20 * 2 ^ 12 + id.toBitVec.toNat := by
  rw [Int32.toBitVec_or, BitVec.toNat_or, toNat_shifted, ← Nat.shiftLeft_add_eq_or_of_lt low,
    Nat.shiftLeft_eq]

theorem shifted_eq_zero_iff (data : Int32) : data <<< 12 = 0 ↔ (2 : Int) ^ 20 ∣ data.toInt := by
  have whole := toNat_shifted data
  rw [Nat.shiftLeft_eq] at whole
  rw [← Int32.toBitVec_inj, ← BitVec.toNat_inj, whole, ← Int32.toInt_toBitVec,
    BitVec.toInt_eq_toNat_cond]
  show _ = 0 ↔ _
  split <;> omega

namespace FitsNumber

variable {id data : Int32}

theorem low (fits : FitsNumber id data) : id.toBitVec.toNat < 2 ^ 12 := by
  have positive : 0 ≤ id.toInt := Int32.le_iff_toInt_le.mp fits.positive
  have small : id.toInt < 4096 := Int32.lt_iff_toInt_lt.mp fits.small
  have signed := BitVec.toInt_eq_toNat_cond id.toBitVec
  rw [Int32.toInt_toBitVec] at signed
  split at signed <;> omega

theorem id_back (fits : FitsNumber id data) : (data <<< 12 ||| id) &&& 0xFFF = id := by
  have low := fits.low
  rw [← Int32.toBitVec_inj, ← BitVec.toNat_inj, Int32.toBitVec_and, BitVec.toNat_and,
    toNat_number low]
  show _ &&& (2 ^ 12 - 1) = _
  rw [Nat.and_two_pow_sub_one_eq_mod]
  omega

/-- The shift back keeps the sign, so negative data is read as well. -/
theorem data_back (fits : FitsNumber id data) : (data <<< 12 ||| id) >>> 12 = data := by
  have low := fits.low
  have above : -524288 ≤ data.toInt := Int32.le_iff_toInt_le.mp fits.above
  have below : data.toInt < 524288 := Int32.lt_iff_toInt_lt.mp fits.below
  have signed := BitVec.toInt_eq_toNat_cond data.toBitVec
  have shifted : ((data <<< 12 ||| id) >>> 12).toBitVec =
      (data <<< 12 ||| id).toBitVec.sshiftRight 12 := rfl
  rw [← Int32.toInt_inj, ← Int32.toInt_toBitVec, shifted, BitVec.toInt_sshiftRight,
    Int.shiftRight_eq_div_pow, BitVec.toInt_eq_toNat_cond, toNat_number low]
  rw [Int32.toInt_toBitVec] at signed
  split at signed <;> split <;> omega

end FitsNumber

theorem blockOf_number {id data : Int32} (fits : FitsNumber id data) :
    blockOf (data <<< 12 ||| id) = (id, data) :=
  Prod.ext fits.id_back fits.data_back

/-! ## Effects that are about an item -/

namespace PlacedEffect

/-- Effects of a kind that looks like an item, with an item to look like or with none. -/
structure AboutItem (p : PlacedEffect) : Prop where
  counted : 0 < p.effect.count
  takes : p.effect.kind.takesItem = true
  option : p.effect.option = .plain ∨ ∃ id data, p.effect.option = .item id data

/-- An effect shows a block that its number has room for. -/
structure OfBlock (p : PlacedEffect) (id data : Int32) : Prop where
  kind : p.effect.kind ≠ .itemCrack
  option : p.effect.option = .item id data
  block : id ≠ 0
  fits : FitsNumber id data

/-- The extra numbers in each message of an effect. -/
def told (p : PlacedEffect) : Except CodecError (List (List Int32)) :=
  List.map (·.extra) <$> p.expand

/-- A client reads an item from a number. -/
structure Identifies (kind : ParticleKind) (number id data : Int32) : Prop where
  ofItem : kind = .itemCrack → number = id
  ofBlock : kind ≠ .itemCrack → FitsNumber id data → blockOf number = (id, data)

theorem identifies_itemNumber (kind : ParticleKind) (id data : Int32) :
    Identifies kind (itemNumber kind (.item id data)) id data where
  ofItem crack := by simp [itemNumber, crack]
  ofBlock block fits := by
    simp only [itemNumber, beq_iff_eq, block, if_false]
    exact blockOf_number fits

theorem itemNumber_zero_iff {kind : ParticleKind} {data : Int32} :
    itemNumber kind (.item 0 data) = 0 ↔ kind = .itemCrack ∨ (2 : Int) ^ 20 ∣ data.toInt := by
  by_cases crack : kind = .itemCrack
  · simp [itemNumber, crack]
  · rw [← shifted_eq_zero_iff]
    simp [itemNumber, crack]

section
variable {p : PlacedEffect} (about : p.AboutItem)
include about

theorem shown_iff : p.Shown ↔ itemNumber p.effect.kind p.effect.option ≠ 0 := by
  constructor
  · intro shown
    exact shown about.takes
  · intro number _
    exact number

theorem expand_of_about (shown : p.Shown) :
    p.expand = .ok [p.message p.place p.effect.offset .zero p.effect.count] := by
  have plain : variation p.effect.kind p.effect.option = .ok .zeroSingle := by
    obtain given | ⟨id, data, given⟩ := about.option <;> rw [given] <;> rfl
  rw [expand_of_shown about.counted shown, plain]
  rfl

theorem told_of_about (shown : p.Shown) :
    p.told = .ok [[itemNumber p.effect.kind p.effect.option]] := by
  have extra : p.extra = [itemNumber p.effect.kind p.effect.option] := if_pos about.takes
  unfold told
  rw [expand_of_about about shown, ← extra]
  rfl

theorem expand_eq_nil_iff : p.expand = .ok [] ↔ ¬ p.Shown := by
  constructor
  · intro nothing shown
    rw [expand_of_about about shown] at nothing
    cases nothing
  · exact expand_of_hidden

/-- Effects without an item are shown for the data of a block alone. -/
theorem hidden_iff : (p.LacksItem → ¬ p.Shown) ↔ ∀ data, p.effect.option = .item 0 data →
    p.effect.kind = .itemCrack ∨ (2 : Int) ^ 20 ∣ data.toInt := by
  rw [shown_iff about, Decidable.not_not]
  constructor
  · intro hidden data given
    have lacks : p.LacksItem := by
      constructor
      · exact about.takes
      · intro id data' given'
        rw [given] at given'
        cases given'
        rfl
    rw [← itemNumber_zero_iff, ← given]
    exact hidden lacks
  · intro empty lacks
    obtain given | ⟨id, data, given⟩ := about.option
    · rw [given]
      rfl
    · cases lacks.2 id data given
      rw [given, itemNumber_zero_iff]
      exact empty data given

theorem shown_of_item {id data : Int32} (given : p.effect.option = .item id data) (item : id ≠ 0) :
    p.Shown := by
  rw [shown_iff about, given]
  intro zero
  exact item (id_of_itemNumber zero)

end

/-- A client tells blocks apart. -/
theorem block_unique {p q : PlacedEffect} (ofP : p.AboutItem) (ofQ : q.AboutItem)
    {id data id' data' : Int32} (showsP : p.OfBlock id data) (showsQ : q.OfBlock id' data')
    (same : p.told = q.told) : id = id' ∧ data = data' := by
  have readP := (identifies_itemNumber p.effect.kind id data).ofBlock showsP.kind showsP.fits
  have readQ := (identifies_itemNumber q.effect.kind id' data').ofBlock showsQ.kind showsQ.fits
  rw [told_of_about ofP (shown_of_item ofP showsP.option showsP.block),
    told_of_about ofQ (shown_of_item ofQ showsQ.option showsQ.block), showsP.option,
    showsQ.option] at same
  injection same with same
  injection same with same
  injection same with same
  rw [same, readQ] at readP
  cases readP
  exact ⟨rfl, rfl⟩

end PlacedEffect

/-- **Block and item particles identify their item.** Effects without an item, or with an id of
zero, show nothing, with one exact exception: a block kind shows a block with an id of zero, for any
data whose lower twenty bits are not all zero. Every other effect becomes a message with one number,
which is the id of an item, or from which a client reads the block and its data. -/
theorem item_particles_identify_iff {p : PlacedEffect} (about : p.AboutItem) :
    ((p.expand = .ok [] ↔ p.LacksItem) ↔ ∀ data, p.effect.option = .item 0 data →
      p.effect.kind = .itemCrack ∨ (2 : Int) ^ 20 ∣ data.toInt) ∧
    (∀ id data, p.effect.option = .item id data → id ≠ 0 →
      ∃ number, p.told = .ok [[number]] ∧ PlacedEffect.Identifies p.effect.kind number id data) ∧
    ∀ (q : PlacedEffect) (id data id' data' : Int32), q.AboutItem → p.OfBlock id data →
      q.OfBlock id' data' → p.told = q.told → id = id' ∧ data = data' := by
  constructor
  · rw [PlacedEffect.expand_eq_nil_iff about, ← PlacedEffect.hidden_iff about]
    constructor
    · intro exactly lacks
      exact exactly.mpr lacks
    · intro hidden
      exact ⟨PlacedEffect.lacksItem_of_hidden, hidden⟩
  constructor
  · intro id data given item
    have shown := PlacedEffect.shown_of_item about given item
    refine ⟨_, PlacedEffect.told_of_about about shown, ?_⟩
    rw [given]
    exact PlacedEffect.identifies_itemNumber p.effect.kind id data
  · intro q id data id' data' ofQ showsP showsQ same
    exact PlacedEffect.block_unique about ofQ showsP showsQ same

/-- Dust of a block, three particles at the origin. -/
def blockDust (id data : Int32) : PlacedEffect where
  effect := { kind := .blockDust, offset := .zeroSingle, count := 3, option := .item id data }
  position := ⟨⟨0⟩, ⟨0⟩, ⟨0⟩⟩

theorem about_blockDust (id data : Int32) : (blockDust id data).AboutItem where
  counted := show (0 : Int32) < 3 by decide
  takes := rfl
  option := .inr ⟨id, data, rfl⟩

theorem dust_of_granite_identifies_it :
    (blockDust 1 (-7)).AboutItem ∧ ∃ number, (blockDust 1 (-7)).told = .ok [[number]] ∧
      blockOf number = (1, -7) := by
  have about := about_blockDust 1 (-7)
  constructor
  · exact about
  · obtain ⟨number, told, identifies⟩ :=
      (item_particles_identify_iff about).2.1 1 (-7) rfl (by decide)
    have fits : FitsNumber 1 (-7) := ⟨by decide, by decide, by decide, by decide⟩
    exact ⟨number, told, identifies.ofBlock (by decide) fits⟩

/-- A block with an id of zero and data is drawn. -/
theorem dust_of_air_is_drawn :
    (blockDust 0 1).AboutItem ∧ (blockDust 0 1).LacksItem ∧ (blockDust 0 1).expand ≠ .ok [] ∧
      (blockDust 0 1).told = .ok [[4096]] := by
  have about := about_blockDust 0 1
  have shown : (blockDust 0 1).Shown := by
    intro _
    decide
  have lacks : (blockDust 0 1).LacksItem := by
    constructor
    · rfl
    · intro id data given
      cases given
      rfl
  have drawn : (blockDust 0 1).expand ≠ .ok [] := by
    rw [Ne, PlacedEffect.expand_eq_nil_iff about]
    exact not_not_intro shown
  exact ⟨about, lacks, drawn, PlacedEffect.told_of_about about shown⟩

end VoxelServer
