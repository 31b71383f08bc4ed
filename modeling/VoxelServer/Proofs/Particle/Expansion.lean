import Mathlib.Algebra.Order.Ring.Int
import VoxelServer.Particle.Expand

/-!
# The messages of an effect

An effect is drawn by one message that the client repeats, or by as many messages as it has
particles. Either way the client draws the number that was asked for:

* `ChaCha.length_words`, `PlacedEffect.length_positions`: the random words suffice for a position of
  each particle;
* `PlacedEffect.expand_of_shown`: what an effect with something to show becomes;
* `Misfit`: the options that a kind of particle does not take;
* `PlacedEffect.Draws`: the messages that may stand for an effect;
* `particles_add_up`: an effect becomes such messages, unless its option does not fit.
-/

namespace VoxelServer

/-! ## Random words -/

namespace ChaCha

theorem length_stretchWords (count : Nat) (s : UInt64) : (stretchWords count s).length = count := by
  induction count generalizing s with
  | zero => rfl
  | succ count ih => exact congrArg Nat.succ (ih _)

theorem size_quarter (s : Array UInt32) (p : Nat × Nat × Nat × Nat) :
    (quarter s p).size = s.size := by
  simp only [quarter, Array.size_setIfInBounds]

theorem size_doubleRound (s : Array UInt32) : (doubleRound s).size = s.size := by
  simp only [doubleRound, List.foldl_cons, List.foldl_nil, size_quarter]

/-- The rounds mix the sixteen words that they are given. -/
theorem size_rounds (rounds : List Nat) (s : Array UInt32) :
    (rounds.foldl (fun s _ => doubleRound s) s).size = s.size := by
  induction rounds generalizing s with
  | nil => rfl
  | cons r rounds ih => rw [List.foldl_cons, ih, size_doubleRound]

theorem length_block {key : List UInt32} (eight : key.length = 8) (counter : Nat) :
    (block key counter).length = 16 := by
  simp only [block, List.length_zipWith, Array.length_toList, size_rounds, List.size_toArray,
    List.length_append, List.length_cons, List.length_nil, eight]
  rfl

theorem length_words {key : List UInt32} (eight : key.length = 8) (blocks : Nat) :
    (words key blocks).length = blocks * 16 := by
  simp only [words, List.length_flatMap, length_block eight, List.map_const', List.length_range,
    List.sum_replicate_nat]

end ChaCha

/-! ## Places -/

namespace PlacedEffect

theorem length_scatter (position offset : Vec3 Single) (count : Nat) {words : List UInt32}
    (enough : 3 * count ≤ words.length) : (scatter position offset count words).length = count := by
  induction count generalizing words with
  | zero => rfl
  | succ count ih =>
    match words, enough with
    | a :: b :: c :: words, enough =>
      simp only [List.length_cons] at enough
      exact congrArg Nat.succ (ih (by omega))

theorem length_positions (p : PlacedEffect) (count : Nat) : (p.positions count).length = count := by
  unfold positions
  by_cases still : p.effect.offset.isZero = true
  · rw [if_pos still, List.length_replicate]
  · rw [if_neg still]
    have key : (ChaCha.keyOfSeed p.seed).length = 8 := ChaCha.length_stretchWords 8 _
    refine length_scatter _ _ count ?_
    rw [ChaCha.length_words key]
    omega

/-- Where an effect is shown. -/
def place (p : PlacedEffect) : Vec3 Single := p.position.map Double.toSingle

theorem eq_place_of_mem {p : PlacedEffect} (still : p.effect.offset.isZero = true) {count : Nat}
    {position : Vec3 Single} (mem : position ∈ p.positions count) : position = p.place := by
  unfold positions at mem
  rw [if_pos still] at mem
  exact List.eq_of_mem_replicate mem

/-! ## Messages -/

/-- The extra numbers of an effect's messages. -/
def extra (p : PlacedEffect) : List Int32 :=
  if p.effect.kind.takesItem then [itemNumber p.effect.kind p.effect.option] else []

/-- A message for particles of an effect's kind. -/
def message (p : PlacedEffect) (position offset : Vec3 Single) (data : Single) (count : Int32) :
    SpawnParticle where
  particleId := p.effect.kind.netId
  longDistance := false
  position := position
  offset := offset
  data := data
  count := count
  extra := p.extra

/-- The messages of an effect whose particles vary in the given way. -/
def drawn (p : PlacedEffect) (values : Vec3 Single) : List SpawnParticle :=
  if values.isZero then [p.message p.place p.effect.offset .zero p.effect.count]
  else (p.positions p.effect.count.toInt.toNat).map (p.message · values .one 0)

/-- An effect that is about an item shows one. -/
def Shown (p : PlacedEffect) : Prop :=
  p.effect.kind.takesItem = true → itemNumber p.effect.kind p.effect.option ≠ 0

theorem expand_of_count {p : PlacedEffect} (none : p.effect.count ≤ 0) : p.expand = .ok [] :=
  if_pos none

theorem expand_of_hidden {p : PlacedEffect} (hidden : ¬ p.Shown) : p.expand = .ok [] := by
  have hidden : (p.effect.kind.takesItem &&
      itemNumber p.effect.kind p.effect.option == 0) = true := by
    simpa [Shown] using hidden
  unfold expand
  simp only [hidden, if_true, ite_self]

theorem expand_of_shown {p : PlacedEffect} (counted : 0 < p.effect.count) (shown : p.Shown) :
    p.expand = p.drawn <$> variation p.effect.kind p.effect.option := by
  have some : ¬ p.effect.count ≤ 0 := Int32.not_le.mpr counted
  have shown : ¬ (p.effect.kind.takesItem &&
      itemNumber p.effect.kind p.effect.option == 0) = true := by
    simpa [Shown] using shown
  unfold expand
  rw [if_neg some, if_neg shown]
  cases variation p.effect.kind p.effect.option with
  | error e => rfl
  | ok values =>
    show (if values.isZero = true then _ else _) = Except.ok (if values.isZero = true then _ else _)
    split <;> rfl

end PlacedEffect

/-! ## Options -/

/-- What is wrong with an option that a kind of particle does not take. -/
inductive Misfit (kind : ParticleKind) : ParticleOption → CodecError → Prop
  | size {size : Single} : kind.defaultSize? = none →
      Misfit kind (.resized size) (.invalid (.notResizable kind))
  | color {color : Color} : kind.defaultColor? = none →
      Misfit kind (.colored color) (.invalid (.notColorable kind))
  | note {pitch : UInt8} : kind.takesNote = false →
      Misfit kind (.note pitch) (.invalid (.withoutNote kind))
  | pitch {pitch : UInt8} : kind.takesNote = true → 24 < pitch →
      Misfit kind (.note pitch) (.invalidValue "note" pitch.toNat)
  | motion {direction : Vec3 Single} : kind.hasMotion = false →
      Misfit kind (.motion direction) (.invalid (.withoutMotion kind))

namespace PlacedEffect

theorem variation_error_iff {kind : ParticleKind} {option : ParticleOption} {e : CodecError} :
    variation kind option = .error e ↔ Misfit kind option e := by
  constructor
  · intro failed
    cases option with
    | plain | item => cases failed
    | resized size =>
      simp only [variation] at failed
      split at failed
      · rename_i fixed
        cases failed
        exact .size (Option.isNone_iff_eq_none.mp fixed)
      · split at failed <;> cases failed
    | colored color =>
      simp only [variation] at failed
      split at failed
      · rename_i fixed
        cases failed
        exact .color fixed
      · split at failed <;> cases failed
    | note pitch =>
      simp only [variation] at failed
      by_cases takes : kind.takesNote = true
      · rw [if_neg (by simp [takes])] at failed
        split at failed
        · rename_i high
          cases failed
          exact .pitch takes high
        · cases failed
      · rw [if_pos (by simp [takes])] at failed
        cases failed
        exact .note (Bool.eq_false_iff.mpr takes)
    | motion direction =>
      simp only [variation] at failed
      by_cases moves : kind.hasMotion = true
      · rw [if_neg (by simp [moves])] at failed
        split at failed <;> cases failed
      · rw [if_pos (by simp [moves])] at failed
        cases failed
        exact .motion (Bool.eq_false_iff.mpr moves)
  · intro misfit
    cases misfit with
    | size fixed => simp [variation, fixed]
    | color fixed => simp [variation, fixed]
    | note silent => simp [variation, silent]
    | pitch takes high => simp [variation, takes, maxNote, high]
    | motion still => simp [variation, still]

/-- Kinds that are about an item show nothing if their option is of another sort. -/
theorem takesItem_of_misfit {p : PlacedEffect} {e : CodecError} (shown : p.Shown)
    (misfit : Misfit p.effect.kind p.effect.option e) : p.effect.kind.takesItem = false := by
  rw [Bool.eq_false_iff]
  intro takes
  have number := shown takes
  generalize p.effect.option = option at misfit number
  cases misfit <;> exact number rfl

/-- What an effect becomes, by its count, what it shows and whether its option fits. -/
inductive Expansion (p : PlacedEffect) : Except CodecError (List SpawnParticle) → Prop
  | uncounted : p.effect.count ≤ 0 → Expansion p (.ok [])
  | hidden : 0 < p.effect.count → ¬ p.Shown → Expansion p (.ok [])
  | drawn (values : Vec3 Single) : 0 < p.effect.count → p.Shown → Expansion p (.ok (p.drawn values))
  | misfit {e : CodecError} : 0 < p.effect.count → p.effect.kind.takesItem = false →
      Misfit p.effect.kind p.effect.option e → Expansion p (.error e)

theorem expansion (p : PlacedEffect) : p.Expansion p.expand := by
  by_cases counted : 0 < p.effect.count
  · by_cases shown : p.Shown
    · rw [expand_of_shown counted shown]
      cases varied : variation p.effect.kind p.effect.option with
      | ok values => exact .drawn values counted shown
      | error e =>
        have misfit := variation_error_iff.mp varied
        exact .misfit counted (takesItem_of_misfit shown misfit) misfit
    · rw [expand_of_hidden shown]
      exact .hidden counted shown
  · have none := Int32.not_lt.mp counted
    rw [expand_of_count none]
    exact .uncounted none

theorem expand_error_iff {p : PlacedEffect} {e : CodecError} :
    p.expand = .error e ↔ 0 < p.effect.count ∧ p.effect.kind.takesItem = false ∧
      Misfit p.effect.kind p.effect.option e := by
  constructor
  · intro failed
    have became := p.expansion
    rw [failed] at became
    cases became with
    | misfit counted itemless misfit => exact ⟨counted, itemless, misfit⟩
  · rintro ⟨counted, itemless, misfit⟩
    have shown : p.Shown := by
      intro takes
      rw [itemless] at takes
      cases takes
    rw [expand_of_shown counted shown, variation_error_iff.mpr misfit]
    rfl

end PlacedEffect

/-! ## Numbers of particles -/

/-- How many particles a client draws for a message. One without a count is for a single one. -/
def SpawnParticle.particles (m : SpawnParticle) : Int := if m.count = 0 then 1 else m.count.toInt

namespace PlacedEffect

/-- An effect that is about an item, without an item. -/
def LacksItem (p : PlacedEffect) : Prop :=
  p.effect.kind.takesItem = true ∧ ∀ id data, p.effect.option = .item id data → id = 0

/-- The ways to draw an effect. -/
inductive Spelled (p : PlacedEffect) : List SpawnParticle → Prop
  | nothing : p.effect.count ≤ 0 → Spelled p []
  | hidden : 0 < p.effect.count → p.LacksItem → Spelled p []
  /-- The client spreads the particles. -/
  | together {m : SpawnParticle} : 0 < p.effect.count → m.data = .zero → m.count = p.effect.count →
      m.position = p.place → m.offset = p.effect.offset → Spelled p [m]
  /-- Each particle is a message. -/
  | singly {messages : List SpawnParticle} {values : Vec3 Single} : 0 < p.effect.count →
      messages.length = p.effect.count.toInt → values.isZero = false →
      (∀ m ∈ messages, m.count = 0 ∧ m.data = .one ∧ m.offset = values) →
      (p.effect.offset.isZero = true → ∀ m ∈ messages, m.position = p.place) → Spelled p messages

/-- Messages that draw an effect. -/
structure Draws (p : PlacedEffect) (messages : List SpawnParticle) : Prop where
  spelled : p.Spelled messages
  kind : ∀ m ∈ messages, m.particleId = p.effect.kind.netId
  extra : ∃ numbers : List Int32, numbers.length = (if p.effect.kind.takesItem then 1 else 0) ∧
    ∀ m ∈ messages, m.extra = numbers
  /-- If anything is drawn, then as many particles as there should be. -/
  total : messages ≠ [] → (messages.map (·.particles)).sum = p.effect.count.toInt

/-- An item with an id has a number that is not zero, whatever its data. -/
theorem id_of_itemNumber {kind : ParticleKind} {id data : Int32}
    (zero : itemNumber kind (.item id data) = 0) : id = 0 := by
  simp only [itemNumber] at zero
  split at zero
  · exact zero
  · exact (Int32.or_eq_zero_iff.mp zero).2

theorem lacksItem_of_hidden {p : PlacedEffect} (hidden : ¬ p.Shown) : p.LacksItem := by
  have hidden : p.effect.kind.takesItem = true ∧
      itemNumber p.effect.kind p.effect.option = 0 := by
    simpa [Shown] using hidden
  constructor
  · exact hidden.1
  · intro id data given
    have zero := hidden.2
    rw [given] at zero
    exact id_of_itemNumber zero

theorem mem_drawn {p : PlacedEffect} {values : Vec3 Single} {m : SpawnParticle}
    (mem : m ∈ p.drawn values) : m.particleId = p.effect.kind.netId ∧ m.extra = p.extra := by
  unfold drawn at mem
  split at mem
  · cases List.mem_singleton.mp mem
    exact ⟨rfl, rfl⟩
  · obtain ⟨position, -, rfl⟩ := List.mem_map.mp mem
    exact ⟨rfl, rfl⟩

theorem Spelled.total {p : PlacedEffect} {messages : List SpawnParticle}
    (spelled : p.Spelled messages) (some : messages ≠ []) :
    (messages.map (·.particles)).sum = p.effect.count.toInt := by
  cases spelled with
  | nothing | hidden => exact absurd rfl some
  | together counted _ count =>
    have positive : p.effect.count ≠ 0 := by
      intro zero
      rw [zero] at counted
      exact absurd counted (by decide)
    simp [SpawnParticle.particles, count, positive]
  | singly _ length _ each =>
    have ones : messages.map (·.particles) = List.replicate messages.length 1 := by
      rw [List.eq_replicate_iff, List.length_map]
      refine ⟨rfl, fun n mem => ?_⟩
      obtain ⟨m, listed, rfl⟩ := List.mem_map.mp mem
      simp [SpawnParticle.particles, (each m listed).1]
    rw [ones, ← length]
    simp

theorem length_drawn (p : PlacedEffect) {values : Vec3 Single} (varied : values.isZero = false) :
    (p.drawn values).length = p.effect.count.toInt.toNat := by
  unfold drawn
  rw [if_neg (by simp [varied]), List.length_map, length_positions]

theorem spelled_drawn {p : PlacedEffect} (counted : 0 < p.effect.count) (values : Vec3 Single) :
    p.Spelled (p.drawn values) := by
  by_cases zero : values.isZero = true
  · unfold drawn
    rw [if_pos zero]
    exact .together counted rfl rfl rfl rfl
  · have varied := Bool.eq_false_iff.mpr zero
    have positive : 0 < p.effect.count.toInt := Int32.lt_iff_toInt_lt.mp counted
    have length := p.length_drawn varied
    unfold drawn at length ⊢
    rw [if_neg zero] at length ⊢
    refine .singly counted (by omega) varied ?_ ?_
    · intro m mem
      obtain ⟨position, -, rfl⟩ := List.mem_map.mp mem
      exact ⟨rfl, rfl, rfl⟩
    · intro still m mem
      obtain ⟨position, placed, rfl⟩ := List.mem_map.mp mem
      exact eq_place_of_mem still placed

theorem draws_drawn {p : PlacedEffect} (counted : 0 < p.effect.count) (values : Vec3 Single) :
    p.Draws (p.drawn values) where
  spelled := spelled_drawn counted values
  kind m mem := (mem_drawn mem).1
  extra := by
    refine ⟨p.extra, ?_, fun m mem => (mem_drawn mem).2⟩
    unfold PlacedEffect.extra
    split <;> rfl
  total := (spelled_drawn counted values).total

theorem draws_nil {p : PlacedEffect} (spelled : p.Spelled []) : p.Draws [] where
  spelled := spelled
  kind _ mem := by cases mem
  extra := by
    refine ⟨p.extra, ?_, fun _ mem => by cases mem⟩
    unfold PlacedEffect.extra
    split <;> rfl
  total := spelled.total

end PlacedEffect

/-- **An effect is drawn with exactly as many particles as it asks for**, by one message that the
client repeats or by one for each particle. It becomes nothing if it asks for none, or if its kind
is about an item and it has none. It fails exactly if its kind is about no item, and its option does
not fit the kind or is a note that is too high. -/
theorem particles_add_up (p : PlacedEffect) :
    (∀ messages, p.expand = .ok messages → p.Draws messages) ∧
    ∀ e, p.expand = .error e ↔ 0 < p.effect.count ∧ p.effect.kind.takesItem = false ∧
      Misfit p.effect.kind p.effect.option e := by
  constructor
  · intro messages expanded
    have became := p.expansion
    rw [expanded] at became
    cases became with
    | uncounted none => exact PlacedEffect.draws_nil (.nothing none)
    | hidden counted hidden =>
      exact PlacedEffect.draws_nil (.hidden counted (PlacedEffect.lacksItem_of_hidden hidden))
    | drawn values counted => exact PlacedEffect.draws_drawn counted values
  · intro e
    exact PlacedEffect.expand_error_iff

/-- Fifty flames that rise, each at a place of its own. -/
def risingFlames : PlacedEffect where
  effect :=
    { kind := .flame
      offset := ⟨⟨0x3F000000⟩, ⟨0x40000000⟩, .zero⟩
      count := 50
      option := .motion ⟨.zero, ⟨0x3DCCCCCD⟩, .zero⟩ }
  position := ⟨⟨0x4024000000000000⟩, ⟨0x4050000000000000⟩, ⟨0xC008000000000000⟩⟩

theorem fifty_flames_are_drawn :
    ∃ messages, risingFlames.expand = .ok messages ∧ messages.length = 50 ∧
      risingFlames.Draws messages := by
  have expanded : risingFlames.expand =
      .ok (risingFlames.drawn ⟨.zero, ⟨0x3DCCCCCD⟩, .zero⟩) :=
    PlacedEffect.expand_of_shown (by decide) nofun
  have varied : Vec3.isZero ⟨.zero, ⟨0x3DCCCCCD⟩, .zero⟩ = false := by decide
  have length := risingFlames.length_drawn varied
  exact ⟨_, expanded, length, (particles_add_up risingFlames).1 _ expanded⟩

end VoxelServer
