import VoxelServer.Item
import VoxelServer.Proofs.Nbt.Same

/-!
# Similar stacks

Stacks may be put together if they are similar. What can be said of an item, whatever its quantity,
is then the same of both:

* `ItemStack.isSimilar_symm`, `ItemStack.isSimilar_trans`: being similar can be turned around, for
  stacks with tidy trees, and chained;
* `ItemStack.Kind`: a property of items, such as being similar to some stack;
* `ItemStack.size_withSize`: a stack of another size has that size, up to 127;
* `Slot.Proper`, `Slot.Solid`: slots whose stack, if there is one, can be planned with, and slots
  whose stack has items at all.
-/

namespace VoxelServer

namespace ItemStack

/-- The tree of a stack, if it has one, is tidy. -/
def Tidy (item : ItemStack) : Prop := ∀ tree ∈ item.nbt, tree.Tidy

/-! ## Being similar -/

theorem sameNbt_symm {a b : Option Nbt} (tidy : ∀ tree ∈ a, tree.Tidy) (h : sameNbt a b = true) :
    sameNbt b a = true := by
  cases a <;> cases b <;> simp only [sameNbt, Bool.false_eq_true] at h ⊢
  exact Nbt.same_symm _ (tidy _ rfl) _ h

theorem sameNbt_trans {a b c : Option Nbt} (hab : sameNbt a b = true) (hbc : sameNbt b c = true) :
    sameNbt a c = true := by
  cases a <;> cases b <;> cases c <;> simp only [sameNbt, Bool.false_eq_true] at hab hbc ⊢
  exact Nbt.same_trans _ _ _ hab hbc

theorem isSimilar_iff {a b : ItemStack} :
    a.isSimilar b = true ↔ a.id = b.id ∧ a.damage = b.damage ∧ sameNbt a.nbt b.nbt = true := by
  simp [isSimilar, and_assoc]

theorem isSimilar_symm {a b : ItemStack} (tidy : a.Tidy) (h : a.isSimilar b = true) :
    b.isSimilar a = true := by
  rw [isSimilar_iff] at h ⊢
  exact ⟨h.1.symm, h.2.1.symm, sameNbt_symm tidy h.2.2⟩

theorem isSimilar_trans {a b c : ItemStack} (hab : a.isSimilar b = true)
    (hbc : b.isSimilar c = true) : a.isSimilar c = true := by
  rw [isSimilar_iff] at hab hbc ⊢
  exact ⟨hab.1.trans hbc.1, hab.2.1.trans hbc.2.1, sameNbt_trans hab.2.2 hbc.2.2⟩

/-- Similar stacks are similar to the same stacks. -/
theorem isSimilar_congr {a b : ItemStack} (tidy : a.Tidy) (h : a.isSimilar b = true)
    (x : ItemStack) : a.isSimilar x = b.isSimilar x := by
  rw [Bool.eq_iff_iff]
  constructor
  · exact isSimilar_trans (isSimilar_symm tidy h)
  · exact isSimilar_trans h

/-! ## Kinds -/

/-- A property of items, whatever their quantity. -/
structure Kind (p : ItemStack → Bool) : Prop where
  withSize : ∀ item n, p (item.withSize n) = p item
  similar : ∀ {a b}, a.Tidy → a.isSimilar b = true → p a = p b

theorem kind_all : Kind fun _ => true := ⟨fun _ _ => rfl, fun _ _ => rfl⟩

theorem kind_similar (x : ItemStack) : Kind (·.isSimilar x) :=
  ⟨fun _ _ => rfl, fun tidy h => isSimilar_congr tidy h x⟩

/-! ## Sizes -/

theorem size_le (item : ItemStack) : item.size ≤ 127 := Int8.toInt_le item.count

theorem size_withSize (item : ItemStack) {n : Int} (low : 0 ≤ n) (high : n ≤ 127) :
    (item.withSize n).size = n :=
  Int8.toInt_ofInt_of_le (by omega) (by omega)

@[simp] theorem withSize_size (item : ItemStack) : item.withSize item.size = item := by
  simp [withSize, size]

theorem ofCount?_of_pos (item : ItemStack) {n : Int} (positive : 0 < n) :
    item.ofCount? n = some (item.withSize n) := if_pos positive

theorem ofCount?_size (item : ItemStack) (positive : 1 ≤ item.size) :
    item.ofCount? item.size = some item := by
  rw [ofCount?_of_pos item positive, withSize_size]

/-- A stack of at least one item, with a tidy tree. -/
structure Proper (item : ItemStack) : Prop where
  tidy : item.Tidy
  positive : 1 ≤ item.size

theorem proper_of_none {item : ItemStack} (plain : item.nbt = none) (positive : 1 ≤ item.size) :
    item.Proper :=
  ⟨by simp [Tidy, plain], positive⟩

theorem Proper.withSize {item : ItemStack} (proper : item.Proper) {n : Int} (low : 1 ≤ n)
    (high : n ≤ 127) : (item.withSize n).Proper :=
  ⟨proper.tidy, by rw [size_withSize item (by omega) high]; exact low⟩

end ItemStack

namespace Slot

/-- What a slot holds is proper. -/
def Proper (slot : Slot) : Prop := ∀ item ∈ slot, item.Proper

@[simp] theorem proper_none : Proper none := by simp [Proper]

@[simp] theorem proper_some {item : ItemStack} : Proper (some item) ↔ item.Proper := by
  simp [Proper]

@[simp] theorem size_some (item : ItemStack) : Slot.size (some item) = item.size := rfl

@[simp] theorem size_none : Slot.size none = 0 := rfl

theorem size_ofCount? (item : ItemStack) {n : Int} (low : 0 ≤ n) (high : n ≤ 127) :
    Slot.size (item.ofCount? n) = n := by
  unfold ItemStack.ofCount?
  split
  · exact item.size_withSize low high
  · rw [size_none]
    omega

theorem proper_ofCount? {item : ItemStack} (proper : item.Proper) {n : Int} (high : n ≤ 127) :
    Slot.Proper (item.ofCount? n) := by
  unfold ItemStack.ofCount?
  split
  · exact proper_some.mpr (proper.withSize (by omega) high)
  · exact proper_none

/-! ## Stacks without items -/

/-- The slot holds nothing, or a stack of at least one item. -/
def Solid (slot : Slot) : Prop := ∀ item ∈ slot, 1 ≤ item.size

instance : DecidablePred Solid
  | none => .isTrue (by simp [Solid])
  | some item => decidable_of_iff (1 ≤ item.size) (by simp [Solid])

@[simp] theorem solid_none : Solid none := by simp [Solid]

@[simp] theorem solid_some {item : ItemStack} : Solid (some item) ↔ 1 ≤ item.size := by
  simp [Solid]

theorem Solid.size_nonneg {slot : Slot} (solid : slot.Solid) : 0 ≤ slot.size := by
  cases slot with
  | none => exact Int.le_refl 0
  | some item =>
    have positive := solid_some.mp solid
    exact Int.le_of_lt positive

theorem Solid.nonempty {slot : Slot} (solid : slot.Solid) : slot.nonempty = slot := by
  cases slot with
  | none => rfl
  | some item =>
    have positive := solid_some.mp solid
    exact if_pos (by omega)

theorem Proper.solid {slot : Slot} (proper : slot.Proper) : slot.Solid :=
  fun item held => (proper item held).positive

theorem Proper.size_nonneg {slot : Slot} (proper : slot.Proper) : 0 ≤ slot.size :=
  proper.solid.size_nonneg

theorem Proper.nonempty {slot : Slot} (proper : slot.Proper) : slot.nonempty = slot :=
  proper.solid.nonempty

/-- Whoever counts a stack without items as none has a solid slot. -/
theorem solid_nonempty (slot : Slot) : slot.nonempty.Solid := by
  cases slot with
  | none => exact solid_none
  | some item =>
    show Solid (if 0 < item.size then some item else none)
    split
    · exact solid_some.mpr (by omega)
    · exact solid_none

theorem solid_withSize (item : ItemStack) {n : Int} (low : 1 ≤ n) (high : n ≤ 127) :
    Solid (some (item.withSize n)) := by
  rw [solid_some, item.size_withSize (by omega) high]
  exact low

theorem solid_ofCount? (item : ItemStack) {n : Int} (high : n ≤ 127) : Solid (item.ofCount? n) := by
  unfold ItemStack.ofCount?
  split
  · exact solid_withSize item (by omega) high
  · exact solid_none

end Slot

end VoxelServer
