import Mathlib.Data.List.Perm.Subperm
import VoxelServer.Nbt.Value

/-!
# Equality of tag trees

Equality as the game sees it is not reflexive, since a NaN differs from itself. Between trees it
does hold for it can be turned around and chained:

* `Nbt.Tidy`: no compound has two entries of one name;
* `Nbt.same_symm`: of a tidy tree with another one;
* `Nbt.same_trans`: of any trees.
-/

namespace VoxelServer

/-! ## Floats -/

/-- Neither is a NaN, and they are the same float or both zeros. -/
structure FloatEq {α : Type} (isNaN isZero : α → Bool) (a b : α) : Prop where
  left : isNaN a = false
  right : isNaN b = false
  equal : a = b ∨ isZero a = true ∧ isZero b = true

section FloatEq

variable {α : Type} {isNaN isZero : α → Bool} {a b c : α}

theorem floatEq_iff : FloatEq isNaN isZero a b ↔
    isNaN a = false ∧ isNaN b = false ∧ (a = b ∨ isZero a = true ∧ isZero b = true) :=
  ⟨fun ⟨left, right, equal⟩ => ⟨left, right, equal⟩,
    fun ⟨left, right, equal⟩ => ⟨left, right, equal⟩⟩

theorem FloatEq.symm (h : FloatEq isNaN isZero a b) : FloatEq isNaN isZero b a :=
  ⟨h.right, h.left, h.equal.imp Eq.symm And.symm⟩

theorem FloatEq.trans (hab : FloatEq isNaN isZero a b) (hbc : FloatEq isNaN isZero b c) :
    FloatEq isNaN isZero a c := by
  obtain ⟨ha, -, rfl | ⟨za, zb⟩⟩ := hab
  · exact hbc
  · obtain ⟨-, hc, rfl | ⟨-, zc⟩⟩ := hbc
    · exact ⟨ha, hc, .inr ⟨za, zb⟩⟩
    · exact ⟨ha, hc, .inr ⟨za, zc⟩⟩

end FloatEq

theorem Single.eqv_iff {a b : Single} :
    a.eqv b = true ↔ FloatEq Single.isNaN Single.isZero a b := by
  have bits : a.bits = b.bits ↔ a = b := ⟨fun h => by cases a; cases b; cases h; rfl, congrArg _⟩
  simp [eqv, bits, floatEq_iff, and_assoc]

theorem Double.eqv_iff {a b : Double} :
    a.eqv b = true ↔ FloatEq Double.isNaN Double.isZero a b := by
  have bits : a.bits = b.bits ↔ a = b := ⟨fun h => by cases a; cases b; cases h; rfl, congrArg _⟩
  simp [eqv, bits, floatEq_iff, and_assoc]

namespace Nbt

mutual

/-- A tree in which no compound has two entries of one name. -/
def Tidy : Nbt → Prop
  | list values => ListTidy values
  | compound entries => (entries.map Prod.fst).Nodup ∧ EntriesTidy entries
  | _ => True

def ListTidy : List Nbt → Prop
  | [] => True
  | a :: as => a.Tidy ∧ ListTidy as

def EntriesTidy : List (String × Nbt) → Prop
  | [] => True
  | (_, a) :: as => a.Tidy ∧ EntriesTidy as

end

/-! ## Compounds -/

section Entries

variable {α : Type} {entries others : List (String × α)} {name : String} {a : α}

theorem lookup_of_mem (distinct : (entries.map Prod.fst).Nodup) (mem : (name, a) ∈ entries) :
    entries.lookup name = some a := by
  induction entries with
  | nil => cases mem
  | cons entry entries ih =>
    obtain ⟨absent, distinct⟩ := List.nodup_cons.mp distinct
    obtain rfl | mem := List.mem_cons.mp mem
    · simp
    · have other : (name == entry.1) = false := by
        rw [beq_eq_false_iff_ne]
        rintro rfl
        exact absent (List.mem_map.mpr ⟨_, mem, rfl⟩)
      rw [List.lookup_cons, other]
      exact ih distinct mem

theorem mem_of_lookup (found : entries.lookup name = some a) : (name, a) ∈ entries := by
  obtain ⟨before, after, rfl, -⟩ := List.lookup_eq_some_iff.mp found
  simp

/-- If every entry of some has its like among as many others, the others have theirs too. -/
theorem exists_like_of_forall (like : α → α → Prop) (distinct : (entries.map Prod.fst).Nodup)
    (length : entries.length = others.length)
    (alike : ∀ e ∈ entries, ∃ b, others.lookup e.1 = some b ∧ like e.2 b) :
    ∀ o ∈ others, ∃ b, entries.lookup o.1 = some b ∧ like b o.2 := by
  have subset : entries.map Prod.fst ⊆ others.map Prod.fst := by
    intro name mem
    obtain ⟨e, he, rfl⟩ := List.mem_map.mp mem
    obtain ⟨b, found, -⟩ := alike e he
    exact List.mem_map.mpr ⟨_, mem_of_lookup found, rfl⟩
  -- distinct names that are all among as many others are these others
  have perm : (entries.map Prod.fst).Perm (others.map Prod.fst) :=
    (List.subperm_of_subset distinct subset).perm_of_length_le (by simp [length])
  intro o ho
  have mem : o.1 ∈ entries.map Prod.fst := perm.mem_iff.mpr (List.mem_map_of_mem ho)
  obtain ⟨e, he, same⟩ := List.mem_map.mp mem
  obtain ⟨b, found, hb⟩ := alike e he
  have mine : others.lookup e.1 = some o.2 :=
    lookup_of_mem (perm.nodup_iff.mp distinct) (same ▸ ho)
  obtain rfl : o.2 = b := Option.some.inj (mine.symm.trans found)
  exact ⟨e.2, same ▸ lookup_of_mem distinct he, hb⟩

end Entries

theorem sameEntries_iff {entries others : List (String × Nbt)} :
    sameEntries entries others = true ↔
      ∀ e ∈ entries, ∃ b, others.lookup e.1 = some b ∧ same e.2 b = true := by
  induction entries with
  | nil => simp [sameEntries]
  | cons e entries ih =>
    rw [sameEntries, Bool.and_eq_true, ih, List.forall_mem_cons]
    cases others.lookup e.1 <;> simp

/-! ## Whole trees -/

mutual

theorem same_symm : ∀ a : Nbt, a.Tidy → ∀ b, same a b = true → same b a = true
  | float _, _, b, h => by
    cases b <;> simp only [same, Bool.false_eq_true] at h ⊢
    exact Single.eqv_iff.mpr (Single.eqv_iff.mp h).symm
  | double _, _, b, h => by
    cases b <;> simp only [same, Bool.false_eq_true] at h ⊢
    exact Double.eqv_iff.mpr (Double.eqv_iff.mp h).symm
  | list as, tidy, b, h => by
    cases b <;> simp only [same, Bool.false_eq_true] at h ⊢
    exact sameList_symm as tidy _ h
  | compound as, ⟨distinct, tidy⟩, b, h => by
    cases b <;> simp only [same, Bool.false_eq_true, Bool.and_eq_true, beq_iff_eq] at h ⊢
    obtain ⟨length, alike⟩ := h
    refine ⟨length.symm, sameEntries_iff.mpr ?_⟩
    refine exists_like_of_forall (fun a b => same b a = true) distinct length fun e he => ?_
    obtain ⟨b, found, same⟩ := sameEntries_iff.mp alike e he
    exact ⟨b, found, same_symm_of_mem as tidy e he b same⟩
  | byte _, _, b, h | short _, _, b, h | int _, _, b, h | long _, _, b, h
  | byteArray _, _, b, h | string _, _, b, h | intArray _, _, b, h | longArray _, _, b, h => by
    cases b <;> simp_all [same]

theorem sameList_symm : ∀ as : List Nbt, ListTidy as → ∀ bs, sameList as bs = true →
    sameList bs as = true
  | [], _, bs, h => by cases bs <;> simp_all [sameList]
  | a :: as, ⟨tidy, tidies⟩, bs, h => by
    cases bs with
    | nil => simp [sameList] at h
    | cons b bs =>
      simp only [sameList, Bool.and_eq_true] at h ⊢
      exact ⟨same_symm a tidy b h.1, sameList_symm as tidies bs h.2⟩

theorem same_symm_of_mem : ∀ as : List (String × Nbt), EntriesTidy as →
    ∀ e ∈ as, ∀ b, same e.2 b = true → same b e.2 = true
  | (_, a) :: as, ⟨tidy, tidies⟩, e, he, b, h => by
    obtain rfl | he := List.mem_cons.mp he
    · exact same_symm a tidy b h
    · exact same_symm_of_mem as tidies e he b h

end

mutual

theorem same_trans : ∀ a b c : Nbt, same a b = true → same b c = true → same a c = true
  | float _, b, c, hab, hbc => by
    cases b <;> simp only [same, Bool.false_eq_true] at hab
    cases c <;> simp only [same, Bool.false_eq_true] at hbc ⊢
    exact Single.eqv_iff.mpr ((Single.eqv_iff.mp hab).trans (Single.eqv_iff.mp hbc))
  | double _, b, c, hab, hbc => by
    cases b <;> simp only [same, Bool.false_eq_true] at hab
    cases c <;> simp only [same, Bool.false_eq_true] at hbc ⊢
    exact Double.eqv_iff.mpr ((Double.eqv_iff.mp hab).trans (Double.eqv_iff.mp hbc))
  | list as, b, c, hab, hbc => by
    cases b <;> simp only [same, Bool.false_eq_true] at hab
    cases c <;> simp only [same, Bool.false_eq_true] at hbc ⊢
    exact sameList_trans as _ _ hab hbc
  | compound as, b, c, hab, hbc => by
    cases b <;> simp only [same, Bool.false_eq_true, Bool.and_eq_true, beq_iff_eq] at hab
    cases c <;> simp only [same, Bool.false_eq_true, Bool.and_eq_true, beq_iff_eq] at hbc ⊢
    refine ⟨hab.1.trans hbc.1, sameEntries_iff.mpr fun e he => ?_⟩
    obtain ⟨b, found, hb⟩ := sameEntries_iff.mp hab.2 e he
    obtain ⟨c, found, hc⟩ := sameEntries_iff.mp hbc.2 _ (mem_of_lookup found)
    exact ⟨c, found, same_trans_of_mem as e he b c hb hc⟩
  | byte _, b, c, hab, hbc | short _, b, c, hab, hbc | int _, b, c, hab, hbc
  | long _, b, c, hab, hbc | byteArray _, b, c, hab, hbc | string _, b, c, hab, hbc
  | intArray _, b, c, hab, hbc | longArray _, b, c, hab, hbc => by
    cases b <;> simp only [same, Bool.false_eq_true, beq_iff_eq] at hab
    rw [hab]
    exact hbc

theorem sameList_trans : ∀ as bs cs : List Nbt, sameList as bs = true → sameList bs cs = true →
    sameList as cs = true
  | [], bs, cs, hab, hbc => by
    cases bs with
    | nil => exact hbc
    | cons b bs => simp [sameList] at hab
  | a :: as, bs, cs, hab, hbc => by
    cases bs with
    | nil => simp [sameList] at hab
    | cons b bs =>
      cases cs with
      | nil => simp [sameList] at hbc
      | cons c cs =>
        simp only [sameList, Bool.and_eq_true] at hab hbc ⊢
        exact ⟨same_trans a b c hab.1 hbc.1, sameList_trans as bs cs hab.2 hbc.2⟩

theorem same_trans_of_mem : ∀ as : List (String × Nbt), ∀ e ∈ as, ∀ b c : Nbt,
    same e.2 b = true → same b c = true → same e.2 c = true
  | (_, a) :: as, e, he, b, c, hab, hbc => by
    obtain rfl | he := List.mem_cons.mp he
    · exact same_trans a b c hab hbc
    · exact same_trans_of_mem as e he b c hab hbc

end

end Nbt

end VoxelServer
