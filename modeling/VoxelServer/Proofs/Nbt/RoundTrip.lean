import Mathlib.Algebra.Group.Nat.Defs
import VoxelServer.Proofs.Nbt.Same
import VoxelServer.Proofs.Text.Dialect
import VoxelServer.Proofs.Wire.Reads
import VoxelServer.Wire.Slot

/-!
# Reading tag trees back

Two readers go over the bytes of a tag tree: one measures how far the tree reaches, the other builds
it. They agree with each other and with the writer on every tree whose lengths fit the numbers they
are written as and that is not nested too deeply:

* `Nbt.nesting`: how deep a tree is nested, as the limit counts it;
* `Nbt.Fits`: lists are of one kind, and names, texts, lists and arrays are short enough;
* `Nbt.Passes`: bytes that are passed over as a whole, and read as a value;
* `Nbt.passes`: so are the bytes that are written for a value;
* `slot_read_back`: items with such trees are read back, whatever follows them.
-/

namespace VoxelServer

namespace Nbt

mutual

/-- How many payloads are open around the innermost one. -/
def nesting : Nbt → Nat
  | list values => listNesting values
  | compound entries => entriesNesting entries
  | _ => 0

def listNesting : List Nbt → Nat
  | [] => 0
  | a :: as => max (nesting a + 1) (listNesting as)

def entriesNesting : List (String × Nbt) → Nat
  | [] => 0
  | (_, a) :: as => max (nesting a + 1) (entriesNesting as)

end

/-- A name or string that 16 bits can give the length of. -/
def TextFits (text : String) : Prop := (ModifiedUtf8.encode text).length < 2 ^ 16

instance (text : String) : Decidable (TextFits text) := inferInstanceAs (Decidable (_ < _))

mutual

/-- A tree that can be written: its lists are of one kind, and all lengths fit their numbers. -/
def Fits : Nbt → Prop
  | byteArray values => values.length < 2 ^ 31
  | intArray values => values.length < 2 ^ 31
  | longArray values => values.length < 2 ^ 31
  | string value => TextFits value
  | list values => values.length < 2 ^ 31 ∧ ListFits (elementTag values) values
  | compound entries => EntriesFit entries
  | _ => True

def ListFits : UInt8 → List Nbt → Prop
  | _, [] => True
  | tag, a :: as => a.tag = tag ∧ a.Fits ∧ ListFits tag as

def EntriesFit : List (String × Nbt) → Prop
  | [] => True
  | (name, a) :: as => TextFits name ∧ a.Fits ∧ EntriesFit as

end

/-! ## Lengths -/

theorem reads_length16 {n : Nat} (fits : n < 2 ^ 16) :
    (Wire.decode : Decoder UInt16).Reads (Bytes.ofNatBE 2 n) (UInt16.ofNat n) := by
  have reads := LawfulWire.reads (UInt16.ofNat n)
  rwa [show Wire.encode (UInt16.ofNat n) = Bytes.ofNatBE 2 n from
    congrArg (Bytes.ofNatBE 2) (UInt16.toNat_ofNat_of_lt' fits)] at reads

theorem reads_length32 {n : Nat} (fits : n < 2 ^ 31) :
    (Wire.decode : Decoder Int32).Reads (Bytes.ofNatBE 4 n) (Int32.ofNat n) ∧
      ¬ Int32.ofNat n < 0 ∧ (Int32.ofNat n).toInt.toNat = n := by
  have reads := LawfulWire.reads (Int32.ofNat n)
  have number : (Int32.ofNat n).toUInt32.toNat = n :=
    UInt32.toNat_ofNat_of_lt' (Nat.lt_trans fits (by decide))
  have value : (Int32.ofNat n).toInt = n := Int32.toInt_ofNat_of_lt fits
  refine ⟨?_, ?_, by omega⟩
  · rwa [show Wire.encode (Int32.ofNat n) = Bytes.ofNatBE 4 n from
      congrArg (Bytes.ofNatBE 4) number] at reads
  · rw [Int32.lt_iff_toInt_lt, value]
    exact Int.not_lt.mpr (Int.natCast_nonneg n)

theorem reads_takeName {bytes : Bytes} (fits : bytes.length < 2 ^ 16) :
    takeName.Reads (Bytes.ofNatBE 2 bytes.length ++ bytes) bytes := by
  refine (reads_length16 fits).bind (.take ?_)
  exact (UInt16.toNat_ofNat_of_lt' fits).symm

theorem reads_readText {text : String} (fits : TextFits text) :
    readText.Reads (writeText text) text := by
  refine (reads_takeName fits).bind_nil ?_
  rw [ModifiedUtf8.decode?_encode]
  exact .pure text

theorem reads_readArray {α : Type} [Wire α] [LawfulWire α] (values : List α) :
    (readArray values.length).Reads (values.flatMap Wire.encode) values := by
  induction values with
  | nil => exact .pure []
  | cons a values ih => exact (LawfulWire.reads a).bind (ih.bind_nil (.pure (a :: values)))

theorem reads_readCount {n : Nat} (fits : n < 2 ^ 31) : readCount.Reads (Bytes.ofNatBE 4 n) n := by
  obtain ⟨reads, nonneg, value⟩ := reads_length32 fits
  refine reads.bind_nil ?_
  rw [if_neg nonneg, value]
  exact .pure n

theorem reads_takeArray {α : Type} [Wire α] {width : Nat} {values : List α}
    (fits : values.length < 2 ^ 31) (wide : ∀ a : α, (Wire.encode a).length = width) :
    (takeArray width).Reads (writeArray values) (values.flatMap Wire.encode) := by
  obtain ⟨reads, nonneg, value⟩ := reads_length32 fits
  refine reads.bind ?_
  rw [if_neg nonneg, value]
  refine .take ?_
  rw [List.length_flatMap, List.map_congr_left fun a _ => wide a, List.map_const',
    List.sum_replicate_nat]

/-! ## Trees -/

/-- Certain bytes are passed over as a whole, and read as a value. -/
structure Passes (left : Nat) (tag : UInt8) (bytes : Bytes) (value : Nbt) : Prop where
  skips : (skipWithin left tag).Reads bytes ()
  reads : (readWithin left tag).Reads bytes value

theorem isKnownTag_tag (value : Nbt) : isKnownTag value.tag = true := by cases value <;> rfl

theorem tag_ne_zero (value : Nbt) : (value.tag == 0) = false := by cases value <;> rfl

theorem elementTag_known (values : List Nbt) :
    (elementTag values == 0 || isKnownTag (elementTag values)) = true := by
  cases values with
  | nil => rfl
  | cons value values => simp [elementTag, isKnownTag_tag]

/-- An array is passed over by its length, and read element by element. -/
theorem passes_array {α : Type} [Wire α] [LawfulWire α] {width : Nat} (make : List α → Nbt)
    (values : List α) (fits : values.length < 2 ^ 31)
    (wide : ∀ a : α, (Wire.encode a).length = width) :
    Decoder.Reads (Functor.discard (takeArray width)) (writeArray values) () ∧
      Decoder.Reads (do return make (← readArray (← readCount))) (writeArray values)
        (make values) :=
  ⟨.discard (reads_takeArray fits wide),
    (reads_readCount fits).bind ((reads_readArray values).bind_nil (.pure _))⟩

theorem insertEntry_eq {entries : List (String × Nbt)} {name : String} (value : Nbt)
    (fresh : name ∉ entries.map Prod.fst) :
    insertEntry entries name value = (name, value) :: entries := by
  have kept : ∀ e ∈ entries, (e.1 != name) = true := by
    intro e he
    rw [bne_iff_ne]
    rintro rfl
    exact fresh (List.mem_map_of_mem he)
  rw [insertEntry, List.filter_eq_self.mpr kept]

theorem length_lt_writeEntries (entries : List (String × Nbt)) :
    entries.length < (writeEntries entries).length := by
  induction entries with
  | nil => simp [writeEntries]
  | cons e entries ih =>
    obtain ⟨name, value⟩ := e
    simp only [writeEntries, List.length_cons, List.length_append]
    omega

mutual

/-- What is written for a value is passed over as a whole, and read as that value. -/
theorem passes : ∀ (v : Nbt) (left : Nat), v.nesting < left → v.Tidy → v.Fits →
    Passes left v.tag v.writePayload v
  | byte value, left + 1, _, _, _ =>
    ⟨.discard (.take (Bytes.length_ofNatBE 1 _)), .map byte (LawfulWire.reads value)⟩
  | short value, left + 1, _, _, _ =>
    ⟨.discard (.take (Bytes.length_ofNatBE 2 _)), .map short (LawfulWire.reads value)⟩
  | int value, left + 1, _, _, _ =>
    ⟨.discard (.take (Bytes.length_ofNatBE 4 _)), .map int (LawfulWire.reads value)⟩
  | long value, left + 1, _, _, _ =>
    ⟨.discard (.take (Bytes.length_ofNatBE 8 _)), .map long (LawfulWire.reads value)⟩
  | float value, left + 1, _, _, _ =>
    ⟨.discard (.take (Bytes.length_ofNatBE 4 _)), .map float (LawfulWire.reads value)⟩
  | double value, left + 1, _, _, _ =>
    ⟨.discard (.take (Bytes.length_ofNatBE 8 _)), .map double (LawfulWire.reads value)⟩
  | string value, left + 1, _, _, fits =>
    ⟨.discard (reads_takeName fits), .map string (reads_readText fits)⟩
  | byteArray values, left + 1, _, _, fits => by
    obtain ⟨skips, reads⟩ :=
      passes_array byteArray values fits fun _ => Bytes.length_ofNatBE 1 _
    exact ⟨skips, reads⟩
  | intArray values, left + 1, _, _, fits => by
    obtain ⟨skips, reads⟩ :=
      passes_array intArray values fits fun _ => Bytes.length_ofNatBE 4 _
    exact ⟨skips, reads⟩
  | longArray values, left + 1, _, _, fits => by
    obtain ⟨skips, reads⟩ :=
      passes_array longArray values fits fun _ => Bytes.length_ofNatBE 8 _
    exact ⟨skips, reads⟩
  | list values, left + 1, shallow, tidy, ⟨few, fits⟩ => by
    obtain ⟨skips, reads⟩ := passesAll values left (Nat.le_of_lt_succ shallow) tidy _ fits
    obtain ⟨count, -, value⟩ := reads_length32 few
    constructor
    · refine (reads_byte _).bind (count.bind ?_)
      rw [value]
      exact skips
    · refine (reads_byte _).bind ((reads_readCount few).bind ?_)
      rw [if_pos (elementTag_known values)]
      exact reads.bind_nil (.pure _)
  | compound entries, left + 1, shallow, ⟨distinct, tidy⟩, fits => by
    -- the input itself bounds the rounds, and it has more bytes than there are entries
    have enough (rest : Bytes) : entries.length < (writeEntries entries ++ rest).length := by
      have more := length_lt_writeEntries entries
      rw [List.length_append]
      omega
    have each (rest : Bytes) :=
      passesEntries entries left (Nat.le_of_lt_succ shallow) tidy fits _ (enough rest)
    constructor
    · exact fun rest => (each rest).1 rest
    · intro rest
      have reads := (each rest).2 [] (by simpa using distinct) rest
      exact congrArg (fun result => result >>= fun r => pure (compound r.1, r.2)) reads

theorem passesAll : ∀ (values : List Nbt) (left : Nat), listNesting values ≤ left →
    ListTidy values → ∀ tag, ListFits tag values →
      (skipTimes (skipWithin left tag) values.length).Reads (writeElements values) () ∧
        (readTimes (readWithin left tag) values.length).Reads (writeElements values) values
  | [], _, _, _, _, _ => ⟨.pure (), .pure []⟩
  | a :: as, left, shallow, ⟨tidy, tidies⟩, tag, ⟨kind, fit, fits⟩ => by
    obtain ⟨first, others⟩ := Nat.max_le.mp shallow
    obtain ⟨skip, read⟩ := passes a left first tidy fit
    obtain ⟨skips, reads⟩ := passesAll as left others tidies tag fits
    rw [kind] at skip read
    exact ⟨skip.bind skips, read.bind (reads.bind_nil (.pure _))⟩

/-- The entries are read behind some others, if no two have one name. -/
theorem passesEntries : ∀ (entries : List (String × Nbt)) (left : Nat),
    entriesNesting entries ≤ left → EntriesTidy entries → EntriesFit entries →
      ∀ rounds : Bytes, entries.length < rounds.length →
        (skipEntries (skipWithin left) rounds).Reads (writeEntries entries) () ∧
          ∀ before, (before.reverse.map Prod.fst ++ entries.map Prod.fst).Nodup →
            (readEntries (readWithin left) rounds before).Reads (writeEntries entries)
              (before.reverse ++ entries)
  | [], left, _, _, _, _ :: rounds, _ => by
    refine ⟨(reads_byte 0).bind_nil (.pure ()), fun before _ => ?_⟩
    rw [List.append_nil]
    exact (reads_byte 0).bind_nil (.pure _)
  | (name, a) :: as, left, shallow, ⟨tidy, tidies⟩, ⟨named, fit, fits⟩, _ :: rounds, enough => by
    obtain ⟨first, others⟩ := Nat.max_le.mp shallow
    obtain ⟨skip, read⟩ := passes a left first tidy fit
    obtain ⟨skips, reads⟩ :=
      passesEntries as left others tidies fits rounds (Nat.lt_of_succ_lt_succ enough)
    have bytes : writeEntries ((name, a) :: as) =
        [a.tag] ++ (writeText name ++ (a.writePayload ++ writeEntries as)) := by
      simp [writeEntries]
    have goes_on : ¬ (a.tag == 0) = true := by simp [tag_ne_zero]
    rw [bytes]
    constructor
    · refine (reads_byte _).bind ?_
      rw [if_neg goes_on]
      exact (reads_takeName named).bind (skip.bind skips)
    · intro before distinct
      have fresh : name ∉ before.map Prod.fst := by
        intro mem
        refine (List.nodup_append.mp distinct).2.2 name ?_ name (by simp) rfl
        rwa [List.map_reverse, List.mem_reverse]
      have all := reads ((name, a) :: before) (by simpa using distinct)
      rw [List.reverse_cons, List.append_assoc, List.singleton_append] at all
      refine (reads_byte _).bind ?_
      rw [if_neg goes_on]
      refine (reads_readText named).bind (read.bind ?_)
      rw [insertEntry_eq a fresh]
      exact all

end

/-- The tree of an item that can be written and read back: a compound whose parts are short enough,
no deeper than the limit. -/
structure Storable (tree : Nbt) : Prop where
  root : ∃ entries, tree = compound entries
  tidy : tree.Tidy
  fits : tree.Fits
  shallow : tree.nesting ≤ maxDepth

/-- The measured extent of a tree is that of what was written, and the tree is read from it. -/
theorem Storable.passes {entries : List (String × Nbt)} (h : (compound entries).Storable) :
    (skip 10 0).Reads (writeEntries entries) () ∧
      decodeRoot.Reads (compound entries).encodeRoot (some (compound entries)) := by
  obtain ⟨skips, reads⟩ :=
    Nbt.passes _ (maxDepth + 1) (Nat.lt_succ_of_le h.shallow) h.tidy h.fits
  refine ⟨skips, ?_⟩
  have read : (readRoot (writeEntries entries)).Reads [] (compound entries) := by
    have read : readWithin (maxDepth + 1) 10 (writeEntries entries ++ []) =
        .ok (compound entries, []) := reads []
    rw [List.append_nil] at read
    simp only [readRoot, read]
    exact .pure _
  have name : takeName.Reads (writeText "") [] := reads_takeName (by decide)
  exact (reads_byte 10).bind (name.bind (skips.measure.bind_nil (read.bind_nil (.pure _))))

end Nbt

/-- Items that can be written and read back. A negative id would be that of an empty slot. -/
structure ItemStack.Storable (item : ItemStack) : Prop where
  id : 0 ≤ item.id
  nbt : ∀ tree ∈ item.nbt, tree.Storable

theorem reads_nbt (nbt : Option Nbt) : (∀ tree ∈ nbt, tree.Storable) →
    Nbt.decodeRoot.Reads (match nbt with | some tree => tree.encodeRoot | none => [0]) nbt := by
  intro storable
  cases nbt with
  | none => exact fun _ => rfl
  | some tree =>
    have storable := storable tree rfl
    obtain ⟨entries, rfl⟩ := storable.root
    exact storable.passes.2

theorem reads_slot {slot : Slot} (storable : ∀ item ∈ slot, item.Storable) :
    decodeSlot.Reads (encodeSlot slot) slot := by
  cases slot with
  | none => exact (LawfulWire.reads (-1 : Int16)).bind_nil (.pure none)
  | some item =>
    obtain ⟨id, nbt⟩ := storable item rfl
    have nonneg : ¬ item.id < 0 := Int16.not_lt.mpr id
    simp only [encodeSlot, List.append_assoc]
    refine (LawfulWire.reads item.id).bind ?_
    rw [if_neg nonneg]
    exact (LawfulWire.reads item.count).bind ((LawfulWire.reads item.damage).bind
      ((reads_nbt _ nbt).bind_nil (.pure _)))

/-- **A slot is read back as it was written**, whatever follows it, with the whole tree of its item
in the order in which it was written. The reader that measures such a tree stops exactly where the
writer did. -/
theorem slot_read_back (slot : Slot) (storable : ∀ item ∈ slot, item.Storable) (rest : Bytes) :
    decodeSlot (encodeSlot slot ++ rest) = .ok (slot, rest) ∧
      ∀ item ∈ slot, ∀ entries, item.nbt = some (.compound entries) →
        Nbt.skip 10 0 (Nbt.writeEntries entries ++ rest) = .ok ((), rest) := by
  refine ⟨reads_slot storable rest, fun item held entries tree => ?_⟩
  exact ((storable item held).nbt _ tree).passes.1 rest

/-- An enchanted sword. Its name has a character beyond the sixteen-bit plane, and a zero. -/
def namedSword : ItemStack where
  id := 276
  count := 1
  damage := 3
  nbt := some (.compound
    [("display", .compound [("Name", .string (String.ofList [Char.ofNat 0x1F5E1, Char.ofNat 0]))]),
      ("ench", .list [.compound [("id", .short 16), ("lvl", .short 5)]]),
      ("marks", .intArray [1, -1])])

theorem named_sword_read_back :
    decodeSlot (encodeSlot (some namedSword) ++ [255, 0]) = .ok (some namedSword, [255, 0]) := by
  refine (slot_read_back (some namedSword) (fun item held => ?_) [255, 0]).1
  cases held
  refine ⟨by decide, fun tree found => ?_⟩
  cases found
  refine ⟨⟨_, rfl⟩, ?_, ?_, by decide⟩
  · simp [Nbt.Tidy, Nbt.ListTidy, Nbt.EntriesTidy]
  · simp [Nbt.Fits, Nbt.ListFits, Nbt.EntriesFit, Nbt.elementTag, Nbt.tag]
    decide

end VoxelServer
