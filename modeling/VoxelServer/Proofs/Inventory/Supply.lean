import VoxelServer.Proofs.Inventory.Solid

/-!
# Answers to the creative mode's supply

An item from the supply goes to slots of the player's inventory, and the client is told what it put
there. A slot takes no stack without items, and nobody has slots beyond the last one, but the
answer repeats what was asked for:

* `Container.lastFor`: the transaction that decides what is in a slot, and
  `Container.get_store`, what this is, whatever was stored;
* `Inventory.Tells`: a client that hears some replies shows what is in every slot they name;
* `creative_replies_tell_iff`: when the answer to a creative action does this.
-/

namespace VoxelServer

/-- A slot that counts a stack without items as none keeps all others. -/
theorem Slot.nonempty_eq_iff (slot : Slot) : slot.nonempty = slot ↔ slot.Solid := by
  constructor
  · intro same
    rw [← same]
    exact slot.solid_nonempty
  · exact Slot.Solid.nonempty

namespace Container

variable {c : Container} {ts : List SlotTransaction}

/-- The last transaction for a slot. -/
def lastFor (slot : Nat) (ts : List SlotTransaction) : Option SlotTransaction :=
  (ts.filter (·.slot = slot)).getLast?

/-- The container has the slot of a transaction and takes what it puts there, or there is nothing
to take. -/
def Accepts (c : Container) (t : SlotTransaction) : Prop :=
  t.after.Solid ∧ (t.slot < c.size ∨ t.after = none)

theorem slot_of_lastFor {slot : Nat} {t : SlotTransaction} (last : lastFor slot ts = some t) :
    t ∈ ts ∧ t.slot = slot := by
  simpa using List.mem_of_getLast? last

theorem lastFor_cons (slot : Nat) (t : SlotTransaction) (ts : List SlotTransaction) :
    lastFor slot (t :: ts) = (lastFor slot ts).or (if t.slot = slot then some t else none) := by
  unfold lastFor
  by_cases named : t.slot = slot
  · rw [List.filter_cons_of_pos (by simpa using named), List.getLast?_cons, if_pos named]
    cases (ts.filter (·.slot = slot)).getLast? <;> rfl
  · rw [List.filter_cons_of_neg (by simpa using named), if_neg named, Option.or_none]

theorem set?_of_inside {slot : Nat} (inside : slot < c.size) (item : Slot) :
    c.set? slot item = some (c.put slot item.nonempty) := if_pos inside

/-- What is in a slot after any transactions: what the last one for it has put there, as far as the
slot takes it. -/
theorem get_store (c : Container) (ts : List SlotTransaction) (slot : Nat) :
    (c.store ts).1.get slot =
      match lastFor slot ts with
      | none => c.get slot
      | some t => if slot < c.size then t.after.nonempty else none := by
  induction ts generalizing c with
  | nil => rfl
  | cons t ts ih =>
    rw [lastFor_cons]
    by_cases inside : t.slot < c.size
    · simp only [store, set?_of_inside inside, ih, size_put]
      cases lastFor slot ts with
      | some u => rfl
      | none =>
        by_cases named : t.slot = slot
        · subst named
          simp [get_put_self inside, inside]
        · simp [named, get_put_of_ne named]
    · have missing : c.set? t.slot t.after = none := if_neg inside
      simp only [store, missing, ih]
      cases lastFor slot ts with
      | some u => rfl
      | none =>
        by_cases named : t.slot = slot
        · subst named
          simp [inside, get_of_size_le (Nat.le_of_not_lt inside)]
        · simp [named]

/-- A slot holds what its last transaction says exactly if the container takes it. -/
theorem get_store_eq_iff {slot : Nat} {t : SlotTransaction} (last : lastFor slot ts = some t) :
    t.after = (c.store ts).1.get slot ↔ c.Accepts t := by
  obtain ⟨-, rfl⟩ := slot_of_lastFor last
  rw [get_store, last, Accepts]
  dsimp only
  split
  · rename_i inside
    rw [eq_comm, Slot.nonempty_eq_iff]
    simp [inside]
  · rename_i outside
    constructor
    · intro none
      exact ⟨none ▸ Slot.solid_none, .inr none⟩
    · rintro ⟨-, inside | none⟩
      · exact absurd inside outside
      · exact none

end Container

/-! ## What a client hears -/

/-- What a reply says about a slot of the player's inventory. -/
def Reply.about? (number : Int16) : Reply → Option Slot
  | .setSlot m => if m.windowId = 0 ∧ m.slot = number then some m.item else none
  | .confirm _ => none

namespace Inventory

/-- What a client shows in a slot of the player's inventory once it has taken some replies one after
the other, if they name this slot. -/
def heard? (replies : List Reply) (number : Int16) : Option Slot :=
  (replies.filterMap (Reply.about? number)).getLast?

/-- A client that takes the replies shows what a container holds in every slot they name. -/
def Tells (replies : List Reply) (c : Container) : Prop :=
  ∀ number item, heard? replies number = some item →
    0 ≤ number.toInt ∧ item = c.get number.toInt.toNat

theorem about?_slot (number : Int16) (slot : Nat) (item : Slot) :
    (Reply.slot 0 slot item).about? number =
      if Int16.ofNat slot = number then some item else none := by
  simp [Reply.slot, Reply.about?]

/-- Replies about transactions tell of each slot what its last transaction does. -/
theorem heard?_map {ts : List SlotTransaction} (numbered : ∀ t ∈ ts, t.slot < 2 ^ 15)
    (item : SlotTransaction → Slot) {slot : Nat} (small : slot < 2 ^ 15) :
    heard? (ts.map fun t => .slot 0 t.slot (item t)) (Int16.ofNat slot) =
      (Container.lastFor slot ts).map item := by
  have same {n : Nat} (h : n < 2 ^ 15) : Int16.ofNat n = Int16.ofNat slot ↔ n = slot := by
    rw [← Int16.toInt_inj, Int16.toInt_ofNat_of_lt h, Int16.toInt_ofNat_of_lt small]
    exact Int.ofNat_inj
  have said : (ts.map fun t => Reply.slot 0 t.slot (item t)).filterMap
      (Reply.about? (Int16.ofNat slot)) = (ts.filter (·.slot = slot)).map item := by
    induction ts with
    | nil => rfl
    | cons t ts ih =>
      obtain ⟨first, rest⟩ := List.forall_mem_cons.mp numbered
      rw [List.map_cons, List.filterMap_cons, about?_slot, ih rest]
      by_cases named : t.slot = slot
      · rw [if_pos ((same first).mpr named), List.filter_cons_of_pos (by simpa using named)]
        rfl
      · rw [if_neg (mt (same first).mp named), List.filter_cons_of_neg (by simpa using named)]
  rw [heard?, said, Container.lastFor, List.getLast?_map]

/-- So they tell the truth exactly if they say of each slot what is there by then. -/
theorem tells_map_iff {ts : List SlotTransaction} (numbered : ∀ t ∈ ts, t.slot < 2 ^ 15)
    (item : SlotTransaction → Slot) (c : Container) :
    Tells (ts.map fun t => .slot 0 t.slot (item t)) c ↔
      ∀ slot t, Container.lastFor slot ts = some t → item t = c.get slot := by
  constructor
  · intro tells slot t last
    obtain ⟨mem, rfl⟩ := Container.slot_of_lastFor last
    have small := numbered t mem
    have known := (heard?_map numbered item small).trans (congrArg (Option.map item) last)
    have right := (tells _ _ known).2
    rwa [Int16.toInt_ofNat_of_lt small] at right
  · intro right number told said
    -- the number is that of one of the transactions
    obtain ⟨reply, mem, named⟩ := List.mem_filterMap.mp (List.mem_of_getLast? said)
    obtain ⟨t, ht, rfl⟩ := List.mem_map.mp mem
    rw [about?_slot] at named
    split at named
    · rename_i same
      subst same
      have small := numbered t ht
      rw [heard?_map numbered item small] at said
      obtain ⟨u, last, rfl⟩ := Option.map_eq_some_iff.mp said
      rw [Int16.toInt_ofNat_of_lt small]
      exact ⟨Int.natCast_nonneg _, right _ u last⟩
    · cases named

/-! ## Answers -/

variable {v : Inventory} {post : CreativeEvent → CreativeEvent} {m : CreativeInventoryAction}

/-- The event of a creative action has slots of the player's inventory only, and at most one. -/
theorem slots_of_creativeEvent {e : CreativeEvent} (made : v.creativeEvent m = .ok e) :
    m.slot < 0 ∧ e.slots = [] ∨ ∃ slot < v.player.size, slot < 2 ^ 15 ∧ ¬ m.slot < 0 ∧
      e.slots = [⟨slot, v.player.get slot, m.item⟩] := by
  unfold creativeEvent at made
  by_cases thrown : m.slot < 0
  · rw [if_pos thrown] at made
    cases made
    exact .inl ⟨thrown, rfl⟩
  · rw [if_neg thrown] at made
    cases found : v.player.index? m.slot with
    | none =>
      rw [found] at made
      cases made
    | some slot =>
      rw [found] at made
      cases made
      obtain ⟨inside, number⟩ := Container.index?_eq_some found
      have small := m.slot.toInt_lt
      exact .inr ⟨slot, inside, by omega, thrown, rfl⟩

/-- Only slots that are not there are refused. -/
theorem refused_of_creativeEvent {e : CodecError} (refused : v.creativeEvent m = .error e) :
    0 ≤ m.slot.toInt ∧ v.player.size ≤ m.slot.toInt := by
  unfold creativeEvent at refused
  split at refused
  · cases refused
  rename_i kept
  rw [Int16.lt_iff_toInt_lt] at kept
  have low : 0 ≤ m.slot.toInt := Int.not_lt.mp kept
  split at refused
  · rename_i missing
    refine ⟨low, ?_⟩
    unfold Container.index? at missing
    split at missing
    · cases missing
    · rename_i outside
      simp only [Bool.and_eq_true, decide_eq_true_eq, not_and, Int.not_lt] at outside
      exact outside low
  · cases refused

theorem creative_of_event {e : CreativeEvent} (made : v.creativeEvent m = .ok e) :
    v.creative post m = .ok
      ⟨{ v with player := if (post e).cancelled then v.player
          else (v.player.store (post e).slots).1 }, some (post e),
        (post e).slots.map fun t =>
          .slot 0 t.slot (if (post e).cancelled then v.player.get t.slot else t.after)⟩ := by
  simp only [creative, made, Bind.bind, Except.bind, Pure.pure, Except.pure]

/-- Replies to transactions for slots with numbers tell the truth if they were cancelled, or if
every slot accepts the last of them for it. -/
theorem tells_of_event (c : Container) (ts : List SlotTransaction) (cancelled : Bool)
    (numbered : ∀ t ∈ ts, t.slot < 2 ^ 15) :
    Tells (ts.map fun t => .slot 0 t.slot (if cancelled then c.get t.slot else t.after))
        (if cancelled then c else (c.store ts).1) ↔
      cancelled = true ∨ ∀ slot t, Container.lastFor slot ts = some t → c.Accepts t := by
  rw [tells_map_iff numbered]
  cases cancelled with
  | true =>
    refine iff_of_true (fun slot t last => ?_) (.inl rfl)
    obtain ⟨-, rfl⟩ := Container.slot_of_lastFor last
    rfl
  | false =>
    simp only [Bool.false_eq_true, if_false, false_or]
    constructor
    · intro right slot t last
      exact (Container.get_store_eq_iff last).mp (right slot t last)
    · intro accepted slot t last
      exact (Container.get_store_eq_iff last).mpr (accepted slot t last)

end Inventory

/-- **When the answer to a creative action is right.** An action for a slot that is not there is
refused and changes nothing, and neither does one that is cancelled. Otherwise the client is told
what was asked for, and this is what the slots hold exactly if it is no stack without items, and
every slot that listeners have named is there, or emptied. -/
theorem creative_replies_tell_iff (v : Inventory) (post : CreativeEvent → CreativeEvent)
    (m : CreativeInventoryAction) :
    match v.creative post m with
    | .error _ => 0 ≤ m.slot.toInt ∧ v.player.size ≤ m.slot.toInt ∧
      Inventory.Use.apply v (.creative post m) = v
    | .ok o => ∃ e, v.creativeEvent m = .ok e ∧ o.event = some (post e) ∧
      ((post e).cancelled = true → o.inventory = v) ∧
      ((∀ t ∈ (post e).slots, t.slot < 2 ^ 15) →
        (Inventory.Tells o.replies o.inventory.player ↔ (post e).cancelled = true ∨
          ∀ slot t, Container.lastFor slot (post e).slots = some t → v.player.Accepts t)) ∧
      ((post e).slots = e.slots →
        (Inventory.Tells o.replies o.inventory.player ↔
          (post e).cancelled = true ∨ m.slot < 0 ∨ m.item.Solid)) := by
  cases made : v.creativeEvent m with
  | error refusal =>
    have refused : v.creative post m = .error refusal := by
      simp only [Inventory.creative, made, Bind.bind, Except.bind]
    have same : Inventory.Use.apply v (.creative post m) = v := by
      simp only [Inventory.Use.apply, refused]
    obtain ⟨low, high⟩ := Inventory.refused_of_creativeEvent made
    rw [refused]
    exact ⟨low, high, same⟩
  | ok e =>
    rw [Inventory.creative_of_event made]
    have right := Inventory.tells_of_event v.player (post e).slots (post e).cancelled
    refine ⟨e, rfl, rfl, fun cancelled => ?_, right, fun untouched => ?_⟩
    · simp [cancelled]
    · rw [untouched] at right ⊢
      obtain ⟨thrown, none⟩ | ⟨slot, inside, small, kept, one⟩ :=
        Inventory.slots_of_creativeEvent made
      · rw [none] at right ⊢
        refine iff_of_true ((right (List.forall_mem_nil _)).mpr (.inr ?_)) (.inr (.inl thrown))
        intro slot t last
        cases last
      · rw [one] at right ⊢
        rw [right (List.forall_mem_singleton.mpr small)]
        refine or_congr_right ?_
        rw [or_iff_right kept]
        constructor
        · intro accepted
          exact (accepted slot ⟨slot, v.player.get slot, m.item⟩ (by simp [Container.lastFor])).1
        · intro solid other t last
          obtain ⟨mem, -⟩ := Container.slot_of_lastFor last
          rw [List.mem_singleton.mp mem]
          exact ⟨solid, .inl inside⟩

/-- Stones go to the hotbar, and a listener has emptied a slot that is not there. -/
theorem creative_reply_of_stones :
    let post (e : CreativeEvent) : CreativeEvent :=
      { e with slots := e.slots ++ [⟨99, none, none⟩] }
    ∃ o, Inventory.empty.creative post ⟨40, some ⟨1, 64, 0, none⟩⟩ = .ok o ∧
      o.replies.length = 2 ∧ Inventory.Tells o.replies o.inventory.player := by
  intro post
  refine ⟨_, rfl, rfl, ?_⟩
  obtain ⟨e, made, -, -, right, -⟩ :=
    creative_replies_tell_iff Inventory.empty post ⟨40, some ⟨1, 64, 0, none⟩⟩
  cases made
  refine (right (by simp [post])).mpr (.inr fun slot t last => ?_)
  obtain ⟨mem, -⟩ := Container.slot_of_lastFor last
  simp only [post, List.mem_append, List.mem_singleton] at mem
  obtain rfl | rfl := mem
  · exact ⟨by decide, .inl (by decide)⟩
  · exact ⟨Slot.solid_none, .inr rfl⟩

/-- A stack of no items is not stored, but the client is told that it was. -/
theorem creative_reply_of_no_items :
    ¬ ∀ (v : Inventory) (post : CreativeEvent → CreativeEvent) (m : CreativeInventoryAction) o,
      v.creative post m = .ok o → Inventory.Tells o.replies o.inventory.player := by
  intro claim
  have tells := claim Inventory.empty id ⟨36, some ⟨1, 0, 0, none⟩⟩ _ rfl
  have right := (tells 36 (some ⟨1, 0, 0, none⟩) rfl).2
  cases right

end VoxelServer
