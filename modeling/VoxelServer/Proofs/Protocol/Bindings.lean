import VoxelServer.Protocol.Processors
import VoxelServer.Protocol.Registry

/-!
# What a registry finds

A registry keeps its bindings in a list and finds them through two indexes. Bindings are only ever
added at the end, both indexes are extended with them, and what is refused changes neither:

* `Indexes`: an index that leads from every key to the one entry that has it;
* `Registry.Sound.inserted`: all that a binding can do to a registry, in the order of the checks;
* `Registry.Sound.run`, `Registry.Sound.runAll`: what one call preserves, and any sequence of calls;
* `registry_is_bijection`: after any calls opcodes and types lead to each other, and to exactly the
  bindings that were accepted.
-/

namespace VoxelServer

/-! ## Indexes -/

/-- An index into a list: a key leads to the entry that has it, and nowhere if none has. -/
def Indexes {K E : Type} [BEq K] (index : List (K × Nat)) (entries : List E) (key : E → K) : Prop :=
  ∀ k i, index.lookup k = some i ↔ ∃ e, entries[i]? = some e ∧ key e = k

namespace Indexes

variable {K E : Type} [BEq K] {index : List (K × Nat)} {entries : List E} {key : E → K}

theorem nil (key : E → K) : Indexes [] [] key := by
  intro k i
  simp

theorem lt (h : Indexes index entries key) {k : K} {i : Nat} (found : index.lookup k = some i) :
    i < entries.length := by
  obtain ⟨e, inside, -⟩ := (h k i).mp found
  exact (List.getElem?_eq_some_iff.mp inside).1

/-- Going through the index finds an entry if and only if it has the key. -/
theorem find (h : Indexes index entries key) (k : K) (e : E) :
    (do let i ← index.lookup k; entries[i]?) = some e ↔ e ∈ entries ∧ key e = k := by
  constructor
  · intro found
    obtain ⟨i, known, inside⟩ := Option.bind_eq_some_iff.mp found
    obtain ⟨e', same, keyed⟩ := (h k i).mp known
    obtain rfl : e' = e := Option.some.inj (same.symm.trans inside)
    exact ⟨List.mem_of_getElem? inside, keyed⟩
  · rintro ⟨mem, keyed⟩
    obtain ⟨i, inside⟩ := List.mem_iff_getElem?.mp mem
    have known := (h k i).mpr ⟨e, inside, keyed⟩
    exact Option.bind_eq_some_iff.mpr ⟨i, known, inside⟩

/-- What is found belongs to the entry that has the key. -/
theorem find_map {V : Type} (h : Indexes index entries key) (f : E → V) (k : K) (v : V) :
    f <$> (do let i ← index.lookup k; entries[i]?) = some v ↔
      ∃ e ∈ entries, key e = k ∧ f e = v := by
  rw [Option.map_eq_map, Option.map_eq_some_iff]
  constructor
  · rintro ⟨e, found, same⟩
    obtain ⟨mem, keyed⟩ := (h.find k e).mp found
    exact ⟨e, mem, keyed, same⟩
  · rintro ⟨e, mem, keyed, same⟩
    exact ⟨e, (h.find k e).mpr ⟨mem, keyed⟩, same⟩

/-- No two entries have one key. -/
theorem unique (h : Indexes index entries key) {e e' : E} (mem : e ∈ entries) (mem' : e' ∈ entries)
    (same : key e = key e') : e = e' := by
  have found := (h.find (key e') e).mpr ⟨mem, same⟩
  exact Option.some.inj (found.symm.trans ((h.find (key e') e').mpr ⟨mem', rfl⟩))

theorem isSome_iff (h : Indexes index entries key) (k : K) :
    (index.lookup k).isSome = true ↔ ∃ e ∈ entries, key e = k := by
  constructor
  · intro known
    obtain ⟨i, known⟩ := Option.isSome_iff_exists.mp known
    obtain ⟨e, inside, keyed⟩ := (h k i).mp known
    exact ⟨e, List.mem_of_getElem? inside, keyed⟩
  · rintro ⟨e, mem, keyed⟩
    obtain ⟨i, inside⟩ := List.mem_iff_getElem?.mp mem
    exact Option.isSome_iff_exists.mpr ⟨i, (h k i).mpr ⟨e, inside, keyed⟩⟩

/-- An entry that is found in a longer list was there before or is the last one. -/
theorem getElem?_concat (entries : List E) (new e : E) (i : Nat) :
    (entries ++ [new])[i]? = some e ↔ entries[i]? = some e ∨ i = entries.length ∧ new = e := by
  obtain before | rfl | beyond := Nat.lt_trichotomy i entries.length
  · rw [List.getElem?_append_left before, or_iff_left]
    rintro ⟨rfl, -⟩
    exact Nat.lt_irrefl _ before
  · simp
  · have outside : (entries ++ [new])[i]? = none :=
      List.getElem?_eq_none (by rw [List.length_append]; exact beyond)
    rw [outside, List.getElem?_eq_none (Nat.le_of_lt beyond)]
    simp [Nat.ne_of_gt beyond]

/-- An entry whose key is new goes to the end of the list. -/
theorem push [LawfulBEq K] (h : Indexes index entries key) {new : E}
    (fresh : ∀ e ∈ entries, key e ≠ key new) :
    Indexes ((key new, entries.length) :: index) (entries ++ [new]) key := by
  intro k i
  simp only [getElem?_concat]
  by_cases same : k = key new
  · subst same
    rw [List.lookup_cons_self]
    constructor
    · rintro ⟨⟩
      exact ⟨new, .inr ⟨rfl, rfl⟩, rfl⟩
    · rintro ⟨e, old | ⟨rfl, rfl⟩, keyed⟩
      · exact absurd keyed (fresh e (List.mem_of_getElem? old))
      · rfl
  · have other : (k == key new) = false := by simpa using same
    rw [List.lookup_cons, other, h k i]
    constructor
    · rintro ⟨e, old, keyed⟩
      exact ⟨e, .inl old, keyed⟩
    · rintro ⟨e, old | ⟨-, rfl⟩, keyed⟩
      · exact ⟨e, old, keyed⟩
      · exact absurd keyed.symm same

end Indexes

namespace Registry

variable {H : Type} {r : Registry H}

/-- Both indexes lead to the bindings. -/
structure Sound (r : Registry H) : Prop where
  opcodes : Indexes r.opcodes r.entries Entry.opcode
  types : Indexes r.types r.entries (·.codec.type)

theorem sound_empty (state : ProtocolState) (direction : Direction) :
    (empty state direction : Registry H).Sound := ⟨.nil _, .nil _⟩

/-! ## One call -/

/-- The registry with one more binding. -/
def add (r : Registry H) (e : Entry H) : Registry H :=
  { r with
    entries := r.entries ++ [e]
    opcodes := (e.opcode, r.entries.length) :: r.opcodes
    types := (e.codec.type, r.entries.length) :: r.types }

theorem Sound.add (sound : r.Sound) {e : Entry H} (opcode : ∀ e' ∈ r.entries, e'.opcode ≠ e.opcode)
    (type : ∀ e' ∈ r.entries, e'.codec.type ≠ e.codec.type) : (r.add e).Sound :=
  ⟨sound.opcodes.push opcode, sound.types.push type⟩

/-- What a binding does, as one function of the registry. -/
theorem insert_eq (opcode : Int32) (codec : Codec) (handler : Option H) (r : Registry H) :
    insert opcode codec handler r =
      match r.byOpcode? opcode with
      | some existing =>
        (.error (.duplicateOpcode r.state r.direction opcode existing.codec.type codec.type), r)
      | none =>
        if r.contains codec.type then (.error (.duplicateType r.state r.direction codec.type), r)
        else (.ok (), r.add ⟨opcode, codec, handler⟩) := by
  show (match r.byOpcode? opcode with
      | some existing =>
        throw (.duplicateOpcode r.state r.direction opcode existing.codec.type codec.type)
      | none => if r.contains codec.type then _ else _ : RegistryM H Unit) r = _
  generalize r.byOpcode? opcode = found
  cases found with
  | some existing => rfl
  | none =>
    generalize r.contains codec.type = bound
    cases bound <;> rfl

/-- All that a binding can do: it is refused for what is in its way, the opcode before the type,
or it comes last. -/
inductive Inserted (r : Registry H) (e : Entry H)
    (result : Except RegistryError Unit × Registry H) : Prop
  | opcodeTaken {existing : Entry H} (mem : existing ∈ r.entries)
      (taken : existing.opcode = e.opcode)
      (same : result = (.error (.duplicateOpcode r.state r.direction e.opcode existing.codec.type
        e.codec.type), r))
  | typeTaken (opcode : ∀ e' ∈ r.entries, e'.opcode ≠ e.opcode) {existing : Entry H}
      (mem : existing ∈ r.entries) (taken : existing.codec.type = e.codec.type)
      (same : result = (.error (.duplicateType r.state r.direction e.codec.type), r))
  | accepted (opcode : ∀ e' ∈ r.entries, e'.opcode ≠ e.opcode)
      (type : ∀ e' ∈ r.entries, e'.codec.type ≠ e.codec.type)
      (same : result = (.ok (), r.add e))

theorem Sound.inserted (sound : r.Sound) (e : Entry H) :
    Inserted r e (insert e.opcode e.codec e.handler r) := by
  rw [insert_eq]
  cases found : r.byOpcode? e.opcode with
  | some existing =>
    obtain ⟨mem, taken⟩ := (sound.opcodes.find _ _).mp found
    exact .opcodeTaken mem taken rfl
  | none =>
    have free : ∀ e' ∈ r.entries, e'.opcode ≠ e.opcode := by
      intro e' mem same
      have known := (sound.opcodes.find e.opcode e').mpr ⟨mem, same⟩
      exact nomatch found.symm.trans known
    by_cases bound : r.contains e.codec.type = true
    · obtain ⟨existing, mem, taken⟩ := (sound.types.isSome_iff _).mp bound
      exact .typeTaken free mem taken (if_pos bound)
    · refine .accepted free ?_ (if_neg bound)
      intro e' mem same
      exact bound ((sound.types.isSome_iff _).mpr ⟨e', mem, same⟩)

/-- When a binding is accepted, what is reported otherwise, and what becomes of the registry. -/
theorem Sound.verdict (sound : r.Sound) (e : Entry H) :
    let (result, after) := insert e.opcode e.codec e.handler r
    (result = .ok () ↔
      ∀ e' ∈ r.entries, e'.opcode ≠ e.opcode ∧ e'.codec.type ≠ e.codec.type) ∧
    (∀ e' ∈ r.entries, e'.opcode = e.opcode → result =
      .error (.duplicateOpcode r.state r.direction e.opcode e'.codec.type e.codec.type)) ∧
    ((∀ e' ∈ r.entries, e'.opcode ≠ e.opcode) →
      (∃ e' ∈ r.entries, e'.codec.type = e.codec.type) →
        result = .error (.duplicateType r.state r.direction e.codec.type)) ∧
    ∀ error, result = .error error → after = r := by
  cases sound.inserted e with
  | @opcodeTaken existing mem taken same =>
    rw [same]
    refine ⟨⟨(fun accepted => nomatch accepted), ?_⟩, ?_, ?_, fun _ _ => rfl⟩
    · intro free
      exact absurd taken (free existing mem).1
    · intro e' mem' taken'
      rw [sound.opcodes.unique mem' mem (taken'.trans taken.symm)]
    · intro free
      exact absurd taken (free existing mem)
  | @typeTaken opcode existing mem taken same =>
    rw [same]
    refine ⟨⟨(fun accepted => nomatch accepted), ?_⟩, ?_, fun _ _ => rfl, fun _ _ => rfl⟩
    · intro free
      exact absurd taken (free existing mem).2
    · intro e' mem' taken'
      exact absurd taken' (opcode e' mem')
  | accepted opcode type same =>
    rw [same]
    refine ⟨⟨fun _ e' mem => ⟨opcode e' mem, type e' mem⟩, fun _ => rfl⟩, ?_, ?_,
      fun _ refused => nomatch refused⟩
    · intro e' mem taken
      exact absurd taken (opcode e' mem)
    · rintro - ⟨e', mem, taken⟩
      exact absurd taken (type e' mem)

theorem lookup_addProcessor (p : Processor) (pipelines : List (MessageType × List Processor))
    (type : MessageType) :
    ((addProcessor p pipelines).lookup type).getD [] =
      (pipelines.lookup type).getD [] ++ [p].filter (·.type == type) := by
  have elsewhere (away : type ≠ p.type) :
      (type == p.type) = false ∧ [p].filter (·.type == type) = [] := by
    simp [away, away.symm]
  induction pipelines with
  | nil =>
    by_cases own : type = p.type
    · simp [addProcessor, own]
    · obtain ⟨other, nothing⟩ := elsewhere own
      rw [addProcessor, List.lookup_cons, other, nothing]
      rfl
  | cons head pipelines ih =>
    obtain ⟨first, processors⟩ := head
    by_cases found : first = p.type
    · subst found
      by_cases own : type = p.type
      · simp [addProcessor, own]
      · obtain ⟨other, nothing⟩ := elsewhere own
        simp [addProcessor, List.lookup_cons, other, nothing]
    · have later : addProcessor p ((first, processors) :: pipelines) =
          (first, processors) :: addProcessor p pipelines := if_neg (by simpa using found)
      rw [later, List.lookup_cons, List.lookup_cons]
      by_cases here : type = first
      · subst here
        rw [beq_self_eq_true, (elsewhere found).2, List.append_nil]
      · rw [beq_false_of_ne here]
        exact ih

theorem mem_addProcessor {p : Processor} {pipelines : List (MessageType × List Processor)}
    {q : Processor} : q ∈ (addProcessor p pipelines).flatMap Prod.snd ↔
      q ∈ pipelines.flatMap Prod.snd ∨ q = p := by
  induction pipelines with
  | nil => simp [addProcessor]
  | cons head pipelines ih =>
    rw [addProcessor]
    split
    · simp only [List.flatMap_cons, List.mem_append, List.mem_singleton]
      rw [or_right_comm]
    · simp only [List.flatMap_cons, List.mem_append, ih, or_assoc]

/-- A call that adds to a registry. -/
inductive Call (H : Type)
  | bind (opcode : Int32) (codec : Codec)
  | bindHandler (opcode : Int32) (codec : Codec) (handler : H)
  | bindProcessor (p : Processor)

namespace Call

/-- What is to be bound. -/
def entry? : Call H → Option (Entry H)
  | bind opcode codec => some ⟨opcode, codec, none⟩
  | bindHandler opcode codec handler => some ⟨opcode, codec, some handler⟩
  | bindProcessor _ => none

def processor? : Call H → Option Processor
  | bindProcessor p => some p
  | _ => none

def run : Call H → Registry H → Except RegistryError Unit × Registry H
  | bind opcode codec, r => Registry.bind opcode codec r
  | bindHandler opcode codec handler, r => Registry.bindHandler opcode codec handler r
  | bindProcessor p, r => (.ok (), r.bindProcessor p)

/-- The binding that a call makes. A call that is refused makes none. -/
def accepted? (call : Call H) (r : Registry H) : Option (Entry H) :=
  match (call.run r).1 with
  | .ok () => call.entry?
  | .error _ => none

theorem run_of_entry? {call : Call H} {e : Entry H} (binds : call.entry? = some e)
    (r : Registry H) : call.run r = insert e.opcode e.codec e.handler r := by
  cases call with
  | bind | bindHandler =>
    cases binds
    rfl
  | bindProcessor => cases binds

end Call

/-- A registry that has come from another by certain bindings and processors, in this order, and
by nothing else. -/
structure Grown (r r' : Registry H) (made : List (Entry H)) (bound : List Processor) : Prop where
  state : r'.state = r.state
  direction : r'.direction = r.direction
  sound : r'.Sound
  entries : r'.entries = r.entries ++ made
  processorsFor (type : MessageType) :
    r'.processorsFor type = r.processorsFor type ++ bound.filter (·.type == type)
  processors (p : Processor) : p ∈ r'.processors ↔ p ∈ r.processors ∨ p ∈ bound

theorem Sound.grown (sound : r.Sound) : r.Grown r [] [] where
  state := rfl
  direction := rfl
  sound := sound
  entries := (List.append_nil _).symm
  processorsFor _ := (List.append_nil _).symm
  processors _ := (or_iff_left List.not_mem_nil).symm

theorem Sound.add_grown (sound : r.Sound) {e : Entry H}
    (opcode : ∀ e' ∈ r.entries, e'.opcode ≠ e.opcode)
    (type : ∀ e' ∈ r.entries, e'.codec.type ≠ e.codec.type) : r.Grown (r.add e) [e] [] where
  state := rfl
  direction := rfl
  sound := sound.add opcode type
  entries := rfl
  processorsFor _ := (List.append_nil _).symm
  processors _ := (or_iff_left List.not_mem_nil).symm

theorem Sound.bindProcessor_grown (sound : r.Sound) (p : Processor) :
    r.Grown (r.bindProcessor p) [] [p] where
  state := rfl
  direction := rfl
  sound := ⟨sound.opcodes, sound.types⟩
  entries := (List.append_nil _).symm
  processorsFor := lookup_addProcessor p r.pipelines
  processors q := by rw [List.mem_singleton]; exact mem_addProcessor

theorem Grown.trans {r' r'' : Registry H} {made made' : List (Entry H)}
    {bound bound' : List Processor} (h : r.Grown r' made bound) (h' : r'.Grown r'' made' bound') :
    r.Grown r'' (made ++ made') (bound ++ bound') where
  state := h'.state.trans h.state
  direction := h'.direction.trans h.direction
  sound := h'.sound
  entries := by rw [h'.entries, h.entries, List.append_assoc]
  processorsFor type := by
    rw [h'.processorsFor, h.processorsFor, List.filter_append, List.append_assoc]
  processors p := by rw [h'.processors, h.processors, List.mem_append, or_assoc]

/-- What one call does to a registry. -/
theorem Sound.run (sound : r.Sound) (call : Call H) :
    r.Grown (call.run r).2 (call.accepted? r).toList call.processor?.toList := by
  cases binds : call.entry? with
  | none =>
    cases call with
    | bind | bindHandler => cases binds
    | bindProcessor p =>
      exact sound.bindProcessor_grown p
  | some e =>
    have nobody : call.processor? = none := by
      cases call with
      | bind | bindHandler => rfl
      | bindProcessor => cases binds
    rw [Call.accepted?, Call.run_of_entry? binds, nobody]
    cases sound.inserted e with
    | opcodeTaken _ _ same | typeTaken _ _ _ same =>
      rw [same]
      exact sound.grown
    | accepted opcode type same =>
      rw [same, binds]
      exact sound.add_grown opcode type

/-! ## Any calls -/

/-- The registry after some calls, whichever of them were refused. -/
def runAll : List (Call H) → Registry H → Registry H
  | [], r => r
  | call :: calls, r => runAll calls (call.run r).2

/-- The bindings that some calls make, in order: those of the calls that are not refused. -/
def made : List (Call H) → Registry H → List (Entry H)
  | [], _ => []
  | call :: calls, r => (call.accepted? r).toList ++ made calls (call.run r).2

theorem Sound.runAll (sound : r.Sound) (calls : List (Call H)) :
    r.Grown (runAll calls r) (made calls r) (calls.filterMap Call.processor?) := by
  -- The registry varies: the later calls are made on what the first one leaves, refused or not.
  induction calls generalizing r with
  | nil => exact sound.grown
  | cons call calls ih =>
    have first := sound.run call
    have both := first.trans (ih first.sound)
    rwa [show call.processor?.toList ++ calls.filterMap Call.processor? =
      (call :: calls).filterMap Call.processor? by
        rw [List.filterMap_cons]; cases call.processor? <;> rfl] at both

/-! ## What is found -/

/-- A registry that keeps certain bindings and processors, and finds nothing else. -/
structure Keeps (r : Registry H) (made : List (Entry H)) (bound : List Processor) : Prop where
  byOpcode? (opcode : Int32) (e : Entry H) :
    r.byOpcode? opcode = some e ↔ e ∈ made ∧ e.opcode = opcode
  byType? (type : MessageType) (e : Entry H) :
    r.byType? type = some e ↔ e ∈ made ∧ e.codec.type = type
  /-- Opcodes and types lead to each other. -/
  opcodeOf? (type : MessageType) (opcode : Int32) :
    r.opcodeOf? type = some opcode ↔ ∃ e, r.byOpcode? opcode = some e ∧ e.codec.type = type
  typeAt? (opcode : Int32) (type : MessageType) :
    r.typeAt? opcode = some type ↔ r.opcodeOf? type = some opcode
  contains (type : MessageType) : r.contains type = true ↔ ∃ e ∈ made, e.codec.type = type
  isCaching (type : MessageType) :
    r.isCaching type = true ↔ ∃ e ∈ made, e.codec.type = type ∧ e.codec.caching = true
  /-- No index leads outside the list. -/
  opcodes_lt (opcode : Int32) (i : Nat) : r.opcodes.lookup opcode = some i → i < r.entries.length
  types_lt (type : MessageType) (i : Nat) : r.types.lookup type = some i → i < r.entries.length
  len : r.len = made.length
  processorsFor (type : MessageType) : r.processorsFor type = bound.filter (·.type == type)

theorem Sound.isCaching_iff (sound : r.Sound) (type : MessageType) :
    r.isCaching type = true ↔
      ∃ e ∈ r.entries, e.codec.type = type ∧ e.codec.caching = true := by
  unfold isCaching
  cases found : r.byType? type with
  | none =>
    constructor
    · exact nofun
    · rintro ⟨e, mem, keyed, -⟩
      exact nomatch found.symm.trans ((sound.types.find type e).mpr ⟨mem, keyed⟩)
  | some entry =>
    obtain ⟨mem, keyed⟩ := (sound.types.find type entry).mp found
    constructor
    · intro caching
      exact ⟨entry, mem, keyed, caching⟩
    · rintro ⟨e, mem', keyed', caching⟩
      have same := found.symm.trans ((sound.types.find type e).mpr ⟨mem', keyed'⟩)
      cases same
      exact caching

/-- A registry finds what its list holds. -/
theorem Sound.keeps (sound : r.Sound) {bound : List Processor}
    (processors : ∀ type, r.processorsFor type = bound.filter (·.type == type)) :
    r.Keeps r.entries bound where
  byOpcode? := sound.opcodes.find
  byType? := sound.types.find
  opcodeOf? type opcode := by
    refine (sound.types.find_map Entry.opcode type opcode).trans ?_
    constructor
    · rintro ⟨e, mem, keyed, same⟩
      exact ⟨e, (sound.opcodes.find opcode e).mpr ⟨mem, same⟩, keyed⟩
    · rintro ⟨e, found, keyed⟩
      obtain ⟨mem, same⟩ := (sound.opcodes.find opcode e).mp found
      exact ⟨e, mem, keyed, same⟩
  typeAt? opcode type := by
    refine (sound.opcodes.find_map (·.codec.type) opcode type).trans ?_
    refine Iff.trans ?_ (sound.types.find_map Entry.opcode type opcode).symm
    constructor <;> exact fun ⟨e, mem, keyed, same⟩ => ⟨e, mem, same, keyed⟩
  contains := sound.types.isSome_iff
  isCaching := sound.isCaching_iff
  opcodes_lt _ _ := sound.opcodes.lt
  types_lt _ _ := sound.types.lt
  len := rfl
  processorsFor := processors

/-- **A registry is a bijection between opcodes and message types**, whatever calls were made on it
and whichever of them were refused. It finds the bindings that were accepted, each from either side,
and nothing else. The processors of a type are those that were bound to it, in order, whether or not
it has a codec. A further binding is accepted if and only if neither its opcode nor its type is
bound, a taken opcode is reported before a taken type, and a refusal leaves the registry as it
was. -/
theorem registry_is_bijection (state : ProtocolState) (direction : Direction)
    (calls : List (Call H)) :
    let r := runAll calls (empty state direction)
    let made := made calls (empty state direction)
    r.Keeps made (calls.filterMap Call.processor?) ∧
      ∀ (call : Call H) (e : Entry H), call.entry? = some e →
        ((call.run r).1 = .ok () ↔
          ∀ e' ∈ made, e'.opcode ≠ e.opcode ∧ e'.codec.type ≠ e.codec.type) ∧
        (∀ e' ∈ made, e'.opcode = e.opcode → (call.run r).1 =
          .error (.duplicateOpcode state direction e.opcode e'.codec.type e.codec.type)) ∧
        ((∀ e' ∈ made, e'.opcode ≠ e.opcode) → (∃ e' ∈ made, e'.codec.type = e.codec.type) →
          (call.run r).1 = .error (.duplicateType state direction e.codec.type)) ∧
        ∀ error, (call.run r).1 = .error error → (call.run r).2 = r := by
  intro r made
  have grown := (sound_empty state direction).runAll calls
  have entries : r.entries = made := grown.entries
  have keeps : r.Keeps r.entries (calls.filterMap Call.processor?) :=
    grown.sound.keeps grown.processorsFor
  rw [← entries]
  refine ⟨keeps, ?_⟩
  intro call e binds
  have verdict := grown.sound.verdict e
  rw [grown.state, grown.direction] at verdict
  rw [Call.run_of_entry? binds]
  exact verdict

/-- Chat cannot have the opcode of a keep-alive and gets another one. A keep-alive at that opcode
would collide on both sides, which is reported as a collision of opcodes. -/
theorem chat_after_collision :
    let calls : List (Call Unit) :=
      [.bind 5 (.ofType .keepAlive), .bind 5 (.ofType .chatMessage),
        .bindProcessor .particles, .bindHandler 9 (.ofType .chatMessage) ()]
    let r := runAll calls (empty .play .outbound)
    r.len = 2 ∧ r.opcodeOf? .chatMessage = some 9 ∧ r.typeAt? 5 = some .keepAlive ∧
      r.processorsFor .particleEffect = [.particles] ∧ r.contains .particleEffect = false ∧
      (Registry.bind 9 (.ofType .keepAlive) r).1 =
        .error (.duplicateOpcode .play .outbound 9 .chatMessage .keepAlive) := by
  intro calls r
  obtain ⟨keeps, binds⟩ := registry_is_bijection .play .outbound calls
  let keepAlive : Entry Unit := ⟨5, .ofType .keepAlive, none⟩
  let chat : Entry Unit := ⟨9, .ofType .chatMessage, some ()⟩
  have both : made calls (empty .play .outbound) = [keepAlive, chat] := rfl
  rw [both] at keeps binds
  have known : chat ∈ [keepAlive, chat] := List.mem_cons_of_mem keepAlive List.mem_cons_self
  have first := (keeps.byOpcode? 5 keepAlive).mpr ⟨List.mem_cons_self, rfl⟩
  have second := (keeps.byOpcode? 9 chat).mpr ⟨known, rfl⟩
  refine ⟨keeps.len, (keeps.opcodeOf? _ _).mpr ⟨chat, second, rfl⟩,
    (keeps.typeAt? _ _).mpr ((keeps.opcodeOf? _ _).mpr ⟨keepAlive, first, rfl⟩),
    keeps.processorsFor .particleEffect, ?_, ?_⟩
  · rw [Bool.eq_false_iff]
    intro bound
    obtain ⟨e, mem, type⟩ := (keeps.contains .particleEffect).mp bound
    obtain rfl | rfl : e = keepAlive ∨ e = chat := by simpa using mem
    all_goals cases type
  · obtain ⟨-, collides, -, -⟩ := binds (.bind 9 (.ofType .keepAlive)) _ rfl
    exact collides chat known rfl

end Registry

end VoxelServer
