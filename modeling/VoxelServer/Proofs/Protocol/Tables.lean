import VoxelServer.Proofs.Protocol.Bindings
import VoxelServer.Proofs.Protocol.Registries
import VoxelServer.Session.Protocols

/-!
# The registries of the game

The registries of the game are built by binding the messages of fixed tables. Nothing of a table is
refused, so that a registry finds what its table says:

* `Registry.bindTable_grown`: a table without a collision is bound as a whole;
* `Registry.Grown.byOpcode?_eq_some`, `Registry.Grown.byType?_eq_some`: then what is found are the
  rows of the table;
* `gameInbound_grown`, `gameOutbound_grown`: the tables of the game are bound as a whole.
-/

namespace VoxelServer

/-- The messages of the game that can be sent. -/
def gameOutbound : PerState OutboundRegistry := Protocols.game.outbound

/-- A table in which no opcode and no message type stands twice. -/
def OpcodeTable.Distinct (table : OpcodeTable) : Prop :=
  table.Pairwise fun row row' => row.1 ≠ row'.1 ∧ row.2 ≠ row'.2

instance (table : OpcodeTable) : Decidable table.Distinct :=
  inferInstanceAs (Decidable (List.Pairwise _ _))

namespace Registry

variable {H : Type} {r : Registry H} {table : OpcodeTable} {handler : Option H}

/-- The binding of a row. -/
def Entry.ofRow (handler : Option H) (row : Int32 × MessageType) : Entry H :=
  ⟨row.1, .ofType row.2, handler⟩

/-- Rows are bound one after the other, as long as none is refused. -/
theorem bindTable_cons {row : Int32 × MessageType} {r' : Registry H}
    (accepted : insert row.1 (.ofType row.2) handler r = (.ok (), r')) :
    bindTable (row :: table) handler r = bindTable table handler r' := by
  refine (run_bind_state (insert row.1 (.ofType row.2) handler)
    (fun _ => bindTable table handler) r).trans ?_
  rw [accepted]

/-- A table is bound as a whole if neither it nor the registry gets in its way. -/
theorem bindTable_grown (sound : r.Sound) (distinct : table.Distinct)
    (free : ∀ row ∈ table, ∀ e ∈ r.entries, e.opcode ≠ row.1 ∧ e.codec.type ≠ row.2) :
    (bindTable table handler r).1 = .ok () ∧
      r.Grown (bindTable table handler r).2 (table.map (Entry.ofRow handler)) [] := by
  -- What is bound first is in the way of what comes later, so that `free` moves on with it.
  induction table generalizing r with
  | nil => exact ⟨rfl, sound.grown⟩
  | cons row table ih =>
    obtain ⟨new, distinct⟩ := List.pairwise_cons.mp distinct
    have here := free row List.mem_cons_self
    have first : insert row.1 (.ofType row.2) handler r = (.ok (), r.add (.ofRow handler row)) := by
      cases sound.inserted (.ofRow handler row) with
      | opcodeTaken mem taken _ => exact absurd taken (here _ mem).1
      | typeTaken _ mem taken _ => exact absurd taken (here _ mem).2
      | accepted _ _ same => exact same
    have added := sound.add_grown (e := .ofRow handler row) (fun e mem => (here e mem).1)
      fun e mem => (here e mem).2
    have later : ∀ row' ∈ table, ∀ e ∈ (r.add (.ofRow handler row)).entries,
        e.opcode ≠ row'.1 ∧ e.codec.type ≠ row'.2 := by
      intro row' mem' e mem
      obtain old | last := List.mem_append.mp mem
      · exact free row' (List.mem_cons_of_mem row mem') e old
      · rw [List.mem_singleton.mp last]
        exact new row' mem'
    rw [bindTable_cons first]
    obtain ⟨accepted, others⟩ := ih added.sound distinct later
    exact ⟨accepted, added.trans others⟩

theorem ofTable_grown (state : ProtocolState) (direction : Direction) (distinct : table.Distinct) :
    (empty state direction).Grown (ofTable state direction table handler)
      (table.map (Entry.ofRow handler)) [] := by
  unfold ofTable
  exact (bindTable_grown (sound_empty state direction) distinct
    fun _ _ _ bound => absurd bound List.not_mem_nil).2

theorem Sound.bindProcessors_grown (sound : r.Sound) (bound : List Processor) :
    r.Grown (bound.foldl bindProcessor r) [] bound := by
  induction bound generalizing r with
  | nil => exact sound.grown
  | cons p bound ih =>
    have first := sound.bindProcessor_grown p
    exact first.trans (ih first.sound)

section Tabled

variable {state : ProtocolState} {direction : Direction} {bound : List Processor}
  (grown : (empty state direction).Grown r (table.map (Entry.ofRow handler)) bound) {e : Entry H}

include grown

/-- The bindings are the rows of the table. -/
theorem Grown.mem_entries : e ∈ r.entries ↔ ∃ row ∈ table, e = .ofRow handler row := by
  rw [grown.entries]
  constructor
  · intro mem
    obtain ⟨row, listed, same⟩ := List.mem_map.mp mem
    exact ⟨row, listed, same.symm⟩
  · rintro ⟨row, listed, rfl⟩
    exact List.mem_map_of_mem listed

theorem Grown.byOpcode?_eq_some (opcode : Int32) :
    r.byOpcode? opcode = some e ↔ ∃ row ∈ table, row.1 = opcode ∧ e = .ofRow handler row := by
  rw [byOpcode?, grown.sound.opcodes.find, grown.mem_entries]
  constructor
  · rintro ⟨⟨row, listed, rfl⟩, same⟩
    exact ⟨row, listed, same, rfl⟩
  · rintro ⟨row, listed, same, rfl⟩
    exact ⟨⟨row, listed, rfl⟩, same⟩

theorem Grown.byType?_eq_some (type : MessageType) :
    r.byType? type = some e ↔ ∃ row ∈ table, row.2 = type ∧ e = .ofRow handler row := by
  rw [byType?, grown.sound.types.find, grown.mem_entries]
  constructor
  · rintro ⟨⟨row, listed, rfl⟩, same⟩
    exact ⟨row, listed, same, rfl⟩
  · rintro ⟨row, listed, same, rfl⟩
    exact ⟨⟨row, listed, rfl⟩, same⟩

theorem Grown.contains_iff (type : MessageType) :
    r.contains type = true ↔ ∃ row ∈ table, row.2 = type := by
  refine (grown.sound.types.isSome_iff type).trans ?_
  constructor
  · rintro ⟨e, mem, same⟩
    obtain ⟨row, listed, rfl⟩ := grown.mem_entries.mp mem
    exact ⟨row, listed, same⟩
  · rintro ⟨row, listed, same⟩
    exact ⟨.ofRow handler row, grown.mem_entries.mpr ⟨row, listed, rfl⟩, same⟩

end Tabled

end Registry

/-! ## The game -/

namespace ProtocolState

theorem inboundTable_distinct (state : ProtocolState) : state.inboundTable.Distinct := by
  cases state <;> decide

theorem outboundTable_distinct (state : ProtocolState) : state.outboundTable.Distinct := by
  cases state <;> decide

end ProtocolState

open Registry (Entry)

theorem gameInbound_grown (state : ProtocolState) :
    (Registry.empty state .inbound).Grown (Protocols.game.inbound.get state)
      (state.inboundTable.map (Entry.ofRow (some Message.handle))) [] := by
  rw [Protocols.game, PerState.get_of]
  exact Registry.ofTable_grown state .inbound state.inboundTable_distinct

theorem gameOutbound_grown (state : ProtocolState) :
    (Registry.empty state .outbound).Grown (gameOutbound.get state)
      (state.outboundTable.map (Entry.ofRow none)) state.processors := by
  have table : (Registry.empty state .outbound).Grown (.ofTable state .outbound _ none)
      (state.outboundTable.map (Entry.ofRow none)) [] :=
    Registry.ofTable_grown (H := Unit) state .outbound state.outboundTable_distinct
  rw [gameOutbound, Protocols.game, PerState.get_of]
  have both := table.trans (table.sound.bindProcessors_grown state.processors)
  rwa [List.append_nil, List.nil_append] at both

theorem state_game (state : ProtocolState) : (gameOutbound.get state).state = state :=
  (gameOutbound_grown state).state

theorem row_of_gameInbound {state : ProtocolState} {opcode : Int32} {entry : Entry Handler}
    (found : (Protocols.game.inbound.get state).byOpcode? opcode = some entry) :
    ∃ row ∈ state.inboundTable, row.1 = opcode ∧ entry = .ofRow (some Message.handle) row :=
  ((gameInbound_grown state).byOpcode?_eq_some opcode).mp found

theorem row_of_gameOutbound {state : ProtocolState} {type : MessageType} {entry : Entry Unit}
    (found : (gameOutbound.get state).byType? type = some entry) :
    ∃ row ∈ state.outboundTable, row.2 = type ∧ entry = .ofRow none row :=
  ((gameOutbound_grown state).byType?_eq_some type).mp found

/-- A row of the table is found by its opcode. -/
theorem gameInbound_byOpcode? {state : ProtocolState} {row : Int32 × MessageType}
    (bound : row ∈ state.inboundTable) :
    (Protocols.game.inbound.get state).byOpcode? row.1 =
      some (.ofRow (some Message.handle) row) :=
  ((gameInbound_grown state).byOpcode?_eq_some row.1).mpr ⟨row, bound, rfl, rfl⟩

/-- A row of the table is found by its type. -/
theorem gameOutbound_byType? {state : ProtocolState} {row : Int32 × MessageType}
    (bound : row ∈ state.outboundTable) :
    (gameOutbound.get state).byType? row.2 = some (.ofRow none row) :=
  ((gameOutbound_grown state).byType?_eq_some row.2).mpr ⟨row, bound, rfl, rfl⟩

theorem gameOutbound_contains (state : ProtocolState) (type : MessageType) :
    (gameOutbound.get state).contains type = true ↔
      ∃ row ∈ state.outboundTable, row.2 = type :=
  (gameOutbound_grown state).contains_iff type

theorem gameOutbound_processorsFor (state : ProtocolState) (type : MessageType) :
    (gameOutbound.get state).processorsFor type = state.processors.filter (·.type == type) :=
  (gameOutbound_grown state).processorsFor type

theorem mem_processors_game {state : ProtocolState} {p : Processor}
    (bound : p ∈ (gameOutbound.get state).processors) : p ∈ state.processors := by
  obtain before | listed := ((gameOutbound_grown state).processors p).mp bound
  · cases before
  · exact listed

end VoxelServer
