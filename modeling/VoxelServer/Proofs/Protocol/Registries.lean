import VoxelServer.Proofs.Computations
import VoxelServer.Protocol.Outbound

/-!
# Messages that leave a registry

What a message is sent as depends on whether processors are bound to it, and on what they make of
it:

* `OutboundRegistry.encode_of_no_processors`, `OutboundRegistry.encode_of_processors`: the payloads
  for one connection;
* `OutboundRegistry.Prepared`, `OutboundRegistry.prepared`: how a broadcast comes about.
-/

namespace VoxelServer

namespace OutboundRegistry

theorem processorsFor_bound (r : OutboundRegistry) (type : MessageType) :
    ∀ p ∈ r.processorsFor type, p ∈ r.processors := by
  intro p mem
  unfold Registry.processorsFor at mem
  cases found : r.pipelines.lookup type with
  | none =>
    rw [found] at mem
    cases mem
  | some processors =>
    rw [found] at mem
    obtain ⟨before, after, same, -⟩ := List.lookup_eq_some_iff.mp found
    exact List.mem_flatMap.mpr ⟨(type, processors), by rw [same]; simp, mem⟩

variable {r : OutboundRegistry} {m : Message} {ctx : CodecContext}

/-- How a broadcast was prepared. -/
inductive Prepared (r : OutboundRegistry) (m : Message) (result : Except CodecError Broadcast) : Prop
  /-- Not at all: every connection gets the message. -/
  | perConnection (same : result = .ok (.perConnection r.state m))
  /-- The message has one payload. -/
  | plain (bound : r.processorsFor m.type = []) (caching : r.isCaching m.type = true)
      (same : result = (fun payload => .cached r.state [payload]) <$> r.encodePayload {} m)
  /-- A processor failed. -/
  | dropped {e : CodecError} (bound : r.processorsFor m.type ≠ [])
      (caching : (r.processorsFor m.type).all (·.caching) = true)
      (processed : process (r.processorsFor m.type) {} m = .error e) (same : result = .error e)
  /-- The payloads are those of what the processors made. -/
  | made {produced : List Message} (bound : r.processorsFor m.type ≠ [])
      (caching : (r.processorsFor m.type).all (·.caching) = true)
      (processed : process (r.processorsFor m.type) {} m = .ok produced)
      (alike : (produced.all fun out => r.isCaching out.type) = true)
      (same : result = .cached r.state <$> produced.mapM (r.encodePayload {}))

theorem prepared (r : OutboundRegistry) (m : Message) : Prepared r m (r.prepare m) := by
  by_cases cacheable : r.isCacheable m.type = true
  case neg =>
    exact .perConnection (by simp [prepare, cacheable])
  case pos =>
    cases bound : r.processorsFor m.type with
    | nil =>
      have caching : r.isCaching m.type = true := by simpa [isCacheable, bound] using cacheable
      refine .plain bound caching ?_
      simp only [prepare, cacheable, bound]
      cases r.encodePayload {} m <;> rfl
    | cons p ps =>
      have some : r.processorsFor m.type ≠ [] := by simp [bound]
      have caching : (r.processorsFor m.type).all (·.caching) = true := by
        simpa [isCacheable, bound] using cacheable
      cases processed : process (r.processorsFor m.type) {} m with
      | error e =>
        refine .dropped some caching processed ?_
        rw [bound] at processed
        simp only [prepare, cacheable, bound, processed]
        rfl
      | ok produced =>
        by_cases alike : (produced.all fun out => r.isCaching out.type) = true
        · refine .made some caching processed alike ?_
          rw [bound] at processed
          simp only [prepare, cacheable, bound, processed, bind, Except.bind, alike]
          cases produced.mapM (r.encodePayload {}) <;> rfl
        · refine .perConnection ?_
          rw [bound] at processed
          simp only [prepare, cacheable, bound, processed, bind, Except.bind, alike]
          rfl

theorem encode_of_no_processors (none : r.processorsFor m.type = []) :
    r.encode ctx m = (fun payload => [payload]) <$> r.encodePayload ctx m := by
  rw [encode, none]
  cases r.encodePayload ctx m <;> rfl

theorem encode_of_processors (some : r.processorsFor m.type ≠ []) :
    r.encode ctx m =
      match process (r.processorsFor m.type) ctx m with
      | .ok produced => produced.mapM (r.encodePayload ctx)
      | .error _ => .ok [] := by
  unfold encode
  cases bound : r.processorsFor m.type with
  | nil => exact absurd bound some
  | cons p ps => rfl

end OutboundRegistry

end VoxelServer
