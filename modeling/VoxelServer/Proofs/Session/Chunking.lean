import VoxelServer.Proofs.Frame.Stream
import VoxelServer.Proofs.Session.Program

/-!
# Chunks of a client's bytes

The network may cut the bytes of a client anywhere. Where it does makes no difference:

* `Hosted.consume_append`: a buffer that grows later is worked off as if it had been whole;
* `receive_in_any_chunks`: taking a stream in parts leaves the same connection and the same server
  as taking it at once, and fails the same way.

This holds for any messages and handlers, and for listeners of every kind.
-/

namespace VoxelServer

namespace Hosted

variable {protocols : Protocols Handler}

/-! ## One round of work -/

theorem consume_of_closing {h : Hosted} (closing : h.session.closing = true) (buffer : Bytes) :
    consume protocols h buffer = (.ok (), h, buffer) := by
  rw [consume, if_pos closing]

theorem consume_of_invalid {h : Hosted} {buffer rest : Bytes} {e : CodecError}
    (isOpen : ¬ h.session.closing = true)
    (decoded : h.session.frames.decode buffer = .invalid e rest) :
    consume protocols h buffer = (.error (.codec e), h.fail protocols (.codec e), rest) := by
  rw [consume, if_neg isOpen]
  split <;> simp_all

theorem consume_of_frame {h : Hosted} {buffer payload rest : Bytes}
    (isOpen : ¬ h.session.closing = true)
    (decoded : h.session.frames.decode buffer = .frame payload rest) :
    consume protocols h buffer =
      match h.dispatch protocols payload with
      | (.ok (), h) => consume protocols h rest
      | (.error e, h) => (.error e, h.fail protocols e, rest) := by
  rw [consume, if_neg isOpen]
  split
  · simp_all
  · simp_all
  · rename_i found
    obtain ⟨rfl, rfl⟩ := FrameCodec.Decoded.frame.inj (found.symm.trans decoded)
    cases h.dispatch protocols _ with
    | mk result h' => cases result <;> rfl

/-! ## A buffer that grows -/

/-- A buffer has been worked off, and more bytes arrive. After a failure nobody looks at them. -/
def resume (protocols : Protocols Handler) (more : Bytes) :
    Except Disconnection Unit × Hosted × Bytes → Except Disconnection Unit × Hosted × Bytes
  | (.ok (), h, rest) => consume protocols h (rest ++ more)
  | (.error e, h, rest) => (.error e, h, rest ++ more)

/-- A buffer that grows later is worked off as if it had been whole. -/
theorem consume_append (h : Hosted) (buffer more : Bytes) :
    consume protocols h (buffer ++ more) = resume protocols more (consume protocols h buffer) := by
  fun_induction consume protocols h buffer with
  | case1 h buffer closing => rfl
  | case2 h buffer isOpen incomplete => rfl
  | case3 h buffer isOpen e rest invalid =>
    have same := FrameCodec.decode_append more (by rw [invalid]; simp)
    rw [invalid] at same
    exact consume_of_invalid isOpen same
  | case4 h buffer isOpen payload rest frame h' dispatched shorter ih =>
    have same := FrameCodec.decode_append more (by rw [frame]; simp)
    rw [frame] at same
    rw [consume_of_frame isOpen same, dispatched]
    exact ih
  | case5 h buffer isOpen payload rest frame e h' dispatched =>
    have same := FrameCodec.decode_append more (by rw [frame]; simp)
    rw [frame] at same
    rw [consume_of_frame isOpen same, dispatched]
    rfl

theorem closing_fail (h : Hosted) (e : Disconnection) :
    (h.fail protocols e).session.closing = true :=
  h.session.closing_disconnect protocols.outbound e.reason

/-- A failure leaves the session closing. -/
theorem closing_of_consume_error {h h' : Hosted} {buffer rest : Bytes} {e : Disconnection}
    (failed : consume protocols h buffer = (.error e, h', rest)) :
    h'.session.closing = true := by
  refine of_consume_error (P := fun _ => h'.session.closing = true) failed (fun same => ?_)
    (fun _ same => ?_) fun _ closed => closed
  all_goals
    rw [same]
    exact closing_fail _ _

end Hosted

namespace Connection

/-- Takes a stream chunk by chunk. The first failure is the one that counts. -/
def receiveAll (protocols : Protocols Handler) (server : Server) (c : Connection) :
    List Bytes → Except Disconnection Unit × Connection × Server
  | [] => (.ok (), c, server)
  | chunk :: chunks =>
    let (first, c, server) := c.receive protocols server chunk
    let (later, c, server) := c.receiveAll protocols server chunks
    (first.bind fun () => later, c, server)

variable (protocols : Protocols Handler) (server : Server) (c : Connection)

/-- Two calls leave what one call with all the bytes leaves. -/
theorem receive_append (a b : Bytes) :
    c.receive protocols server (a ++ b) =
      let (early, c, server) := c.receive protocols server a
      let (late, c, server) := c.receive protocols server b
      (early.bind fun () => late, c, server) := by
  have split : Hosted.consume protocols ⟨c.session, server⟩ (c.inbound ++ a ++ b) = _ :=
    Hosted.consume_append _ _ _
  rw [List.append_assoc] at split
  simp only [receive, split]
  cases worked : Hosted.consume protocols ⟨c.session, server⟩ (c.inbound ++ a) with
  | mk result left =>
    obtain ⟨h, rest⟩ := left
    cases result with
    | ok => rfl
    | error e =>
      have closing := Hosted.closing_of_consume_error worked
      simp only [Hosted.resume, Hosted.consume_of_closing closing]
      rfl

theorem receiveAll_cons (chunk : Bytes) (chunks : List Bytes) :
    c.receiveAll protocols server (chunk :: chunks) =
      c.receive protocols server (chunk ++ chunks.flatten) := by
  induction chunks generalizing server c chunk with
  | nil =>
    simp only [receiveAll, List.flatten_nil, List.append_nil]
    cases c.receive protocols server chunk with
    | mk result left => cases result <;> rfl
  | cons next chunks ih =>
    rw [receiveAll, List.flatten_cons, receive_append]
    simp only [ih]

end Connection

/-- **Chunks cannot be observed.** From any connection and any server, a stream leaves the same
connection, the same server and the same first failure, if there is one, whether it comes at once,
in two parts, or in any number of chunks. -/
theorem receive_in_any_chunks (protocols : Protocols Handler) (server : Server) (c : Connection) :
    (∀ a b : Bytes,
      let (early, c₁, server₁) := c.receive protocols server a
      let (late, c₂, server₂) := c₁.receive protocols server₁ b
      c.receive protocols server (a ++ b) = (early.bind fun () => late, c₂, server₂)) ∧
    ∀ (chunk : Bytes) (chunks : List Bytes),
      c.receiveAll protocols server (chunk :: chunks) =
        c.receive protocols server (chunk :: chunks).flatten :=
  ⟨fun a b => c.receive_append protocols server a b,
    fun chunk chunks => c.receiveAll_cons protocols server chunk chunks⟩

end VoxelServer
