import VoxelServer.Proofs.Message.Writing
import VoxelServer.Proofs.Nbt.RoundTrip
import VoxelServer.Proofs.Protocol.Reading
import VoxelServer.Proofs.Wire.Composite
import VoxelServer.Protocol.Codec

/-!
# Messages that are read back

What a client writes in the order of its fields is read as the same message, and so is what the
server itself writes of the messages that go both ways:

* `Message.Spelled`: a message and its fields one after the other, as long as its texts are short
  enough for their reader;
* `Message.Spelled.reads`: it is read from them, whatever follows;
* `decode_channelPayload`: the message whose end nothing marks and whose limits differ by direction;
* `messages_are_read_back`: both.
-/

namespace VoxelServer

/-- Every component of a vector is read back. -/
instance {α : Type} [Wire α] [LawfulWire α] : LawfulWire (Vec3 α) where
  reads v := ReadsBack.vec3 (P := fun _ => True) (fun a _ => LawfulWire.reads a) v
    ⟨trivial, trivial, trivial⟩

instance : LawfulWire Look where
  reads l := (LawfulWire.reads l.yaw).bind ((LawfulWire.reads l.pitch).bind_nil (.pure l))

/-- An item that is read back, whatever follows it. -/
def Slot.ReadBack (slot : Slot) : Prop := decodeSlot.Reads (encodeSlot slot) slot

namespace Message

/-- The fields of a message in their order, each as its type is written. -/
inductive Spelled : Message → Bytes → Prop
  | ping (payload : Int64) : Spelled (.ping payload) (Wire.encode payload)
  | keepAlive (id : Int32) : Spelled (.keepAlive id) (varInt id)
  | confirmTransaction (m : ConfirmTransaction) : Spelled (.confirmTransaction m)
      (Wire.encode m.windowId ++ (Wire.encode m.action ++ Wire.encode m.accepted))
  | closeWindow (windowId : UInt8) : Spelled (.closeWindow windowId) (Wire.encode windowId)
  | teleportConfirm (teleportId : Int32) :
      Spelled (.teleportConfirm teleportId) (varInt teleportId)
  | incomingChat {text : String} (short : (Utf8.encode text).length ≤ maxChatLength) :
      Spelled (.incomingChat text) (Wire.encode text)
  | clientSettings {m : ClientSettings} (short : (Utf8.encode m.locale).length ≤ maxLocaleLength) :
      Spelled (.clientSettings m)
        (Wire.encode m.locale ++ (Wire.encode m.viewDistance ++ (varInt m.chatMode ++
          (Wire.encode m.chatColors ++ (Wire.encode m.skinParts ++ varInt m.mainHand)))))
  | clickWindow {m : ClickWindow} (item : m.item.ReadBack) : Spelled (.clickWindow m)
      (Wire.encode m.windowId ++ (Wire.encode m.slot ++ (Wire.encode m.button ++
        (Wire.encode m.action ++ (varInt m.mode ++ encodeSlot m.item)))))
  | creativeInventoryAction {m : CreativeInventoryAction} (item : m.item.ReadBack) :
      Spelled (.creativeInventoryAction m) (Wire.encode m.slot ++ encodeSlot m.item)
  | playerPosition (position : Vec3 Double) (onGround : Bool) :
      Spelled (.playerPosition position onGround) (Wire.encode position ++ Wire.encode onGround)
  | playerPositionRotation (position : Vec3 Double) (look : Look) (onGround : Bool) :
      Spelled (.playerPositionRotation position look onGround)
        (Wire.encode position ++ (Wire.encode look ++ Wire.encode onGround))
  | playerRotation (look : Look) (onGround : Bool) :
      Spelled (.playerRotation look onGround) (Wire.encode look ++ Wire.encode onGround)
  | playerOnGround (onGround : Bool) : Spelled (.playerOnGround onGround) (Wire.encode onGround)

theorem reads_varInt (n : Int32) : MessageType.varInt.Reads (varInt n) n :=
  .map VarInt.value (LawfulWire.reads (VarInt.mk n))

/-- A message is read from its fields, whatever follows them. -/
theorem Spelled.reads {m : Message} {bytes : Bytes} (h : Spelled m bytes) :
    m.type.body.Reads bytes m := by
  cases h with
  | ping payload => exact (LawfulWire.reads payload).bind_nil (.pure _)
  | keepAlive id => exact (reads_varInt id).bind_nil (.pure _)
  | confirmTransaction m =>
    exact (LawfulWire.reads m.windowId).bind ((LawfulWire.reads m.action).bind
      ((LawfulWire.reads m.accepted).bind_nil (.pure _)))
  | closeWindow windowId => exact (LawfulWire.reads windowId).bind_nil (.pure _)
  | teleportConfirm teleportId => exact (reads_varInt teleportId).bind_nil (.pure _)
  | incomingChat short =>
    have small := Nat.lt_of_le_of_lt short (by decide : maxChatLength < 2 ^ 31)
    exact (reads_textUpTo short small).bind_nil (.pure _)
  | clientSettings short =>
    have small := Nat.lt_of_le_of_lt short (by decide : maxLocaleLength < 2 ^ 31)
    exact (reads_textUpTo short small).bind ((LawfulWire.reads _).bind ((reads_varInt _).bind
      ((LawfulWire.reads _).bind ((LawfulWire.reads _).bind
        ((reads_varInt _).bind_nil (.pure _))))))
  | clickWindow item =>
    exact (LawfulWire.reads _).bind ((LawfulWire.reads _).bind ((LawfulWire.reads _).bind
      ((LawfulWire.reads _).bind ((reads_varInt _).bind (Decoder.Reads.bind_nil item (.pure _))))))
  | creativeInventoryAction item =>
    exact (LawfulWire.reads _).bind (Decoder.Reads.bind_nil item (.pure _))
  | playerPosition position onGround =>
    exact (LawfulWire.reads position).bind ((LawfulWire.reads onGround).bind_nil (.pure _))
  | playerPositionRotation position look onGround =>
    exact (LawfulWire.reads position).bind ((LawfulWire.reads look).bind
      ((LawfulWire.reads onGround).bind_nil (.pure _)))
  | playerRotation look onGround =>
    exact (LawfulWire.reads look).bind ((LawfulWire.reads onGround).bind_nil (.pure _))
  | playerOnGround onGround => exact (LawfulWire.reads onGround).bind_nil (.pure _)

end Message

/-! ## Traffic of plugin channels -/

/-- What is sent on a channel is read back if both parts are within the limits for clients. If not,
the part that is too long is named, the channel before the data. -/
theorem decode_channelPayload (p : ChannelPayload)
    (small : (Utf8.encode p.channel).length < 2 ^ 31) :
    MessageType.channelPayload.body.first (Wire.encode p.channel ++ p.data) =
      if maxChannelLength < (Utf8.encode p.channel).length then
        .error (.tooLong (Utf8.encode p.channel).length maxChannelLength)
      else if maxPayloadLength < p.data.length then .error (.tooLong p.data.length maxPayloadLength)
      else .ok (.channelPayload p) := by
  simp only [Decoder.first, MessageType.body, Bind.bind, StateT.bind, Except.bind]
  by_cases channel : maxChannelLength < (Utf8.encode p.channel).length
  · rw [decode_longText channel small, if_pos channel]
    rfl
  · rw [reads_textUpTo (Nat.not_lt.mp channel) small p.data, if_neg channel]
    by_cases data : maxPayloadLength < p.data.length
    · simp only [takeRest, gt_iff_lt, if_pos data]
      rfl
    · simp only [takeRest, gt_iff_lt, if_neg data]
      rfl

/-- No character takes more than four bytes. -/
theorem Utf8.length_encode_le (text : String) : (encode text).length ≤ 4 * text.length := by
  rw [encode, ← String.length_toList]
  induction text.toList with
  | nil => exact Nat.le_refl 0
  | cons c chars ih =>
    have width := c.utf8Size_le_four
    rw [List.flatMap_cons, List.length_append, String.length_utf8EncodeChar, List.length_cons]
    omega

theorem decode_hugeChannel {p : ChannelPayload}
    (huge : (Utf8.encode p.channel).length = 2147483648) :
    MessageType.channelPayload.body.first (Wire.encode p.channel ++ p.data) =
      .error (.negativeLength (-2147483648)) := by
  simp only [Decoder.first, MessageType.body, Bind.bind, StateT.bind, Except.bind,
    decode_hugeText huge]
  rfl

theorem yields_channelPayload : MessageType.channelPayload.body.Yields fun m =>
    ∃ p, m = .channelPayload p ∧ p.channel.length ≤ maxChannelLength := by
  refine .bind (yields_textUpTo maxChannelLength) fun channel few => ?_
  refine .bind (.trivially _) fun data _ => ?_
  split
  · exact .throw _
  · exact .pure ⟨_, rfl, few⟩

/-- The name of a channel that was read is far from the lengths that 31 bits cannot give. -/
theorem small_of_read {p : ChannelPayload} {bytes : Bytes}
    (read : MessageType.channelPayload.body.first bytes = .ok (.channelPayload p)) :
    (Utf8.encode p.channel).length < 2 ^ 31 := by
  obtain ⟨⟨m, rest⟩, given, rfl⟩ := exists_of_map_ok read
  obtain ⟨q, same, few⟩ := yields_channelPayload bytes _ rest given
  cases same
  have bound := Utf8.length_encode_le p.channel
  unfold maxChannelLength at few
  omega

/-- The limits for clients are those within which a channel is read back. -/
theorem channelPayload_read_iff (p : ChannelPayload) :
    MessageType.channelPayload.body.first (Wire.encode p.channel ++ p.data) =
        .ok (.channelPayload p) ↔
      (Utf8.encode p.channel).length ≤ maxChannelLength ∧ p.data.length ≤ maxPayloadLength := by
  constructor
  · intro read
    rw [decode_channelPayload p (small_of_read read)] at read
    split at read
    · cases read
    split at read
    · cases read
    · omega
  · rintro ⟨channel, data⟩
    have small := Nat.lt_of_le_of_lt channel (by decide : maxChannelLength < 2 ^ 31)
    rw [decode_channelPayload p small, if_neg (Nat.not_lt.mpr channel),
      if_neg (Nat.not_lt.mpr data)]

theorem channelPayload_refused {p : ChannelPayload}
    (small : (Utf8.encode p.channel).length < 2 ^ 31)
    (long : ¬ ((Utf8.encode p.channel).length ≤ maxChannelLength ∧
      p.data.length ≤ maxPayloadLength)) :
    ∃ length max, MessageType.channelPayload.body.first (Wire.encode p.channel ++ p.data) =
      .error (.tooLong length max) := by
  rw [decode_channelPayload p small]
  split
  · exact ⟨_, _, rfl⟩
  split
  · exact ⟨_, _, rfl⟩
  · omega

theorem encode_channelPayload (context : CodecContext) (p : ChannelPayload)
    (fits : p.data.length ≤ maxSentPayloadLength) :
    (Codec.ofType .channelPayload).encode context (.channelPayload p) =
      .ok (Wire.encode p.channel ++ p.data) :=
  if_neg (Nat.not_lt.mpr fits)

theorem encodeBody_of_twoWay {m : Message}
    (twoWay : m.type ∈ [.ping, .keepAlive, .confirmTransaction, .closeWindow]) :
    ∃ bytes, m.encodeBody = .ok bytes ∧ Message.Spelled m bytes := by
  cases m with
  | ping payload => exact ⟨_, rfl, .ping payload⟩
  | keepAlive id => exact ⟨_, rfl, .keepAlive id⟩
  | confirmTransaction m => exact ⟨_, rfl, .confirmTransaction m⟩
  | closeWindow windowId => exact ⟨_, rfl, .closeWindow windowId⟩
  | _ => simp [Message.type] at twoWay

/-- **Messages are read back**: those that clients send from their fields, whatever follows them,
and those that go both ways also from what the server writes. Traffic of a plugin channel is read
back exactly within the limits for clients, and written within those for the server. A message comes
behind what is in the buffer already, and one that cannot be written leaves the buffer as it is. -/
theorem messages_are_read_back (context : CodecContext) :
    (∀ m bytes, Message.Spelled m bytes → ∀ rest,
      (Codec.ofType m.type).decode context (bytes ++ rest) = .ok m) ∧
    (∀ m : Message, m.type ∈ [.ping, .keepAlive, .confirmTransaction, .closeWindow] →
      ∃ bytes, (Codec.ofType m.type).encode context m = .ok bytes ∧ Message.Spelled m bytes ∧
        (Codec.ofType m.type).decode context bytes = .ok m) ∧
    (∀ p : ChannelPayload,
      let codec := Codec.ofType .channelPayload
      let size := (Utf8.encode p.channel).length
      ((∃ e, codec.encode context (.channelPayload p) = .error e) ↔
        maxSentPayloadLength < p.data.length) ∧
      ∀ bytes, codec.encode context (.channelPayload p) = .ok bytes →
        (codec.decode context bytes = .ok (.channelPayload p) ↔
          size ≤ maxChannelLength ∧ p.data.length ≤ maxPayloadLength) ∧
        (size < 2 ^ 31 → ¬ (size ≤ maxChannelLength ∧ p.data.length ≤ maxPayloadLength) →
          ∃ length max, codec.decode context bytes = .error (.tooLong length max))) ∧
    ∀ (m : Message) buffer, m.write buffer =
      match (Codec.ofType m.type).encode context m with
      | .ok bytes => (.ok (), buffer ++ bytes)
      | .error e => (.error e, buffer) := by
  refine ⟨fun m bytes spelled => spelled.reads.first, ?_, ?_, fun m => m.run_write⟩
  · intro m twoWay
    obtain ⟨bytes, written, spelled⟩ := encodeBody_of_twoWay twoWay
    have read := spelled.reads.first []
    rw [List.append_nil] at read
    exact ⟨bytes, written, spelled, read⟩
  · intro p codec size
    by_cases data : maxSentPayloadLength < p.data.length
    · have refused : codec.encode context (.channelPayload p) =
          .error (.tooLong p.data.length maxSentPayloadLength) := if_pos data
      refine ⟨⟨fun _ => data, fun _ => ⟨_, refused⟩⟩, ?_⟩
      intro bytes written
      rw [refused] at written
      cases written
    · have written := encode_channelPayload context p (Nat.not_lt.mp data)
      constructor
      · constructor
        · rintro ⟨e, refused⟩
          rw [written] at refused
          cases refused
        · intro long
          exact absurd long data
      · intro bytes same
        rw [written] at same
        cases same
        exact ⟨channelPayload_read_iff p, channelPayload_refused⟩

/-- Items are read back from the shortest form too, and a channel may use all of its twenty
bytes. -/
theorem click_and_channel_read_back :
    (Codec.ofType .clickWindow).decode {}
        (Wire.encode (0 : UInt8) ++ (Wire.encode (-999 : Int16) ++ (Wire.encode (2 : Int8) ++
          (Wire.encode (7 : Int16) ++ (Message.varInt 5 ++ encodeSlot none)))) ++ [255]) =
      .ok (.clickWindow
        { windowId := 0, slot := -999, button := 2, action := 7, mode := 5, item := none }) ∧
    (∃ bytes, (Codec.ofType .keepAlive).encode {} (.keepAlive (-1)) = .ok bytes ∧
      Message.Spelled (.keepAlive (-1)) bytes ∧
        (Codec.ofType .keepAlive).decode {} bytes = .ok (.keepAlive (-1))) ∧
    (Codec.ofType .channelPayload).decode {} (Wire.encode (letters 20) ++ [1, 2, 3]) =
      .ok (.channelPayload ⟨letters 20, [1, 2, 3]⟩) := by
  obtain ⟨fields, twoWay, channels, -⟩ := messages_are_read_back {}
  have empty : Slot.ReadBack none := by
    apply reads_slot
    rintro item ⟨⟩
  refine ⟨?_, twoWay (.keepAlive (-1)) (by decide), ?_⟩
  · let m : ClickWindow :=
      { windowId := 0, slot := -999, button := 2, action := 7, mode := 5, item := none }
    exact fields (.clickWindow m) _ (.clickWindow empty) [255]
  · have written := encode_channelPayload {} ⟨letters 20, [1, 2, 3]⟩ (by decide)
    refine ((channels ⟨letters 20, [1, 2, 3]⟩).2 _ written).1.mpr ⟨?_, by decide⟩
    rw [length_encode_letters]
    decide

/-- A channel whose name takes two gibibytes is longer than its limit, and refused for another
reason. -/
theorem channel_of_two_gibibytes_negative :
    ∃ bytes, (Codec.ofType .channelPayload).encode {}
        (.channelPayload ⟨letters 2147483648, []⟩) = .ok bytes ∧
      maxChannelLength < (Utf8.encode (letters 2147483648)).length ∧
      (Codec.ofType .channelPayload).decode {} bytes = .error (.negativeLength (-2147483648)) := by
  have length := length_encode_letters 2147483648
  have long : maxChannelLength < 2147483648 := by decide
  refine ⟨_, encode_channelPayload {} _ (Nat.zero_le _), ?_, decode_hugeChannel length⟩
  rwa [length]

end VoxelServer
