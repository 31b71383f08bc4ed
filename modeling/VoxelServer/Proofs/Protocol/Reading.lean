import VoxelServer.Message.Codec
import VoxelServer.Proofs.Protocol.Registries
import VoxelServer.Proofs.Wire.Reads

/-!
# The messages that are read

A message is of the type it is read as, and a text in it has no more characters than bytes:

* `Utf8.length_le_of_decode`, `yields_textUpTo`: texts are as short as their bytes;
* `MessageType.yields_body`: what the body of a type reads.
-/

namespace VoxelServer

/-! ## Texts -/

/-- Every character takes a byte at least. -/
theorem Utf8.length_le_of_decodeFrom {i : Nat} {bytes : Bytes} {chars : List Char}
    (read : decodeFrom i bytes = .ok chars) : chars.length ≤ bytes.length := by
  fun_induction decodeFrom i bytes generalizing chars with
  | case1 =>
    cases read
    exact Nat.le_refl _
  | case2 | case4 | case5 | case7 | case8 | case10 | case11 => cases read
  | case3 | case6 | case9 | case12 =>
    rename_i ih
    obtain ⟨others, rest, rfl⟩ := exists_of_map_ok read
    have shorter := ih rest
    simp only [List.length_cons]
    omega

theorem Utf8.length_le_of_decode {bytes : Bytes} {text : String}
    (read : decode bytes = .ok text) : text.length ≤ bytes.length := by
  obtain ⟨chars, from0, rfl⟩ := exists_of_map_ok read
  rw [String.length_ofList]
  exact length_le_of_decodeFrom from0

theorem yields_take (n : Nat) : (take n).Yields fun bytes => bytes.length = n := by
  intro input bytes rest taken
  unfold take at taken
  dsimp only at taken
  split at taken
  · cases taken
    assumption
  · cases taken

theorem yields_bytesUpTo (max : Nat) : (bytesUpTo max).Yields fun bytes => bytes.length ≤ max := by
  refine .bind (.trivially _) fun length _ => ?_
  dsimp only
  split
  · exact .throw _
  split
  · exact .throw _
  · rename_i fits
    intro input bytes rest taken
    have all := yields_take _ input bytes rest taken
    omega

theorem yields_textUpTo (max : Nat) : (textUpTo max).Yields fun text => text.length ≤ max := by
  refine .bind (yields_bytesUpTo max) fun bytes fits => ?_
  split
  · rename_i text read
    exact .pure (Nat.le_trans (Utf8.length_le_of_decode read) fits)
  · exact .throw _

/-! ## Messages -/

namespace MessageType

/-- A login names a player by few characters. -/
theorem yields_loginStart :
    loginStart.body.Yields fun m => ∃ name, m = .loginStart name ∧ name.length ≤ maxNameLength :=
  .bind (yields_textUpTo maxNameLength) fun name fits => .pure ⟨name, rfl, fits⟩

/-- What is read as a message of some type is one. -/
theorem yields_body (type : MessageType) : type.body.Yields fun m => m.type = type := by
  cases type with
  | statusRequest => exact .pure rfl
  | channelPayload =>
    refine .bind (.trivially _) fun channel _ => .bind (.trivially _) fun data _ => ?_
    split
    · exact .throw _
    · exact .pure rfl
  | _ =>
    first
    | exact .throw _
    | repeat refine .bind (.trivially _) fun _ _ => ?_
      exact .pure rfl

end MessageType

end VoxelServer
