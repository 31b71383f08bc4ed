import VoxelServer.Wire.Number

/-!
# Decoders that stop where their value ends

Bytes that arrive later must not change what was made of the earlier ones. The law is
`Decoder.SelfDelimiting`:

* it is kept by the ways in which decoders are put together, down to `take`;
* `Decoder.SelfDelimiting.incomplete`: a decoder that keeps it refuses any part of a value, and
  always for want of bytes.
-/

namespace VoxelServer

namespace Decoder.SelfDelimiting

variable {α β : Type} {d : Decoder α} {f : α → Decoder β}

theorem pure (a : α) : Decoder.SelfDelimiting (Pure.pure a) where
  ok {input v rest} given := by
    cases given
    exact ⟨List.suffix_refl _, fun _ => rfl⟩
  error {input e} refused := by cases refused

theorem throw (e : CodecError) : Decoder.SelfDelimiting (MonadExcept.throw e : Decoder α) where
  ok {input v rest} given := by cases given
  error {input e'} refused _ _ := by
    cases refused
    rfl

theorem take (n : Nat) : (take n).SelfDelimiting where
  ok {input v rest} given := by
    simp only [VoxelServer.take] at given ⊢
    split at given
    · rename_i whole
      cases given
      have enough : n ≤ input.length := by
        rw [List.length_take] at whole
        omega
      refine ⟨List.drop_suffix n input, fun more => ?_⟩
      rw [List.take_append_of_le_length enough, List.drop_append_of_le_length enough, if_pos whole]
    · cases given
  error {input e} refused final := by
    simp only [VoxelServer.take] at refused
    split at refused
    · cases refused
    · cases refused
      cases final

/-- What comes after a value is read from where the value ends. -/
theorem bind (hd : d.SelfDelimiting) (hf : ∀ a, (f a).SelfDelimiting) :
    Decoder.SelfDelimiting (d >>= f) where
  ok {input v rest} given := by
    simp only [Bind.bind, StateT.bind, Except.bind] at given ⊢
    cases first : d input with
    | error e => simp [first] at given
    | ok r =>
      rw [first] at given
      obtain ⟨suffix, same⟩ := hd.ok first
      obtain ⟨suffix', same'⟩ := (hf r.1).ok given
      refine ⟨suffix'.trans suffix, fun more => ?_⟩
      rw [same more]
      exact same' more
  error {input e} refused final more := by
    simp only [Bind.bind, StateT.bind, Except.bind] at refused ⊢
    cases first : d input with
    | error e' =>
      rw [first] at refused
      cases refused
      rw [hd.error first final more]
    | ok r =>
      rw [first] at refused
      rw [(hd.ok first).2 more]
      exact (hf r.1).error refused final more

theorem map (hd : d.SelfDelimiting) (g : α → β) : Decoder.SelfDelimiting (g <$> d) :=
  hd.bind fun a => .pure (g a)

theorem discard (hd : d.SelfDelimiting) : Decoder.SelfDelimiting (Functor.discard d) :=
  hd.map fun _ => ()

theorem ofWord {width : Nat} {toNat : α → Nat} {ofNat : Nat → α} :
    (Wire.ofWord width toNat ofNat).decode.SelfDelimiting :=
  (SelfDelimiting.take width).bind fun _ => .pure _

/-- A part of a value is refused, always for want of bytes. -/
theorem incomplete (hd : d.SelfDelimiting) {part missing rest : Bytes} {a : α}
    (whole : d (part ++ missing ++ rest) = .ok (a, rest)) (short : missing ≠ []) :
    ∃ needed available, d part = .error (.truncated needed available) := by
  rw [List.append_assoc] at whole
  cases result : d part with
  | ok r =>
    have left := (hd.ok result).2 (missing ++ rest)
    rw [whole, Except.ok.injEq, Prod.mk.injEq] at left
    have lengths := congrArg List.length left.2
    simp only [List.length_append] at lengths
    exact absurd (List.length_eq_zero_iff.mp (by omega)) short
  | error e =>
    by_cases final : e.isIncomplete = false
    · rw [hd.error result final (missing ++ rest)] at whole
      cases whole
    · cases e with
      | truncated needed available => exact ⟨needed, available, rfl⟩
      | _ => exact absurd rfl final

end Decoder.SelfDelimiting

end VoxelServer
