import VoxelServer.Wire.Error

/-!
# Computations that may fail

Results and failures through sequences and loops, for computations without a state (`Except`) and
for programs that keep what they have done before they fail (`ExceptT` over a state).
-/

namespace VoxelServer

theorem exists_of_bind_ok {α β ε : Type} {x : Except ε α} {f : α → Except ε β} {b : β}
    (h : (x >>= f) = .ok b) : ∃ a, x = .ok a ∧ f a = .ok b := by
  cases x with
  | error e => cases h
  | ok a => exact ⟨a, rfl, h⟩

/-- A result of two readers, each of which goes on where the one before it has stopped. -/
theorem exists_of_run_bind_ok {σ α β ε : Type} {x : StateT σ (Except ε) α}
    {f : α → StateT σ (Except ε) β} {s t : σ} {b : β} (h : (x >>= f) s = .ok (b, t)) :
    ∃ a u, x s = .ok (a, u) ∧ f a u = .ok (b, t) := by
  obtain ⟨⟨a, u⟩, first, second⟩ := exists_of_bind_ok h
  exact ⟨a, u, first, second⟩

theorem exists_of_map_ok {α β ε : Type} {f : α → β} {x : Except ε α} {b : β}
    (h : f <$> x = .ok b) : ∃ a, x = .ok a ∧ f a = b := by
  cases x with
  | error e => cases h
  | ok a => exact ⟨a, rfl, Except.ok.inj h⟩

theorem error_of_map_error {α β ε : Type} {f : α → β} {x : Except ε α} {e : ε}
    (h : f <$> x = .error e) : x = .error e := by
  cases x with
  | error e' => exact congrArg _ (Except.error.inj h)
  | ok a => cases h

/-- Every result of a list of computations comes from one of them. -/
theorem mem_of_mapM_ok {α β ε : Type} {f : α → Except ε β} {xs : List α} {ys : List β}
    (h : xs.mapM f = .ok ys) {y : β} (hy : y ∈ ys) : ∃ x ∈ xs, f x = .ok y := by
  induction xs generalizing ys with
  | nil =>
    cases h
    cases hy
  | cons x xs ih =>
    rw [List.mapM_cons] at h
    obtain ⟨b, hx, h⟩ := exists_of_bind_ok h
    obtain ⟨bs, hxs, h⟩ := exists_of_bind_ok h
    cases h
    obtain rfl | hy := List.mem_cons.mp hy
    · exact ⟨x, List.mem_cons_self, hx⟩
    · obtain ⟨a, ha, hfa⟩ := ih hxs hy
      exact ⟨a, List.mem_cons_of_mem _ ha, hfa⟩

/-- Two computations that agree on a list agree on all of it. -/
theorem mapM_congr_of_mem {α β ε : Type} {f g : α → Except ε β} {xs : List α}
    (same : ∀ x ∈ xs, f x = g x) : xs.mapM f = xs.mapM g := by
  induction xs with
  | nil => rfl
  | cons x xs ih =>
    rw [List.mapM_cons, List.mapM_cons, same x List.mem_cons_self,
      ih fun y hy => same y (List.mem_cons_of_mem _ hy)]

/-- Programs one after the other. What the first one has done to the state stays done, and the
second one runs only where the first one succeeds. -/
theorem run_bind_state {ε σ α β : Type} (x : ExceptT ε (StateM σ) α)
    (f : α → ExceptT ε (StateM σ) β) (s : σ) :
    (x >>= f) s =
      match x s with
      | (.ok a, t) => f a t
      | (.error e, t) => (.error e, t) := by
  show (ExceptT.bind x f) s = _
  simp only [ExceptT.bind, ExceptT.mk, bind, StateT.bind]
  cases x s with
  | mk result t => cases result <;> rfl

/-- Programs of the server that work on a buffer, a list or a session. What one has done before it
fails stays done. -/
abbrev StepM (σ : Type) := ExceptT CodecError (StateM σ)

namespace StepM

variable {σ α : Type}

theorem run_get (s : σ) : (get : StepM σ σ) s = (.ok s, s) := rfl

theorem run_modify (f : σ → σ) (s : σ) : (modify f : StepM σ Unit) s = (.ok (), f s) := rfl

theorem run_ofExcept (x : Except CodecError α) (s : σ) :
    (MonadExcept.ofExcept x : StepM σ α) s = (x, s) := by
  cases x <;> rfl

end StepM

/-- Computations that fail with the same error, or else have results that are related. -/
inductive SameOutcome {E A B : Type} (R : A → B → Prop) : Except E A → Except E B → Prop
  | error (e : E) : SameOutcome R (.error e) (.error e)
  | ok {a : A} {b : B} : R a b → SameOutcome R (.ok a) (.ok b)

theorem SameOutcome.mono {E A B : Type} {R S : A → B → Prop} {x : Except E A} {y : Except E B}
    (h : SameOutcome R x y) (weaker : ∀ {a b}, R a b → S a b) : SameOutcome S x y := by
  cases h with
  | error e => exact .error e
  | ok related => exact .ok (weaker related)

theorem SameOutcome.symm {E A B : Type} {R : A → B → Prop} {S : B → A → Prop} {x : Except E A}
    {y : Except E B} (h : SameOutcome R x y) (back : ∀ {a b}, R a b → S b a) :
    SameOutcome S y x := by
  cases h with
  | error e => exact .error e
  | ok related => exact .ok (back related)

theorem SameOutcome.trans {E A B C : Type} {R : A → B → Prop} {S : B → C → Prop} {Q : A → C → Prop}
    {x : Except E A} {y : Except E B} {z : Except E C} (h : SameOutcome R x y)
    (h' : SameOutcome S y z) (joined : ∀ {a b c}, R a b → S b c → Q a c) : SameOutcome Q x z := by
  cases h with
  | error e =>
    cases h'
    exact .error e
  | ok related =>
    cases h' with
    | ok related' => exact .ok (joined related related')

/-- Related steps keep what they start from related, up to the first one that fails. -/
theorem SameOutcome.foldlM {E A B S : Type} {R : A → B → Prop} {f : A → S → Except E A}
    {g : B → S → Except E B} (step : ∀ {a b} s, R a b → SameOutcome R (f a s) (g b s)) {a : A}
    {b : B} (related : R a b) (steps : List S) :
    SameOutcome R (steps.foldlM f a) (steps.foldlM g b) := by
  induction steps generalizing a b with
  | nil => exact .ok related
  | cons s steps ih =>
    rw [List.foldlM_cons, List.foldlM_cons]
    have next := step s related
    generalize f a s = x, g b s = y at next
    cases next with
    | error e => exact .error e
    | ok related => exact ih related

end VoxelServer
