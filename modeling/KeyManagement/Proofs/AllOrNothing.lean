import KeyManagement.Proofs.Outcome

/-! # All or nothing

A computation may have changed its state before it fails. It does all of its work or nothing
if all that comes before its only change leaves the state alone, and nothing that comes after
can fail.
-/

namespace KeyManagement

variable {σ τ ε ε' α β : Type}

/-- Whatever the computation comes to, the part of the state in view stays what it was. -/
def Keeps (view : σ → τ) (x : EStateM ε σ α) : Prop := ∀ w, view (finalState (x w)) = view w

/-- If the computation fails, the part of the state in view stays what it was. -/
def AllOrNothing (view : σ → τ) (x : EStateM ε σ α) : Prop :=
  ∀ w e w', x w = .error e w' → view w' = view w

variable {view : σ → τ} {x : EStateM ε σ α} {f : α → EStateM ε σ β}

namespace Keeps

theorem pure (a : α) : Keeps view (Pure.pure a : EStateM ε σ α) := fun _ => rfl

theorem throw (e : ε) : Keeps view (MonadExcept.throw e : EStateM ε σ α) := fun _ => rfl

theorem get : Keeps view (MonadState.get : EStateM ε σ σ) := fun _ => rfl

theorem ofResultAs (g : ε → ε') (r : Except ε α) :
    Keeps view (ofResultAs g r : EStateM ε' σ α) := by
  cases r with
  | ok a => exact pure a
  | error e => exact throw (g e)

theorem bind (hx : Keeps view x) (hf : ∀ a, Keeps view (f a)) : Keeps view (x >>= f) := by
  intro w
  have hw := hx w
  cases h : x w with
  | ok a v =>
    rw [h, finalState] at hw
    rw [bind_eq_of_ok h, hf a v, hw]
  | error e v =>
    rw [h, finalState] at hw
    rw [bind_eq_of_error h, finalState, hw]

theorem map (hx : Keeps view x) (g : α → β) : Keeps view (g <$> x) := by
  rw [map_eq_pure_bind]
  exact hx.bind fun a => pure (g a)

theorem discard (hx : Keeps view x) : Keeps view (discard x) := hx.map _

theorem of_ok (hx : Keeps view x) {w w' : σ} {a : α} (h : x w = .ok a w') : view w' = view w := by
  have hw := hx w
  rwa [h] at hw

theorem allOrNothing (hx : Keeps view x) : AllOrNothing view x := by
  intro w e w' h
  have hw := hx w
  rwa [h] at hw

end Keeps

namespace AllOrNothing

theorem bind (hx : Keeps view x) (hf : ∀ a, AllOrNothing view (f a)) :
    AllOrNothing view (x >>= f) := by
  intro w e w' h
  rcases bind_eq_error_iff.mp h with h | ⟨a, v, h, hv⟩
  · exact hx.allOrNothing w e w' h
  · rw [hf a v e w' hv, hx.of_ok h]

theorem bind_pure (hx : AllOrNothing view x) (g : α → β) :
    AllOrNothing view (do let a ← x; return g a) := by
  intro w e w' h
  rcases bind_eq_error_iff.mp h with h | ⟨a, v, -, hv⟩
  · exact hx w e w' h
  · exact absurd hv pure_ne_error

theorem map (hx : AllOrNothing view x) (g : α → β) : AllOrNothing view (g <$> x) :=
  fun w e w' h => hx w e w' (map_eq_error_iff.mp h)

theorem discard (hx : AllOrNothing view x) : AllOrNothing view (discard x) := hx.map _

theorem modify (g : σ → σ) : AllOrNothing view (modify g : EStateM ε σ PUnit) :=
  fun _ _ _ h => absurd h modify_ne_error

end AllOrNothing

end KeyManagement
