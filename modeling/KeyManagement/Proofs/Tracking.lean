import KeyManagement.Proofs.Outcome

/-! # Computations that track each other

A computation tracks another one if, from related states, both come to related values and
related states, or fail with the same error. Only where the first one is interrupted nothing is
said about the second. Composed computations track composed ones.
-/

namespace KeyManagement

variable {σ τ υ ε ε' α β γ δ : Type}

/-- Outcomes that are the same up to a relation `R` of the states and a relation `Q` of the
values, unless the first one is one of the interruptions `I`. -/
inductive Matches (R : σ → τ → Prop) (I : ε → Prop) (Q : α → β → Prop) :
    EStateM.Result ε σ α → EStateM.Result ε τ β → Prop
  | ok {a : α} {b : β} {w : σ} {v : τ} (hw : R w v) (h : Q a b) :
      Matches R I Q (.ok a w) (.ok b v)
  | error (e : ε) {w : σ} {v : τ} (hw : R w v) : Matches R I Q (.error e w) (.error e v)
  | interrupted {e : ε} (hi : I e) (w : σ) (y : EStateM.Result ε τ β) :
      Matches R I Q (.error e w) y

/-- The failures with one of the errors `I`. -/
def Stop.FailsWith (I : ε → Prop) : Stop ε → Prop
  | .failed e => I e
  | .overflow => False

theorem Stop.not_failsWith (e : Stop ε) : ¬ e.FailsWith fun _ => False := by
  cases e with
  | failed _ => exact id
  | overflow => exact id

def Tracks (R : σ → τ → Prop) (I : ε → Prop) (Q : α → β → Prop)
    (x : EStateM ε σ α) (y : EStateM ε τ β) : Prop :=
  ∀ w v, R w v → Matches R I Q (x w) (y v)

/-- Whatever the two computations come to, related states lead to related states. -/
def KeepsTogether (R : σ → τ → Prop) (x : EStateM ε σ α) (y : EStateM ε' τ β) : Prop :=
  ∀ w v, R w v → R (finalState (x w)) (finalState (y v))

variable {R : σ → τ → Prop} {I : ε → Prop} {P Q : α → β → Prop} {Q' : γ → δ → Prop}

namespace Matches

variable {x : EStateM.Result ε σ α} {y : EStateM.Result ε τ β}

theorem of_ok {a : α} {w : σ} (h : Matches R I Q (.ok a w) y) :
    ∃ b v, y = .ok b v ∧ R w v ∧ Q a b := by
  cases h with
  | ok hw h => exact ⟨_, _, rfl, hw, h⟩

theorem exists_of_ok {b : β} {v : τ} (h : Matches R I Q x (.ok b v)) (hI : ∀ e, ¬ I e) :
    ∃ a w, x = .ok a w ∧ R w v ∧ Q a b := by
  cases h with
  | ok hw h => exact ⟨_, _, rfl, hw, h⟩
  | interrupted hi _ => exact absurd hi (hI _)

theorem ending_eq (h : Matches R I Q x y) (hI : ∀ e, ¬ I e) {f : σ → υ} {g : τ → υ}
    (hfg : ∀ w v, R w v → f w = g v) : ending f x = ending g y := by
  cases h with
  | ok hw _ => rw [ending, ending, hfg _ _ hw]
  | error e hw => rw [ending, ending, hfg _ _ hw]
  | interrupted hi _ _ => exact absurd hi (hI _)

theorem finalState (h : Matches R I Q x y) (hI : ∀ e, ¬ I e) :
    R (finalState x) (finalState y) := by
  cases h with
  | ok hw _ => exact hw
  | error _ hw => exact hw
  | interrupted hi _ _ => exact absurd hi (hI _)

theorem mono (h : Matches R I P x y) (hQ : ∀ a b, P a b → Q a b) : Matches R I Q x y := by
  cases h with
  | ok hw h => exact .ok hw (hQ _ _ h)
  | error e hw => exact .error e hw
  | interrupted hi w y => exact .interrupted hi w y

theorem mono_state {R' : σ → τ → Prop} (h : Matches R I Q x y) (hR : ∀ w v, R w v → R' w v) :
    Matches R' I Q x y := by
  cases h with
  | ok hw h => exact .ok (hR _ _ hw) h
  | error e hw => exact .error e (hR _ _ hw)
  | interrupted hi w y => exact .interrupted hi w y

end Matches

namespace Tracks

variable {x : EStateM ε σ α} {y : EStateM ε τ β}

theorem mono (h : Tracks R I P x y) (hQ : ∀ a b, P a b → Q a b) : Tracks R I Q x y :=
  fun w v hw => (h w v hw).mono hQ

theorem pure {a : α} {b : β} (h : Q a b) : Tracks R I Q (Pure.pure a) (Pure.pure b) :=
  fun _ _ hw => .ok hw h

theorem throw (e : ε) : Tracks R I Q (MonadExcept.throw e) (MonadExcept.throw e) :=
  fun _ _ hw => .error e hw

theorem get : Tracks R I R (MonadState.get : EStateM ε σ σ) (MonadState.get : EStateM ε τ τ) :=
  fun _ _ hw => .ok hw hw

theorem bind {f : α → EStateM ε σ γ} {g : β → EStateM ε τ δ} (h : Tracks R I Q x y)
    (hf : ∀ a b, Q a b → Tracks R I Q' (f a) (g b)) :
    Tracks R I Q' (x >>= f) (y >>= g) := by
  intro w v hw
  have hm := h w v hw
  generalize hx : x w = r, hy : y v = r' at hm
  cases hm with
  | ok hw' hab =>
    rw [bind_eq_of_ok hx, bind_eq_of_ok hy]
    exact hf _ _ hab _ _ hw'
  | error e hw' =>
    rw [bind_eq_of_error hx, bind_eq_of_error hy]
    exact .error e hw'
  | interrupted hi w' _ =>
    rw [bind_eq_of_error hx]
    exact .interrupted hi w' _

theorem map {f : α → γ} {g : β → δ} (h : Tracks R I Q x y)
    (hf : ∀ a b, Q a b → Q' (f a) (g b)) : Tracks R I Q' (f <$> x) (g <$> y) := by
  rw [map_eq_pure_bind, map_eq_pure_bind]
  exact h.bind fun a b hab => pure (hf a b hab)

theorem discard (h : Tracks R I Q x y) :
    Tracks R I (fun _ _ => True) (Functor.discard x) (Functor.discard y) :=
  h.map fun _ _ _ => trivial

theorem ofResult_same (r : Except ε α) :
    Tracks R I Eq (KeyManagement.ofResult r) (KeyManagement.ofResult r) := by
  cases r with
  | ok a => exact pure rfl
  | error e => exact throw e

theorem ofResultAs_eq {r : Except ε' α} {r' : Except ε' β} {f : α → β} (h : r' = r.map f)
    (g : ε' → ε) : Tracks R I (fun a b => r = .ok a ∧ b = f a) (KeyManagement.ofResultAs g r)
      (KeyManagement.ofResultAs g r') := by
  subst h
  cases r with
  | ok a => exact pure ⟨rfl, rfl⟩
  | error e => exact throw (g e)

theorem adaptExcept {J : ε' → Prop} {f : ε → ε'} (h : Tracks R I Q x y)
    (hf : ∀ e, I e → J (f e)) : Tracks R J Q (x.adaptExcept f) (y.adaptExcept f) := by
  intro w v hw
  have hm := h w v hw
  unfold EStateM.adaptExcept
  generalize x w = r, y v = r' at hm
  cases hm with
  | ok hw' hab => exact .ok hw' hab
  | error e hw' => exact .error (f e) hw'
  | interrupted hi w' _ => exact .interrupted (hf _ hi) w' _

theorem bind_keepsTogether {f : α → EStateM ε σ γ} {g : β → EStateM ε τ δ}
    (h : Tracks R I Q x y) (hI : ∀ e, ¬ I e)
    (hf : ∀ a b, Q a b → KeepsTogether R (f a) (g b)) :
    KeepsTogether R (x >>= f) (y >>= g) := by
  intro w v hw
  have hm := h w v hw
  generalize hx : x w = r, hy : y v = r' at hm
  cases hm with
  | ok hw' hab =>
    rw [bind_eq_of_ok hx, bind_eq_of_ok hy]
    exact hf _ _ hab _ _ hw'
  | error e hw' =>
    rw [bind_eq_of_error hx, bind_eq_of_error hy]
    exact hw'
  | interrupted hi _ _ => exact absurd hi (hI _)

end Tracks

namespace KeepsTogether

variable {x : EStateM ε σ α} {y : EStateM ε' τ β}

theorem ofResult (r : Except ε α) (r' : Except ε' β) :
    KeepsTogether R (KeyManagement.ofResult r) (KeyManagement.ofResult r') := by
  intro w v hw
  cases r <;> cases r' <;> exact hw

theorem map (h : KeepsTogether R x y) (f : α → γ) (g : β → δ) :
    KeepsTogether R (f <$> x) (g <$> y) := by
  intro w v hw
  have hm := h w v hw
  change R (finalState (EStateM.map f x w)) (finalState (EStateM.map g y v))
  unfold EStateM.map
  generalize x w = r, y v = r' at hm ⊢
  cases r <;> cases r' <;> exact hm

end KeepsTogether

end KeyManagement
