import KeyManagement.Outcome

/-! # Outcomes of composed steps

A composed step succeeds when each of its steps does, and fails where the first of them
fails. These equivalences open a computation without unfolding it.
-/

namespace KeyManagement

variable {ε ε' σ τ α β γ : Type} {w w' : σ}

/-- The state that an outcome leaves. -/
def finalState : EStateM.Result ε σ α → σ
  | .ok _ w => w
  | .error _ w => w

/-- The value or the error of an outcome. -/
def answerOf : EStateM.Result ε σ α → Except ε α
  | .ok a _ => .ok a
  | .error e _ => .error e

theorem exists_of_answerOf {x : EStateM.Result ε σ α} {a : α} (h : answerOf x = .ok a) :
    ∃ w, x = .ok a w := by
  cases x with
  | ok b w =>
    cases h
    exact ⟨w, rfl⟩
  | error e w => contradiction

/-- The error of an outcome, if there is one, and a view of the state that it leaves. -/
def ending (view : σ → τ) : EStateM.Result ε σ α → Option ε × τ
  | .ok _ w => (none, view w)
  | .error e w => (some e, view w)

@[simp] theorem mapError_ok (f : ε → ε') (a : α) :
    (Except.ok a : Except ε α).mapError f = .ok a := rfl

@[simp] theorem mapError_error (f : ε → ε') (e : ε) :
    (Except.error e : Except ε α).mapError f = .error (f e) := rfl

section Results

variable {r : Except ε α} {f : α → Except ε β} {e : ε} {a : α} {b : β}

theorem result_bind_eq_ok_iff : r >>= f = .ok b ↔ ∃ a, r = .ok a ∧ f a = .ok b := by
  cases r <;> simp [bind, Except.bind]

theorem result_bind_of_ok (h : r = .ok a) (hf : f a = .ok b) : r >>= f = .ok b :=
  result_bind_eq_ok_iff.mpr ⟨a, h, hf⟩

theorem result_bind_eq_error_iff :
    r >>= f = .error e ↔ r = .error e ∨ ∃ a, r = .ok a ∧ f a = .error e := by
  cases r <;> simp [bind, Except.bind]

theorem discard_result_eq_ok_iff {u : PUnit} : discard r = .ok u ↔ ∃ a, r = .ok a := by
  cases r <;> simp [discard, Functor.mapConst, Except.map]

theorem discard_result_eq_error_iff : discard r = .error e ↔ r = .error e := by
  cases r <;> simp [discard, Functor.mapConst, Except.map]

theorem mapError_eq_ok_iff {g : ε → ε'} : r.mapError g = .ok a ↔ r = .ok a := by
  cases r <;> simp

theorem mapError_eq_error_iff {g : ε → ε'} {e : ε'} :
    r.mapError g = .error e ↔ ∃ e', r = .error e' ∧ g e' = e := by
  cases r <;> simp

theorem map_result_eq_ok_iff {g : α → β} : Except.map g r = .ok b ↔ ∃ a, r = .ok a ∧ g a = b := by
  cases r <;> simp [Except.map]

theorem map_result_eq_error_iff {g : α → β} : Except.map g r = .error e ↔ r = .error e := by
  cases r <;> simp [Except.map]

end Results

section Success

@[simp] theorem bind_eq_ok_iff {x : EStateM ε σ α} {f : α → EStateM ε σ β} {b : β} :
    (x >>= f) w = .ok b w' ↔ ∃ a v, x w = .ok a v ∧ f a v = .ok b w' := by
  change EStateM.bind x f w = _ ↔ _
  unfold EStateM.bind
  cases hx : x w with
  | ok a v =>
    constructor
    · exact fun h => ⟨a, v, rfl, h⟩
    · rintro ⟨_, _, ⟨⟩, h⟩
      exact h
  | error e v => simp

theorem bind_eq_of_ok {x : EStateM ε σ α} {f : α → EStateM ε σ β} {a : α} {v : σ}
    (h : x w = .ok a v) : (x >>= f) w = f a v := by
  change EStateM.bind x f w = _
  rw [EStateM.bind, h]

@[simp] theorem map_eq_ok_iff {x : EStateM ε σ α} {f : α → β} {b : β} :
    (f <$> x) w = .ok b w' ↔ ∃ a, x w = .ok a w' ∧ f a = b := by
  change EStateM.map f x w = _ ↔ _
  unfold EStateM.map
  cases hx : x w with
  | ok a v =>
    constructor
    · rintro ⟨⟩
      exact ⟨a, rfl, rfl⟩
    · rintro ⟨_, ⟨⟩, rfl⟩
      rfl
  | error e v => simp

@[simp] theorem discard_eq_ok_iff {x : EStateM ε σ α} {u : PUnit} :
    (discard x) w = .ok u w' ↔ ∃ a, x w = .ok a w' := by
  change (Functor.map (Function.const α PUnit.unit) x) w = _ ↔ _
  rw [map_eq_ok_iff]
  simp

theorem discard_bind {x : EStateM ε σ α} {f : PUnit → EStateM ε σ β} :
    (discard x >>= f) = x >>= fun _ => f ⟨⟩ :=
  bind_map_left _ x f

@[simp] theorem pure_eq_ok_iff {a b : α} :
    (pure a : EStateM ε σ α) w = .ok b w' ↔ a = b ∧ w = w' := by
  change EStateM.Result.ok a w = _ ↔ _
  simp

@[simp] theorem get_eq_ok_iff {v : σ} : (get : EStateM ε σ σ) w = .ok v w' ↔ w = v ∧ w = w' := by
  change EStateM.Result.ok w w = _ ↔ _
  simp

@[simp] theorem modify_eq_ok_iff {f : σ → σ} {u : PUnit} :
    (modify f : EStateM ε σ PUnit) w = .ok u w' ↔ w' = f w := by
  change EStateM.Result.ok _ (f w) = _ ↔ _
  simp [eq_comm]

@[simp] theorem throw_ne_ok {e : ε} {a : α} : ¬ (throw e : EStateM ε σ α) w = .ok a w' := by
  change ¬ EStateM.Result.error e w = _
  simp

@[simp] theorem ofResult_eq_ok_iff {r : Except ε α} {a : α} :
    (ofResult r : EStateM ε σ α) w = .ok a w' ↔ r = .ok a ∧ w = w' := by
  cases r <;> simp

@[simp] theorem ofResultAs_eq_ok_iff {f : ε → ε'} {r : Except ε α} {a : α} :
    (ofResultAs f r : EStateM ε' σ α) w = .ok a w' ↔ r = .ok a ∧ w = w' := by
  cases r <;> simp [ofResultAs]

@[simp] theorem adaptExcept_eq_ok_iff {f : ε → ε'} {x : EStateM ε σ α} {a : α} :
    (x.adaptExcept f) w = .ok a w' ↔ x w = .ok a w' := by
  unfold EStateM.adaptExcept
  cases x w <;> simp

theorem bind_congr_of_ok {x : EStateM ε σ α} {f g : α → EStateM ε σ β}
    (h : ∀ a v, x w = .ok a v → f a v = g a v) : (x >>= f) w = (x >>= g) w := by
  change EStateM.bind x f w = EStateM.bind x g w
  unfold EStateM.bind
  cases hx : x w with
  | ok a v => exact h a v hx
  | error e v => rfl

theorem map_congr_of_eq {x y : EStateM ε σ α} (h : x w = y w) (f : α → β) :
    (f <$> x) w = (f <$> y) w := by
  change EStateM.map f x w = EStateM.map f y w
  rw [EStateM.map, EStateM.map, h]

end Success

section Failure

@[simp] theorem bind_eq_error_iff {x : EStateM ε σ α} {f : α → EStateM ε σ β} {e : ε} :
    (x >>= f) w = .error e w' ↔
      x w = .error e w' ∨ ∃ a v, x w = .ok a v ∧ f a v = .error e w' := by
  change EStateM.bind x f w = _ ↔ _
  unfold EStateM.bind
  cases hx : x w with
  | ok a v =>
    constructor
    · exact fun h => .inr ⟨a, v, rfl, h⟩
    · rintro (⟨⟨⟩⟩ | ⟨_, _, ⟨⟩, h⟩)
      exact h
  | error e v => simp

theorem bind_eq_error_of_ok {x : EStateM ε σ α} {f : α → EStateM ε σ β} {a : α} {v : σ} {e : ε}
    (hx : x w = .ok a v) (hf : f a v = .error e w') : (x >>= f) w = .error e w' :=
  (bind_eq_of_ok hx).trans hf

@[simp] theorem map_eq_error_iff {x : EStateM ε σ α} {f : α → β} {e : ε} :
    (f <$> x) w = .error e w' ↔ x w = .error e w' := by
  change EStateM.map f x w = _ ↔ _
  unfold EStateM.map
  cases x w <;> simp

@[simp] theorem discard_eq_error_iff {x : EStateM ε σ α} {e : ε} :
    (discard x) w = .error e w' ↔ x w = .error e w' :=
  map_eq_error_iff

@[simp] theorem pure_ne_error {a : α} {e : ε} : ¬ (pure a : EStateM ε σ α) w = .error e w' := by
  change ¬ EStateM.Result.ok a w = _
  simp

@[simp] theorem get_ne_error {e : ε} : ¬ (get : EStateM ε σ σ) w = .error e w' := by
  change ¬ EStateM.Result.ok w w = _
  simp

@[simp] theorem modify_ne_error {f : σ → σ} {e : ε} :
    ¬ (modify f : EStateM ε σ PUnit) w = .error e w' := by
  change ¬ EStateM.Result.ok _ (f w) = _
  simp

@[simp] theorem throw_eq_error_iff {e e' : ε} :
    (throw e : EStateM ε σ α) w = .error e' w' ↔ e = e' ∧ w = w' := by
  change EStateM.Result.error e w = _ ↔ _
  simp

@[simp] theorem ofResultAs_eq_error_iff {f : ε → ε'} {r : Except ε α} {e : ε'} :
    (ofResultAs f r : EStateM ε' σ α) w = .error e w' ↔
      (∃ e', r = .error e' ∧ f e' = e) ∧ w = w' := by
  cases r <;> simp [ofResultAs]

@[simp] theorem adaptExcept_eq_error_iff {f : ε → ε'} {x : EStateM ε σ α} {e : ε'} :
    (x.adaptExcept f) w = .error e w' ↔ ∃ e', x w = .error e' w' ∧ f e' = e := by
  unfold EStateM.adaptExcept
  cases hx : x w with
  | ok a v => simp
  | error e' v =>
    constructor
    · rintro ⟨⟩
      exact ⟨e', rfl, rfl⟩
    · rintro ⟨_, ⟨⟩, rfl⟩
      rfl

end Failure

@[simp] theorem map_stop_eq_failed_iff {f : ε → ε'} {e : Stop ε} {e' : ε'} :
    e.map f = .failed e' ↔ ∃ e₀, e = .failed e₀ ∧ f e₀ = e' := by
  cases e <;> simp [Stop.map]

section Endings

variable {x : EStateM ε σ α} {y : EStateM ε σ β} {f : α → EStateM ε σ γ}

theorem bind_eq_of_error {e : ε} {v : σ} (h : x w = .error e v) :
    (x >>= f) w = .error e v := by
  change EStateM.bind x f w = _
  rw [EStateM.bind, h]

theorem ending_eq_none_iff : ending id (x w) = (none, w') ↔ ∃ a, x w = .ok a w' := by
  cases x w <;> simp [ending]

theorem ending_eq_some_iff {e : ε} : ending id (x w) = (some e, w') ↔ x w = .error e w' := by
  cases x w <;> simp [ending]

/-- Steps that end alike, and are followed by steps that end alike whatever value they are
given, make up steps that end alike. -/
theorem ending_bind {g : β → EStateM ε σ γ} (h : ending id (x w) = ending id (y w'))
    (hf : ∀ a b v, ending id (f a v) = ending id (g b v)) :
    ending id ((x >>= f) w) = ending id ((y >>= g) w') := by
  cases hx : x w with
  | ok a v =>
    obtain ⟨b, hy⟩ := ending_eq_none_iff.mp ((h.symm.trans (congrArg (ending id) hx)))
    rw [bind_eq_of_ok hx, bind_eq_of_ok hy]
    exact hf a b v
  | error e v =>
    have hy := ending_eq_some_iff.mp (h.symm.trans (congrArg (ending id) hx))
    rw [bind_eq_of_error hx, bind_eq_of_error hy]
    rfl

theorem ending_bind_congr {g : α → EStateM ε σ γ}
    (hf : ∀ a v, ending id (f a v) = ending id (g a v)) :
    ending id ((x >>= f) w) = ending id ((x >>= g) w) := by
  cases hx : x w with
  | ok a v =>
    rw [bind_eq_of_ok hx, bind_eq_of_ok hx]
    exact hf a v
  | error e v => rw [bind_eq_of_error hx, bind_eq_of_error hx]

end Endings

end KeyManagement
