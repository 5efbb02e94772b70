import KeyManagement.Proofs.Seed.Stage
import KeyManagement.Proofs.Service.Write

/-! # What seeding writes

A seeding is made of operations, so that it changes the store by the same writes, and this
also if it stops half-way.
-/

namespace KeyManagement.Seed

variable {σ α β : Type} {env : Environment σ} {ctx : Context}

/-- A step of a seeding that changes the store by the writes of operations only. -/
def Step.Writes (env : Environment σ) (x : Step Store σ α) : Prop :=
  ∀ st, Relation.ReflTransGen (Store.Writes env) st.store (finalState (x st)).store

theorem Step.Writes.grows {x : Step Store σ α} (h : x.Writes env)
    (st : Service.State Store σ) : st.store.Grows (finalState (x st)).store :=
  Store.grows_of_writes (h st)

theorem writes_pure (a : α) : Step.Writes env (pure a) := fun _ => .refl

theorem writes_bind {x : Step Store σ α} {f : α → Step Store σ β} (hx : x.Writes env)
    (hf : ∀ a, (f a).Writes env) : (x >>= f).Writes env := by
  intro st
  have h := hx st
  change Relation.ReflTransGen _ _ (finalState (EStateM.bind x f st)).store
  unfold EStateM.bind
  cases he : x st with
  | error e st' => simpa [he, finalState] using h
  | ok a st' =>
    rw [he] at h
    exact h.trans (hf a st')

theorem writes_checkPurpose (m : Summary) (n : CryptoKeyName) (purpose : String) :
    (checkPurpose n purpose m : Step Store σ Summary).Writes env := by
  unfold checkPurpose
  split
  · exact fun _ => .refl
  · exact writes_pure _

section Operations

/-- The state after one of the operations that seedings are made of. -/
inductive Performed (env : Environment σ) (ctx : Context) (st : Service.State Store σ) :
    Service.State Store σ → Prop
  | createKeyRing (parent id : String) :
      Performed env ctx st (finalState (Service.perform env ctx (.createKeyRing parent id) st))
  | createCryptoKey (parent id : String) (spec : Option CryptoKeySpec) :
      Performed env ctx st
        (finalState (Service.perform env ctx (.createCryptoKey parent id spec) st))
  | listVersions (parent token : String) :
      Performed env ctx st (finalState (Service.perform env ctx (.listVersions parent token) st))
  | createVersion (parent : String) :
      Performed env ctx st (finalState (Service.perform env ctx (.createVersion parent) st))

/-- A step of a seeding that does nothing but perform operations. -/
def Step.Performs (env : Environment σ) (ctx : Context) (x : Step Store σ α) : Prop :=
  ∀ st, Relation.ReflTransGen (Performed env ctx) st (finalState (x st))

theorem Performed.writes {st st' : Service.State Store σ} (h : Performed env ctx st st') :
    Relation.ReflTransGen (Store.Writes env) st.store st'.store := by
  cases h with
  | _ => exact Service.perform_writes _ _

theorem Step.Performs.writes {x : Step Store σ α} (h : x.Performs env ctx) : x.Writes env :=
  fun st => Relation.ReflTransGen.lift' Service.State.store (fun _ _ => Performed.writes) _ _ (h st)

theorem performs_pure (a : α) : Step.Performs env ctx (pure a) := fun _ => .refl

theorem performs_bind {x : Step Store σ α} {f : α → Step Store σ β} (hx : x.Performs env ctx)
    (hf : ∀ a, (f a).Performs env ctx) : (x >>= f).Performs env ctx := by
  intro st
  have h := hx st
  cases he : x st with
  | error e st' =>
    rw [bind_eq_of_error he]
    rwa [he] at h
  | ok a st' =>
    rw [bind_eq_of_ok he]
    rw [he] at h
    exact h.trans (hf a st')

variable {op : Operation} (subject : Subject) (name : String)

theorem performs_attempt
    (h : ∀ st, Performed env ctx st (finalState (Service.perform env ctx op st))) :
    (attempt env ctx subject name op : Step Store σ Response).Performs env ctx := by
  intro st
  refine .single ?_
  have h := h st
  unfold attempt EStateM.adaptExcept
  cases he : Service.perform env ctx op st <;> simpa only [he, finalState] using h

theorem performs_ensure
    (h : ∀ st, Performed env ctx st (finalState (Service.perform env ctx op st))) :
    (ensure env ctx subject name op : Step Store σ Bool).Performs env ctx := by
  intro st
  refine .single ?_
  have h := h st
  unfold ensure
  cases he : Service.perform env ctx op st with
  | ok r st' => simpa only [he, finalState] using h
  | error e st' =>
    rw [he] at h
    cases e with
    | overflow => exact h
    | failed e =>
      dsimp only
      split <;> exact h

theorem performs_createVersions (key : String) (count : Nat) :
    (createVersions env ctx key count : Step Store σ Unit).Performs env ctx := by
  induction count with
  | zero => exact performs_pure ()
  | succ n ih =>
    refine performs_bind ?_ fun _ => ih
    exact performs_bind (performs_attempt _ _ fun _ => .createVersion _) fun _ => performs_pure _

end Operations

section Stages

variable {m : Summary}

theorem performs_ensureRing (n : KeyRingName) :
    (ensureRing env ctx n m : Step Store σ Summary).Performs env ctx :=
  performs_bind (performs_ensure _ _ fun _ => .createKeyRing _ _) fun _ => performs_pure _

theorem performs_checkPurpose (n : CryptoKeyName) (purpose : String) :
    (checkPurpose n purpose m : Step Store σ Summary).Performs env ctx := by
  unfold checkPurpose
  split
  · exact fun _ => .refl
  · exact performs_pure _

theorem performs_ensureKey (n : CryptoKeyName) (labels : Labels) :
    (ensureKey env ctx n labels m : Step Store σ Summary).Performs env ctx :=
  performs_bind (performs_ensure _ _ fun _ => .createCryptoKey _ _ _) fun _ => performs_pure _

theorem performs_topUp (n : CryptoKeyName) (wanted : Nat) :
    (topUp env ctx n wanted m : Step Store σ Summary).Performs env ctx :=
  performs_bind (performs_attempt _ _ fun _ => .listVersions _ _) fun _ =>
    performs_bind (performs_createVersions _ _) fun _ => performs_pure _

end Stages

/-- A seeding, whether it succeeds or not, is a sequence of operations. -/
theorem performs_apply (doc : Document) :
    (apply env ctx doc : Step Store σ Summary).Performs env ctx := by
  have h : ∀ m, (seedAll env ctx doc m : Step Store σ Summary).Performs env ctx :=
    seedAll_induction (P := fun F (_ : Stage Store σ) => ∀ m, (F m).Performs env ctx) env ctx env
      ctx (fun _ => performs_pure _) (fun h h' m => performs_bind (h m) h')
      (fun n _ => performs_ensureRing n) (fun n purpose _ => performs_checkPurpose n purpose)
      (fun n labels _ => performs_ensureKey n labels) (fun n wanted _ => performs_topUp n wanted)
      doc
  exact h {}

end KeyManagement.Seed
