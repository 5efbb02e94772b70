import KeyManagement.Proofs.Store.AllOrNothing
import KeyManagement.Service.Basic

/-! # The steps of operations

An operation goes on after a step that succeeds. Checks change nothing, calls to the
environment change the world only, and accesses to the store change the store only.
-/

namespace KeyManagement.Service

variable {S σ ε α : Type} {st st' : State S σ} {a : α} {e : Stop ServiceError}

section Success

@[simp] theorem demand_eq_ok_iff {r : Except ServiceError α} :
    demand r st = .ok a st' ↔ r = .ok a ∧ st = st' :=
  ofResultAs_eq_ok_iff

@[simp] theorem demandAs_eq_ok_iff {f : ε → ServiceError} {r : Except ε α} :
    demandAs f r st = .ok a st' ↔ r = .ok a ∧ st = st' := by
  rw [demandAs, demand_eq_ok_iff, mapError_eq_ok_iff]

theorem discard_demandAs_of_ok {f : ε → ServiceError} {r : Except ε α} (h : r = .ok a) :
    discard (demandAs f r) st = .ok ⟨⟩ st :=
  discard_eq_ok_iff.mpr ⟨a, demandAs_eq_ok_iff.mpr ⟨h, rfl⟩⟩

theorem discard_demand_of_ok {r : Except ServiceError α} (h : r = .ok a) :
    discard (demand r) st = .ok ⟨⟩ st :=
  discard_eq_ok_iff.mpr ⟨a, demand_eq_ok_iff.mpr ⟨h, rfl⟩⟩

@[simp] theorem inWorld_eq_ok_iff {f : ε → ServiceError} {x : EStateM ε σ α} :
    inWorld f x st = .ok a st' ↔ ∃ w, x st.world = .ok a w ∧ ⟨st.store, w⟩ = st' := by
  unfold inWorld
  cases x st.world <;> simp

@[simp] theorem inStore_eq_ok_iff {f : StoreError → ServiceError} {x : Access S α} :
    inStore f x st = .ok a st' ↔ ∃ s, x st.store = .ok a s ∧ ⟨s, st.world⟩ = st' := by
  unfold inStore
  cases x st.store <;> simp

variable {env : Environment σ} {ctx : Context}

@[simp] theorem ensureLive_eq_ok_iff {u : Unit} : ensureLive env ctx st = .ok u st' ↔
    ∃ w, env.check ctx st.world = .ok () w ∧ ⟨st.store, w⟩ = st' :=
  inWorld_eq_ok_iff

theorem ensureLive_of_check {w : σ} (h : env.check ctx st.world = .ok () w) :
    ensureLive env ctx st = .ok () ⟨st.store, w⟩ :=
  ensureLive_eq_ok_iff.mpr ⟨w, h, rfl⟩

@[simp] theorem generate_eq_ok_iff {m : KeyMaterial} : generate env ctx st = .ok m st' ↔
    ∃ w, env.engine.generate ctx st.world = .ok m w ∧ ⟨st.store, w⟩ = st' :=
  inWorld_eq_ok_iff

@[simp] theorem readClock_eq_ok_iff {now : Timestamp} :
    readClock env st = .ok now st' ↔ env.time st.world = now ∧ st = st' := by
  simp [readClock, and_comm]

@[simp] theorem readClockAgain_eq_ok_iff {now : Timestamp} :
    readClockAgain env st = .ok now st' ↔ env.timeAgain st.world = now ∧ st = st' := by
  simp [readClockAgain, and_comm]

end Success

section Failure

@[simp] theorem demand_eq_error_iff {r : Except ServiceError α} :
    demand r st = .error e st' ↔ (∃ e', r = .error e' ∧ .failed e' = e) ∧ st = st' :=
  ofResultAs_eq_error_iff

@[simp] theorem demandAs_eq_error_iff {f : ε → ServiceError} {r : Except ε α} :
    demandAs f r st = .error e st' ↔ (∃ e', r = .error e' ∧ .failed (f e') = e) ∧ st = st' := by
  rw [demandAs, demand_eq_error_iff]
  cases r <;> simp

@[simp] theorem inWorld_eq_error_iff {f : ε → ServiceError} {x : EStateM ε σ α} :
    inWorld f x st = .error e st' ↔
      ∃ e' w, x st.world = .error e' w ∧ .failed (f e') = e ∧ ⟨st.store, w⟩ = st' := by
  unfold inWorld
  cases x st.world <;> simp

@[simp] theorem inStore_eq_error_iff {f : StoreError → ServiceError} {x : Access S α} :
    inStore f x st = .error e st' ↔
      ∃ e' s, x st.store = .error e' s ∧ e'.map f = e ∧ ⟨s, st.world⟩ = st' := by
  unfold inStore
  cases x st.store <;> simp

variable {env : Environment σ} {ctx : Context}

@[simp] theorem ensureLive_eq_error_iff : ensureLive env ctx st = .error e st' ↔
    ∃ e' w, env.check ctx st.world = .error e' w ∧ .failed (.context e') = e ∧
      ⟨st.store, w⟩ = st' :=
  inWorld_eq_error_iff

@[simp] theorem generate_eq_error_iff : generate env ctx st = .error e st' ↔
    ∃ e' w, env.engine.generate ctx st.world = .error e' w ∧ .failed (.engine .generate e') = e ∧
      ⟨st.store, w⟩ = st' :=
  inWorld_eq_error_iff

@[simp] theorem readClock_ne_error : ¬ readClock env st = .error e st' := by
  simp [readClock]

@[simp] theorem readClockAgain_ne_error : ¬ readClockAgain env st = .error e st' := by
  simp [readClockAgain]

theorem error_behind_name {rest : PUnit → Action S σ α} {name : String} {n : CryptoKeyName}
    (hl : env.check ctx st.world = .ok () st.world) (hn : CryptoKeyName.parse name = .ok n)
    (h : rest ⟨⟩ st = .error e st') :
    (do
      ensureLive env ctx
      let u ← discard <| demandAs (.invalidName .name) (CryptoKeyName.parse name)
      rest u) st = .error e st' :=
  bind_eq_error_of_ok (ensureLive_of_check hl) (bind_eq_error_of_ok (discard_demandAs_of_ok hn) h)

end Failure

section Sequences

variable {β : Type} {f : α → Action S σ β} {b : β}

theorem demand_bind_eq_ok_iff {r : Except ServiceError α} :
    (demand r >>= f) st = .ok b st' ↔ ∃ a, r = .ok a ∧ f a st = .ok b st' := by
  simp only [bind_eq_ok_iff, demand_eq_ok_iff]
  constructor
  · rintro ⟨a, _, ⟨ha, rfl⟩, h⟩
    exact ⟨a, ha, h⟩
  · rintro ⟨a, ha, h⟩
    exact ⟨a, st, ⟨ha, rfl⟩, h⟩

theorem demandAs_bind_eq_ok_iff {g : ε → ServiceError} {r : Except ε α} :
    (demandAs g r >>= f) st = .ok b st' ↔ ∃ a, r = .ok a ∧ f a st = .ok b st' := by
  simp only [demandAs, demand_bind_eq_ok_iff, mapError_eq_ok_iff]

/-- A check whose value nothing uses. -/
theorem discard_demandAs_bind_eq_ok_iff {g : ε → ServiceError} {r : Except ε α}
    {rest : PUnit → Action S σ β} : (discard (demandAs g r) >>= rest) st = .ok b st' ↔
      (∃ a, r = .ok a) ∧ rest ⟨⟩ st = .ok b st' := by
  rw [discard_bind, demandAs_bind_eq_ok_iff, exists_and_right]

theorem discard_demand_bind_eq_ok_iff {r : Except ServiceError α}
    {rest : PUnit → Action S σ β} : (discard (demand r) >>= rest) st = .ok b st' ↔
      (∃ a, r = .ok a) ∧ rest ⟨⟩ st = .ok b st' := by
  rw [discard_bind, demand_bind_eq_ok_iff, exists_and_right]

theorem inWorld_bind_eq_ok_iff {g : ε → ServiceError} {x : EStateM ε σ α} :
    (inWorld g x >>= f) st = .ok b st' ↔
      ∃ a w, x st.world = .ok a w ∧ f a ⟨st.store, w⟩ = .ok b st' := by
  simp only [bind_eq_ok_iff, inWorld_eq_ok_iff]
  constructor
  · rintro ⟨a, _, ⟨w, ha, rfl⟩, h⟩
    exact ⟨a, w, ha, h⟩
  · rintro ⟨a, w, ha, h⟩
    exact ⟨a, _, ⟨w, ha, rfl⟩, h⟩

theorem inStore_bind_eq_ok_iff {g : StoreError → ServiceError} {x : Access S α} :
    (inStore g x >>= f) st = .ok b st' ↔
      ∃ a s, x st.store = .ok a s ∧ f a ⟨s, st.world⟩ = .ok b st' := by
  simp only [bind_eq_ok_iff, inStore_eq_ok_iff]
  constructor
  · rintro ⟨a, _, ⟨s, ha, rfl⟩, h⟩
    exact ⟨a, s, ha, h⟩
  · rintro ⟨a, s, ha, h⟩
    exact ⟨a, _, ⟨s, ha, rfl⟩, h⟩

variable {env : Environment σ} {ctx : Context}

theorem ensureLive_bind_eq_ok_iff {rest : Unit → Action S σ β} :
    (ensureLive env ctx >>= rest) st = .ok b st' ↔
      ∃ w, env.check ctx st.world = .ok () w ∧ rest () ⟨st.store, w⟩ = .ok b st' := by
  rw [ensureLive, inWorld_bind_eq_ok_iff]
  constructor
  · rintro ⟨_, w, h⟩
    exact ⟨w, h⟩
  · rintro ⟨w, h⟩
    exact ⟨(), w, h⟩

theorem readClock_bind {rest : Timestamp → Action S σ β} :
    (readClock env >>= rest) st = rest (env.time st.world) st :=
  bind_eq_of_ok (readClock_eq_ok_iff.mpr ⟨rfl, rfl⟩)

theorem readClockAgain_bind {rest : Timestamp → Action S σ β} :
    (readClockAgain env >>= rest) st = rest (env.timeAgain st.world) st :=
  bind_eq_of_ok (readClockAgain_eq_ok_iff.mpr ⟨rfl, rfl⟩)

end Sequences

section Accesses

@[simp] theorem access_getKeyRing (name : String) :
    (KeyStore.getKeyRing name : Access Store KeyRing) = Store.look (·.getKeyRing name) := rfl

@[simp] theorem access_listKeyRings (parent : String) :
    (KeyStore.listKeyRings parent : Access Store (List KeyRing)) =
      Store.look fun s => .ok (s.listKeyRings parent) := rfl

@[simp] theorem access_getCryptoKey (name : String) :
    (KeyStore.getCryptoKey name : Access Store CryptoKey) = Store.look (·.getCryptoKey name) := rfl

@[simp] theorem access_listCryptoKeys (parent : String) :
    (KeyStore.listCryptoKeys parent : Access Store (List CryptoKey)) =
      Store.look (·.listCryptoKeys parent) := rfl

@[simp] theorem access_getVersion (name : String) :
    (KeyStore.getVersion name : Access Store (CryptoKeyVersion × KeyMaterial)) =
      Store.look (·.getVersion name) := rfl

@[simp] theorem access_listVersions (parent : String) :
    (KeyStore.listVersions parent : Access Store (List CryptoKeyVersion)) =
      Store.look (·.listVersions parent) := rfl

@[simp] theorem access_createKeyRing (ring : KeyRing) :
    (KeyStore.createKeyRing ring : Access Store Unit) = Store.createKeyRing ring := rfl

@[simp] theorem access_createCryptoKey (ring : String) (key : CryptoKey)
    (primary : CryptoKeyVersion) (material : KeyMaterial) :
    (KeyStore.createCryptoKey ring key primary material : Access Store Unit) =
      Store.createCryptoKey ring key primary material := rfl

@[simp] theorem access_createNextVersion (key : String) (template : VersionTemplate)
    (material : KeyMaterial) (now : Timestamp) :
    (KeyStore.createNextVersion key template material now : Access Store CryptoKeyVersion) =
      Store.createNextVersion .checked key template material now := rfl

@[simp] theorem access_setPrimary (key version : String) :
    (KeyStore.setPrimary key version : Access Store CryptoKey) = Store.setPrimary key version := rfl

variable {f : StoreError → ServiceError} {g : Store → Except StoreError α}
  {st st' : State Store σ}

@[simp] theorem inStore_look_eq_ok_iff :
    inStore f (Store.look g) st = .ok a st' ↔ g st.store = .ok a ∧ st = st' := by
  simp only [inStore_eq_ok_iff, Store.look_eq_ok_iff]
  constructor
  · rintro ⟨_, ⟨ha, rfl⟩, rfl⟩
    exact ⟨ha, rfl⟩
  · rintro ⟨ha, rfl⟩
    exact ⟨_, ⟨ha, rfl⟩, rfl⟩

@[simp] theorem inStore_look_eq_error_iff : inStore f (Store.look g) st = .error e st' ↔
    (∃ e', g st.store = .error e' ∧ .failed (f e') = e) ∧ st = st' := by
  simp only [inStore_eq_error_iff, Store.look_eq_error_iff]
  constructor
  · rintro ⟨_, _, ⟨⟨e', he, rfl⟩, rfl⟩, rfl, rfl⟩
    exact ⟨⟨e', he, rfl⟩, rfl⟩
  · rintro ⟨⟨e', he, rfl⟩, rfl⟩
    exact ⟨_, _, ⟨⟨e', he, rfl⟩, rfl⟩, rfl, rfl⟩

theorem inStore_look_bind_eq_ok_iff {β : Type} {rest : α → Action Store σ β} {b : β} :
    (inStore f (Store.look g) >>= rest) st = .ok b st' ↔
      ∃ a, g st.store = .ok a ∧ rest a st = .ok b st' := by
  simp only [bind_eq_ok_iff, inStore_look_eq_ok_iff]
  constructor
  · rintro ⟨a, _, ⟨ha, rfl⟩, h⟩
    exact ⟨a, ha, h⟩
  · rintro ⟨a, ha, h⟩
    exact ⟨a, st, ⟨ha, rfl⟩, h⟩

end Accesses

end KeyManagement.Service
