import KeyManagement.Proofs.Service.Step

/-! # Failing operations

An operation works in the store itself, and nothing takes its changes back. It is all the same
done as a whole or not at all: what comes before its only write keeps the store, the write fails
before it changes anything, and nothing that comes after the write can fail.
-/

namespace KeyManagement

/-- Whether the operation may write. -/
def Operation.writes : Operation → Bool
  | .createKeyRing .. | .createCryptoKey .. | .createVersion .. | .updatePrimary .. => true
  | _ => false

namespace Service

section Steps

variable {S σ ε α : Type}

theorem keeps_demand (r : Except ServiceError α) :
    Keeps State.store (demand r : Action S σ α) :=
  .ofResultAs _ r

theorem keeps_demandAs (f : ε → ServiceError) (r : Except ε α) :
    Keeps State.store (demandAs f r : Action S σ α) :=
  keeps_demand _

theorem keeps_inWorld (f : ε → ServiceError) (x : EStateM ε σ α) :
    Keeps State.store (inWorld f x : Action S σ α) := by
  intro st
  unfold inWorld
  cases x st.world <;> rfl

theorem keeps_inStore (f : StoreError → ServiceError) {x : Access S α} (hx : Keeps id x) :
    Keeps State.store (inStore f x : Action S σ α) := by
  intro st
  have hs := hx st.store
  unfold inStore
  cases h : x st.store <;> rwa [h] at hs

theorem allOrNothing_inStore (f : StoreError → ServiceError) {x : Access S α}
    (hx : AllOrNothing id x) : AllOrNothing State.store (inStore f x : Action S σ α) := by
  intro st e st' h
  obtain ⟨e', s, hs, -, rfl⟩ := inStore_eq_error_iff.mp h
  exact hx st.store e' s hs

variable (env : Environment σ) (ctx : Context)

theorem keeps_ensureLive : Keeps State.store (ensureLive env ctx : Action S σ Unit) :=
  keeps_inWorld _ _

theorem keeps_generate : Keeps State.store (generate env ctx : Action S σ KeyMaterial) :=
  keeps_inWorld _ _

theorem keeps_readClock : Keeps State.store (readClock env : Action S σ Timestamp) :=
  .bind .get fun _ => .pure _

theorem keeps_readClockAgain : Keeps State.store (readClockAgain env : Action S σ Timestamp) :=
  .bind .get fun _ => .pure _

end Steps

variable {σ : Type} (env : Environment σ) (ctx : Context)

section Reads

variable (name token : String)

theorem keeps_getKeyRing :
    Keeps State.store (getKeyRing env ctx name : Action Store σ KeyRing) :=
  .bind (keeps_ensureLive env ctx) fun _ => .bind (keeps_demandAs _ _).discard fun _ =>
    keeps_inStore _ (Store.keeps_look _)

theorem keeps_listKeyRings :
    Keeps State.store (listKeyRings env ctx name token : Action Store σ (List KeyRing)) :=
  .bind (keeps_ensureLive env ctx) fun _ => .bind (keeps_demandAs _ _) fun _ =>
    .bind (keeps_demand _) fun _ => keeps_inStore _ (Store.keeps_look _)

theorem keeps_getCryptoKey :
    Keeps State.store (getCryptoKey env ctx name : Action Store σ CryptoKey) :=
  .bind (keeps_ensureLive env ctx) fun _ => .bind (keeps_demandAs _ _).discard fun _ =>
    keeps_inStore _ (Store.keeps_look _)

theorem keeps_listCryptoKeys :
    Keeps State.store (listCryptoKeys env ctx name token : Action Store σ (List CryptoKey)) :=
  .bind (keeps_ensureLive env ctx) fun _ => .bind (keeps_demandAs _ _).discard fun _ =>
    .bind (keeps_demand _) fun _ => keeps_inStore _ (Store.keeps_look _)

theorem keeps_getVersion :
    Keeps State.store (getVersion env ctx name : Action Store σ CryptoKeyVersion) :=
  .bind (keeps_ensureLive env ctx) fun _ => .bind (keeps_demandAs _ _).discard fun _ =>
    .bind (keeps_inStore _ (Store.keeps_look _)) fun _ => .pure _

theorem keeps_listVersions :
    Keeps State.store (listVersions env ctx name token : Action Store σ (List CryptoKeyVersion)) :=
  .bind (keeps_ensureLive env ctx) fun _ => .bind (keeps_demandAs _ _).discard fun _ =>
    .bind (keeps_demand _) fun _ => keeps_inStore _ (Store.keeps_look _)

end Reads

section Ciphertexts

theorem keeps_encrypt (request : EncryptRequest) :
    Keeps State.store (encrypt env ctx request : Action Store σ EncryptResponse) :=
  .bind (keeps_ensureLive env ctx) fun _ => .bind (keeps_demandAs _ _).discard fun _ =>
    .bind (keeps_inStore _ (Store.keeps_look _)) fun _ => .bind (keeps_demand _) fun _ =>
    .bind (keeps_demand _) fun _ => .bind (keeps_demand _) fun _ =>
    .bind (keeps_inStore _ (Store.keeps_look _)) fun _ => .bind (keeps_inWorld _ _) fun _ =>
    .bind (keeps_demandAs _ _) fun _ => .pure _

theorem keeps_decrypt (request : DecryptRequest) :
    Keeps State.store (decrypt env ctx request : Action Store σ DecryptResponse) := by
  refine .bind (keeps_ensureLive env ctx) fun _ => .bind (keeps_demandAs _ _).discard fun _ =>
    .bind (keeps_inStore _ (Store.keeps_look _)) fun _ => .bind (keeps_demand _).discard fun _ =>
    .bind (keeps_demand _).discard fun _ => .bind (keeps_demandAs _ _) fun _ =>
    .bind (keeps_demandAs _ _) fun parsed => ?_
  split
  · exact .bind (.throw _) fun _ => .bind (keeps_inStore _ (Store.keeps_look _)) fun _ =>
      .bind (keeps_inWorld _ _) fun _ => .pure _
  · exact .bind (keeps_inStore _ (Store.keeps_look _)) fun _ =>
      .bind (keeps_inWorld _ _) fun _ => .pure _

end Ciphertexts

section Writes

theorem allOrNothing_createKeyRing (parent id : String) :
    AllOrNothing State.store (createKeyRing env ctx parent id : Action Store σ KeyRing) :=
  .bind (keeps_ensureLive env ctx) fun _ => .bind (keeps_demand _) fun _ =>
    .bind (keeps_readClock env) fun _ => .bind (keeps_ensureLive env ctx) fun _ =>
    .bind_pure (allOrNothing_inStore _ (Store.allOrNothing_createKeyRing _)) _

theorem allOrNothing_createCryptoKey (parent id : String) (spec : Option CryptoKeySpec) :
    AllOrNothing State.store
      (createCryptoKey env ctx parent id spec : Action Store σ CryptoKey) :=
  .bind (keeps_ensureLive env ctx) fun _ => .bind (keeps_demand _) fun _ =>
    .bind (keeps_generate env ctx) fun _ => .bind (keeps_readClock env) fun _ =>
    .bind (keeps_readClockAgain env) fun _ => .bind (keeps_ensureLive env ctx) fun _ =>
    .bind_pure (allOrNothing_inStore _ (Store.allOrNothing_createCryptoKey _ _ _ _)) _

theorem allOrNothing_createVersion (parent : String) :
    AllOrNothing State.store
      (createVersion env ctx parent : Action Store σ CryptoKeyVersion) :=
  .bind (keeps_ensureLive env ctx) fun _ => .bind (keeps_demandAs _ _).discard fun _ =>
    .bind (keeps_inStore _ (Store.keeps_look _)) fun _ => .bind (keeps_generate env ctx) fun _ =>
    .bind (keeps_ensureLive env ctx) fun _ => .bind (keeps_readClock env) fun _ =>
    allOrNothing_inStore _ (Store.allOrNothing_createNextVersion _ _ _ _ _)

theorem allOrNothing_updatePrimary (name versionId : String) :
    AllOrNothing State.store (updatePrimary env ctx name versionId : Action Store σ CryptoKey) :=
  .bind (keeps_ensureLive env ctx) fun _ => .bind (keeps_demandAs _ _).discard fun _ =>
    .bind (keeps_demand _) fun _ => .bind (keeps_ensureLive env ctx) fun _ =>
    allOrNothing_inStore _ (Store.allOrNothing_setPrimary _ _)

end Writes

section Operations

variable {env ctx} {op : Operation}

/-- An operation that is not to write keeps the store even when it succeeds. -/
theorem keeps_perform (h : op.writes = false) :
    Keeps State.store (perform env ctx op : Action Store σ Response) := by
  cases op with
  | createKeyRing | createCryptoKey | createVersion | updatePrimary => contradiction
  | getKeyRing name => exact (keeps_getKeyRing env ctx name).map _
  | listKeyRings parent token => exact (keeps_listKeyRings env ctx parent token).map _
  | getCryptoKey name => exact (keeps_getCryptoKey env ctx name).map _
  | listCryptoKeys parent token => exact (keeps_listCryptoKeys env ctx parent token).map _
  | getVersion name => exact (keeps_getVersion env ctx name).map _
  | listVersions parent token => exact (keeps_listVersions env ctx parent token).map _
  | encrypt request => exact (keeps_encrypt env ctx request).map _
  | decrypt request => exact (keeps_decrypt env ctx request).map _

/-- No operation leaves part of its work in the store when it fails. -/
theorem allOrNothing_perform (op : Operation) :
    AllOrNothing State.store (perform env ctx op : Action Store σ Response) := by
  cases op with
  | createKeyRing parent id => exact (allOrNothing_createKeyRing env ctx parent id).map _
  | createCryptoKey parent id spec =>
    exact (allOrNothing_createCryptoKey env ctx parent id spec).map _
  | createVersion parent => exact (allOrNothing_createVersion env ctx parent).map _
  | updatePrimary name id => exact (allOrNothing_updatePrimary env ctx name id).map _
  | _ => exact (keeps_perform rfl).allOrNothing

theorem store_of_perform_error {st st' : State Store σ} {e : Stop ServiceError}
    (h : perform env ctx op st = .error e st') : st'.store = st.store :=
  allOrNothing_perform op st e st' h

end Operations

end Service

end KeyManagement
