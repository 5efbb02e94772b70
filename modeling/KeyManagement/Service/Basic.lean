import KeyManagement.Outcome
import KeyManagement.Service.Environment
import KeyManagement.Service.Error
import KeyManagement.Service.Operation
import KeyManagement.Store.Interface

/-! # The service

An operation works on the store and on the world around it, one step after another. It
checks its context and its request, reads the store and calls the engine. The operations
that write check their context once more and then access the store for the last time.
-/

namespace KeyManagement.Service

/-- The store and the world around it. -/
structure State (S σ : Type) where
  store : S
  world : σ

/-- A step of an operation. Whatever it comes to, it may have changed the store. -/
abbrev Action (S σ α : Type) := EStateM (Stop ServiceError) (State S σ) α

variable {S σ ε α : Type}

/-- Goes on with the result of a check. -/
def demand (r : Except ServiceError α) : Action S σ α := ofResultAs .failed r

def demandAs (f : ε → ServiceError) (r : Except ε α) : Action S σ α := demand (r.mapError f)

def inWorld (f : ε → ServiceError) (x : EStateM ε σ α) : Action S σ α := fun st =>
  match x st.world with
  | .ok a w => .ok a { st with world := w }
  | .error e w => .error (.failed (f e)) { st with world := w }

def inStore (f : StoreError → ServiceError) (x : Access S α) : Action S σ α := fun st =>
  match x st.store with
  | .ok a s => .ok a { st with store := s }
  | .error e s => .error (e.map f) { st with store := s }

section Requests

def require (field : RequestField) (value : String) : Except ServiceError Unit :=
  if value.isEmpty then .error (.missing field) else .ok ()

def rejectPageToken (token : String) : Except ServiceError Unit :=
  if token.isEmpty then .ok () else .error .pagination

def verifyChecksum (data : Bytes) (supplied : Option Int) : Except ServiceError Bool :=
  (Checksum.verify data supplied).mapError fun _ => .checksumMismatch

/-- The key ring that a request asks for. -/
def ringRequest (parent id : String) : Except ServiceError KeyRingName := do
  let location ← (LocationName.parse parent).mapError (.invalidName .parent)
  require .keyRingId id
  discard <| (KeyRingName.parse (location.ring id).resourceName).mapError (.invalidName .keyRingId)
  return location.ring id

/-- The crypto key that a request asks for, and its labels. -/
def keyRequest (parent id : String) (spec : Option CryptoKeySpec) :
    Except ServiceError (CryptoKeyName × Labels) := do
  let ring ← (KeyRingName.parse parent).mapError (.invalidName .parent)
  require .cryptoKeyId id
  let spec ← spec.elim (.error (.missing .cryptoKey)) .ok
  if spec.purpose ≠ .encryptDecrypt then
    throw .unsupportedPurpose
  discard <| (CryptoKeyName.parse (ring.key id).resourceName).mapError (.invalidName .cryptoKeyId)
  return (ring.key id, spec.labels)

/-- The first version of a crypto key. -/
def firstVersion (name : CryptoKeyName) (now : Timestamp) : CryptoKeyVersion :=
  .enabled (name.version 1).resourceName {} now

/-- The record of a crypto key as it is created, with its first version as its primary. -/
def createdKey (name : CryptoKeyName) (labels : Labels) (primary : CryptoKeyVersion)
    (now : Timestamp) : CryptoKey where
  name := name.resourceName
  createTime := now
  labels
  purpose := .encryptDecrypt
  versionTemplate := {}
  primary := some primary

end Requests

variable (env : Environment σ)

def ensureLive (ctx : Context) : Action S σ Unit := inWorld .context (env.check ctx)

def generate (ctx : Context) : Action S σ KeyMaterial :=
  inWorld (.engine .generate) (env.engine.generate ctx)

def readClock : Action S σ Timestamp := do return env.time (← get).world

def readClockAgain : Action S σ Timestamp := do return env.timeAgain (← get).world

variable [KeyStore S]

def createKeyRing (ctx : Context) (parent id : String) : Action S σ KeyRing := do
  ensureLive env ctx
  let name ← demand (ringRequest parent id)
  let ring : KeyRing := ⟨name.resourceName, ← readClock env⟩
  ensureLive env ctx
  inStore .store (KeyStore.createKeyRing ring)
  return ring

def getKeyRing (ctx : Context) (name : String) : Action S σ KeyRing := do
  ensureLive env ctx
  discard <| demandAs (.invalidName .name) (KeyRingName.parse name)
  inStore .store (KeyStore.getKeyRing name)

def listKeyRings (ctx : Context) (parent pageToken : String) : Action S σ (List KeyRing) := do
  ensureLive env ctx
  let location ← demandAs (.invalidName .parent) (LocationName.parse parent)
  demand (rejectPageToken pageToken)
  inStore .store (KeyStore.listKeyRings location.resourceName)

/-- The version and the crypto key are given a time each. -/
def createCryptoKey (ctx : Context) (parent id : String) (spec : Option CryptoKeySpec) :
    Action S σ CryptoKey := do
  ensureLive env ctx
  let (name, labels) ← demand (keyRequest parent id spec)
  let material ← generate env ctx
  let primary := firstVersion name (← readClock env)
  let key := createdKey name labels primary (← readClockAgain env)
  ensureLive env ctx
  inStore .store (KeyStore.createCryptoKey name.parent.resourceName key primary material)
  return key

def getCryptoKey (ctx : Context) (name : String) : Action S σ CryptoKey := do
  ensureLive env ctx
  discard <| demandAs (.invalidName .name) (CryptoKeyName.parse name)
  inStore .store (KeyStore.getCryptoKey name)

def listCryptoKeys (ctx : Context) (parent pageToken : String) :
    Action S σ (List CryptoKey) := do
  ensureLive env ctx
  discard <| demandAs (.invalidName .parent) (KeyRingName.parse parent)
  demand (rejectPageToken pageToken)
  inStore .store (KeyStore.listCryptoKeys parent)

/-- The number of the version is chosen by the store. -/
def createVersion (ctx : Context) (parent : String) : Action S σ CryptoKeyVersion := do
  ensureLive env ctx
  discard <| demandAs (.invalidName .parent) (CryptoKeyName.parse parent)
  let key ← inStore .store (KeyStore.getCryptoKey parent)
  let material ← generate env ctx
  ensureLive env ctx
  let now ← readClock env
  inStore .store (KeyStore.createNextVersion parent key.versionTemplate material now)

def getVersion (ctx : Context) (name : String) : Action S σ CryptoKeyVersion := do
  ensureLive env ctx
  discard <| demandAs (.invalidName .name) (CryptoKeyVersionName.parse name)
  let (version, _) ← inStore .store (KeyStore.getVersion name)
  return version

def listVersions (ctx : Context) (parent pageToken : String) :
    Action S σ (List CryptoKeyVersion) := do
  ensureLive env ctx
  discard <| demandAs (.invalidName .parent) (CryptoKeyName.parse parent)
  demand (rejectPageToken pageToken)
  inStore .store (KeyStore.listVersions parent)

/-- The version identifier goes into the version name as it is; the store knows no version
by a malformed name. -/
def updatePrimary (ctx : Context) (name versionId : String) : Action S σ CryptoKey := do
  ensureLive env ctx
  discard <| demandAs (.invalidName .name) (CryptoKeyName.parse name)
  demand (require .cryptoKeyVersionId versionId)
  ensureLive env ctx
  inStore .store (KeyStore.setPrimary name (versionNameOf name versionId))

/-- Seals under the primary version, and says so in the envelope. -/
def encrypt (ctx : Context) (request : EncryptRequest) : Action S σ EncryptResponse := do
  ensureLive env ctx
  discard <| demandAs (.invalidName .name) (CryptoKeyName.parse request.name)
  let key ← inStore .store (KeyStore.getCryptoKey request.name)
  let primary ← demand (key.primary.elim (.error (.noPrimary request.name)) .ok)
  let verifiedPlaintext ← demand (verifyChecksum request.plaintext request.plaintextCrc)
  let verifiedAad ← demand (verifyChecksum request.aad request.aadCrc)
  let (version, material) ← inStore .primaryUnavailable (KeyStore.getVersion primary.name)
  let body ← inWorld (.engine .encrypt)
    (env.engine.encrypt ctx material request.plaintext request.aad)
  let ciphertext ← demandAs .nameTooLong (Envelope.wrap version.name body)
  return {
    name := version.name
    ciphertext
    ciphertextCrc := Checksum.toWire (Checksum.crc32c ciphertext)
    verifiedPlaintext
    verifiedAad }

/-- Opens only envelopes that name a version of the given key. -/
def decrypt (ctx : Context) (request : DecryptRequest) : Action S σ DecryptResponse := do
  ensureLive env ctx
  discard <| demandAs (.invalidName .name) (CryptoKeyName.parse request.name)
  let key ← inStore .store (KeyStore.getCryptoKey request.name)
  discard <| demand (verifyChecksum request.ciphertext request.ciphertextCrc)
  discard <| demand (verifyChecksum request.aad request.aadCrc)
  let (versionName, body) ← demandAs .payload (Envelope.unwrap request.ciphertext)
  let parsed ← demandAs .payloadName (CryptoKeyVersionName.parse versionName)
  if parsed.parent.resourceName ≠ request.name then
    throw (.failed (.foreignCiphertext request.name))
  let (version, material) ← inStore .store (KeyStore.getVersion versionName)
  let plaintext ← inWorld (.engine .decrypt) (env.engine.decrypt ctx material body request.aad)
  return {
    plaintext
    plaintextCrc := Checksum.toWire (Checksum.crc32c plaintext)
    usedPrimary := key.primary.any (·.name == version.name) }

/-- Carries out one operation under a context. -/
def perform (ctx : Context) : Operation → Action S σ Response
  | .createKeyRing parent id => .keyRing <$> createKeyRing env ctx parent id
  | .getKeyRing name => .keyRing <$> getKeyRing env ctx name
  | .listKeyRings parent token => .keyRings <$> listKeyRings env ctx parent token
  | .createCryptoKey parent id spec => .cryptoKey <$> createCryptoKey env ctx parent id spec
  | .getCryptoKey name => .cryptoKey <$> getCryptoKey env ctx name
  | .listCryptoKeys parent token => .cryptoKeys <$> listCryptoKeys env ctx parent token
  | .createVersion parent => .version <$> createVersion env ctx parent
  | .getVersion name => .version <$> getVersion env ctx name
  | .listVersions parent token => .versions <$> listVersions env ctx parent token
  | .updatePrimary name id => .cryptoKey <$> updatePrimary env ctx name id
  | .encrypt request => .encrypted <$> encrypt env ctx request
  | .decrypt request => .decrypted <$> decrypt env ctx request

end KeyManagement.Service
