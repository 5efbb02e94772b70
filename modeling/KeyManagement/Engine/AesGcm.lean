import KeyManagement.Engine.Basic
import KeyManagement.Outcome

/-! # The AES-256-GCM engine

Key material is a format byte and a key of 32 bytes. A ciphertext is the nonce of 12 bytes
that it was sealed under, the encrypted data, and a tag of 16 bytes.
-/

namespace KeyManagement.AesGcm

/-- The first byte of all key material that this engine makes. -/
def format : UInt8 := 1

section Faults

def emptyMaterial : EngineError := .invalidKeyMaterial "empty key material"

def unknownFormat (found : UInt8) : EngineError :=
  .invalidKeyMaterial ("unknown material format " ++ Decimal.render found.toNat)

def wrongSize (found : Nat) : EngineError :=
  .invalidKeyMaterial
    ("expected " ++ Decimal.render Aes.Key.size ++ " key bytes, got " ++ Decimal.render found)

def tooLarge : EngineError := .encrypt "Encryption failed: aead::Error"

def tooShort : EngineError := .decrypt "ciphertext too short"

def notAuthentic : EngineError := .decrypt "Decryption failed: aead::Error"

end Faults

def key (m : KeyMaterial) : Except EngineError Aes.Key :=
  match m.bytes with
  | [] => .error emptyMaterial
  | f :: keyBytes =>
    if f ≠ format then .error (unknownFormat f)
    else if keyBytes.length ≠ Aes.Key.size then .error (wrongSize keyBytes.length)
    else .ok (.ofBytes keyBytes)

/-- Seals under a given nonce, which goes in front of the result. -/
def sealUnder (k : Aes.Key) (nonce plaintext aad : Bytes) : Except EngineError Bytes :=
  match Gcm.seal? (Aes.encryptBlock k.roundKeys) nonce aad plaintext with
  | some sealed => .ok (nonce ++ sealed)
  | none => .error tooLarge

def unsealWith (m : KeyMaterial) (ciphertext aad : Bytes) : Except EngineError Bytes :=
  if ciphertext.length < Gcm.nonceSize then .error tooShort
  else match key m with
    | .error e => .error e
    | .ok k =>
      match Gcm.unseal? (Aes.encryptBlock k.roundKeys) (ciphertext.take Gcm.nonceSize) aad
          (ciphertext.drop Gcm.nonceSize) with
      | some plaintext => .ok plaintext
      | none => .error notAuthentic

variable {σ : Type}

variable (check : Context → EStateM ContextError σ Unit) (random : (size : Nat) → σ → Bytes × σ)

def draw (size : Nat) : EStateM EngineError σ Bytes := fun w =>
  let (bytes, w) := random size w
  .ok bytes w

/-- The engine over a source of random bytes. A nonce is drawn only when the context is
live and the material is sound. -/
def engine : Engine σ where
  generate ctx := do
    (check ctx).adaptExcept .context
    let bytes ← draw random Aes.Key.size
    return ⟨format :: bytes⟩
  encrypt ctx m plaintext aad := do
    (check ctx).adaptExcept .context
    let k ← ofResult (key m)
    let nonce ← draw random Gcm.nonceSize
    ofResult (sealUnder k nonce plaintext aad)
  decrypt ctx m ciphertext aad := do
    (check ctx).adaptExcept .context
    ofResult (unsealWith m ciphertext aad)

end KeyManagement.AesGcm
