import KeyManagement.Cipher.Aes
import KeyManagement.Cipher.Gcm
import KeyManagement.Context.Basic
import KeyManagement.Engine.Material

/-! # Crypto engines

An engine makes key material, and seals and unseals data under it. It runs under the
context of the call and may change the state of the world, of type `σ`: it draws random
bytes, and it may even cancel the context.
-/

namespace KeyManagement

inductive EngineError
  | context (e : ContextError)
  | invalidKeyMaterial (reason : String)
  | encrypt (reason : String)
  | decrypt (reason : String)
  deriving DecidableEq, Repr

namespace EngineError

def describeMaterial (reason : String) : String := "Invalid key material: " ++ reason

def describeEncrypt (reason : String) : String := "Encryption error: " ++ reason

def describeDecrypt (reason : String) : String := "Decryption error: " ++ reason

def message : EngineError → String
  | .context e => e.message
  | .invalidKeyMaterial reason => describeMaterial reason
  | .encrypt reason => describeEncrypt reason
  | .decrypt reason => describeDecrypt reason

end EngineError

/-- The calls to the engine. -/
inductive EngineCall
  | generate
  | encrypt
  | decrypt
  deriving DecidableEq, Repr

def EngineCall.failure : EngineCall → String
  | .generate => "failed to generate key material"
  | .encrypt => "encrypt failed"
  | .decrypt => "decrypt failed"

structure Engine (σ : Type) where
  generate : Context → EStateM EngineError σ KeyMaterial
  encrypt : Context → KeyMaterial → (plaintext aad : Bytes) → EStateM EngineError σ Bytes
  decrypt : Context → KeyMaterial → (ciphertext aad : Bytes) → EStateM EngineError σ Bytes

end KeyManagement
