import KeyManagement.Engine.AesGcm
import KeyManagement.World

/-! # Scripted engines

Engines without chance, for rehearsing what may happen: nonces count up and key material
comes from a list, every call fails, or calls cancel their own context.
-/

namespace KeyManagement

/-- What the scripted engine will draw next. -/
structure Script where
  /-- The nonce of the next encryption, in place of the count. -/
  nonce : Option Bytes := none
  noncesDrawn : Nat := 0
  materials : List KeyMaterial := []
  generated : Nat := 0

namespace Script

/-- Material that tells its own number. -/
def defaultMaterial (n : Nat) : KeyMaterial :=
  ⟨AesGcm.format :: (List.range Aes.Key.size).map fun j => (32 * n + j).toUInt8⟩

def drawNonce (s : Script) : Bytes × Script :=
  match s.nonce with
  | some nonce => (nonce, { s with nonce := none })
  | none =>
    (Bytes.ofNat Gcm.nonceSize (s.noncesDrawn + 1), { s with noncesDrawn := s.noncesDrawn + 1 })

def drawMaterial (s : Script) : KeyMaterial × Script :=
  match s.materials with
  | m :: rest => (m, { s with materials := rest, generated := s.generated + 1 })
  | [] => (defaultMaterial s.generated, { s with generated := s.generated + 1 })

end Script

namespace Engine

/-- The AES-256-GCM engine with nonces and material from a script. -/
def scripted : Engine (World Script) where
  generate ctx := do
    (World.check ctx).adaptExcept .context
    modifyGet fun w =>
      let (material, entropy) := w.entropy.drawMaterial
      (material, { w with entropy })
  encrypt := (AesGcm.engine World.check draw).encrypt
  decrypt := (AesGcm.engine World.check draw).decrypt
where
  draw (_ : Nat) (w : World Script) : Bytes × World Script :=
    let (nonce, entropy) := w.entropy.drawNonce
    (nonce, { w with entropy })

/-- An engine that refuses every call, whatever the context. -/
def failing {σ : Type} : Engine σ where
  generate _ := throw (.invalidKeyMaterial "entropy unavailable")
  encrypt _ _ _ _ := throw (.encrypt "refused")
  decrypt _ _ _ _ := throw (.decrypt "refused")

/-- Cancels the context of the given calls: after a generation that succeeds, and before
an encryption or decryption. -/
def cancelling {ε : Type} (calls : List EngineCall) (inner : Engine (World ε)) :
    Engine (World ε) where
  generate ctx := do
    let material ← inner.generate ctx
    cancelOn .generate ctx
    return material
  encrypt ctx material plaintext aad := do
    cancelOn .encrypt ctx
    inner.encrypt ctx material plaintext aad
  decrypt ctx material ciphertext aad := do
    cancelOn .decrypt ctx
    inner.decrypt ctx material ciphertext aad
where
  cancelOn (call : EngineCall) (ctx : Context) : EStateM EngineError (World ε) Unit :=
    if calls.contains call then modify (World.cancel ctx) else pure ()

end Engine

end KeyManagement
