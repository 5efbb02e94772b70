import KeyManagement.Engine.Random
import KeyManagement.Proofs.Cipher.Gcm
import KeyManagement.Proofs.Outcome

/-! # What the AES-256-GCM engine opens

The engine cuts a ciphertext after the nonce. It opens exactly the ciphertexts that sealing
under some nonce of the right size gives, and under its own material only.
-/

namespace KeyManagement

variable {σ : Type}

/-- Checking the context succeeds and changes nothing. -/
def Environment.Live (env : Environment σ) (ctx : Context) (w : σ) : Prop :=
  env.check ctx w = .ok () w

theorem World.check_eq {ε : Type} (ctx : Context) (w : World ε) :
    World.check ctx w = ofResult (ctx.check w.signals w.now) w := by
  unfold World.check
  cases ctx.check w.signals w.now <;> rfl

/-- The engine is AES-256-GCM, over a source that gives as many bytes as are asked for. -/
structure Environment.UsesAesGcm (env : Environment σ) (random : Nat → σ → Bytes × σ) :
    Prop where
  engine : env.engine = AesGcm.engine env.check random
  length : ∀ size w, (random size w).1.length = size

theorem World.usesAesGcm_random :
    ∃ random, (World.environment Engine.random).UsesAesGcm random :=
  ⟨_, rfl, fun size w => Generator.length_draw size w.entropy⟩

namespace AesGcm

variable {check : Context → EStateM ContextError σ Unit} {random : Nat → σ → Bytes × σ}
  {ctx : Context} {m : KeyMaterial} {k : Aes.Key} {nonce plaintext aad ciphertext : Bytes}
  {w w' : σ}

@[simp] theorem draw_eq_ok_iff {size : Nat} {bytes : Bytes} :
    draw random size w = .ok bytes w' ↔ random size w = (bytes, w') := by
  unfold draw
  obtain ⟨b, v⟩ := random size w
  simp

theorem key_eq_ok {bytes : Bytes} (h : bytes.length = Aes.Key.size) :
    key ⟨format :: bytes⟩ = .ok (.ofBytes bytes) := by
  simp [key, h]

theorem generate_eq_ok_iff : (engine check random).generate ctx w = .ok m w' ↔ ∃ bytes v,
    check ctx w = .ok () v ∧ random Aes.Key.size v = (bytes, w') ∧ m = ⟨format :: bytes⟩ := by
  simp only [engine, bind_eq_ok_iff, adaptExcept_eq_ok_iff, draw_eq_ok_iff, pure_eq_ok_iff]
  constructor
  · rintro ⟨_, v, hv, bytes, _, hr, rfl, rfl⟩
    exact ⟨bytes, v, hv, hr, rfl⟩
  · rintro ⟨bytes, v, hv, hr, rfl⟩
    exact ⟨(), v, hv, bytes, w', hr, rfl, rfl⟩

theorem encrypt_eq_ok_iff :
    (engine check random).encrypt ctx m plaintext aad w = .ok ciphertext w' ↔ ∃ k nonce v,
      check ctx w = .ok () v ∧ key m = .ok k ∧ random Gcm.nonceSize v = (nonce, w') ∧
      sealUnder k nonce plaintext aad = .ok ciphertext := by
  simp only [engine, bind_eq_ok_iff, adaptExcept_eq_ok_iff, ofResult_eq_ok_iff, draw_eq_ok_iff]
  constructor
  · rintro ⟨_, v, hv, k, _, ⟨hk, rfl⟩, nonce, _, hr, hs, rfl⟩
    exact ⟨k, nonce, v, hv, hk, hr, hs⟩
  · rintro ⟨k, nonce, v, hv, hk, hr, hs⟩
    exact ⟨(), v, hv, k, v, ⟨hk, rfl⟩, nonce, w', hr, hs, rfl⟩

theorem decrypt_eq_ok_iff :
    (engine check random).decrypt ctx m ciphertext aad w = .ok plaintext w' ↔
      check ctx w = .ok () w' ∧ unsealWith m ciphertext aad = .ok plaintext := by
  simp only [engine, bind_eq_ok_iff, adaptExcept_eq_ok_iff, ofResult_eq_ok_iff]
  constructor
  · rintro ⟨_, v, hv, hu, rfl⟩
    exact ⟨hv, hu⟩
  · rintro ⟨hv, hu⟩
    exact ⟨(), w', hv, hu, rfl⟩

theorem sealUnder_eq_ok_iff : sealUnder k nonce plaintext aad = .ok ciphertext ↔ ∃ sealed,
    Gcm.seal? (Aes.encryptBlock k.roundKeys) nonce aad plaintext = some sealed ∧
    ciphertext = nonce ++ sealed := by
  unfold sealUnder
  split
  · next hs => simp [hs, eq_comm]
  · next hs => simp [hs]

/-- Whether data can be sealed, and how long the result is, depends on the key in no way. -/
theorem sealUnder_cases (nonce plaintext aad : Bytes) :
    (∀ k, ∃ c, sealUnder k nonce plaintext aad = .ok c ∧
      c.length = nonce.length + (plaintext.length + Gcm.tagSize)) ∨
    ∀ k, sealUnder k nonce plaintext aad = .error tooLarge := by
  by_cases hsize : plaintext.length ≤ Gcm.maxSize ∧ aad.length ≤ Gcm.maxSize
  · refine .inl fun k => ⟨_, sealUnder_eq_ok_iff.mpr
      ⟨_, Gcm.seal?_eq_some_iff.mpr ⟨hsize.1, hsize.2, rfl⟩, rfl⟩, ?_⟩
    simp only [List.length_append, Gcm.length_applyKeystream, Gcm.length_tag]
  · refine .inr fun k => ?_
    have hnone : Gcm.seal? (Aes.encryptBlock k.roundKeys) nonce aad plaintext = none := by
      rw [Option.eq_none_iff_forall_ne_some]
      intro sealed hs
      obtain ⟨hp, ha, -⟩ := Gcm.seal?_eq_some_iff.mp hs
      exact hsize ⟨hp, ha⟩
    rw [sealUnder, hnone]

theorem unsealWith_eq_ok_iff : unsealWith m ciphertext aad = .ok plaintext ↔ ∃ k nonce sealed,
    key m = .ok k ∧ nonce.length = Gcm.nonceSize ∧ ciphertext = nonce ++ sealed ∧
    Gcm.unseal? (Aes.encryptBlock k.roundKeys) nonce aad sealed = some plaintext := by
  unfold unsealWith
  constructor
  · intro h
    split at h
    · contradiction
    · next hsize =>
      split at h
      · contradiction
      · next k hk =>
        split at h
        · next p hu =>
          cases h
          refine ⟨k, ciphertext.take Gcm.nonceSize, ciphertext.drop Gcm.nonceSize, hk, ?_, ?_, hu⟩
          · exact List.length_take_of_le (Nat.le_of_not_lt hsize)
          · exact (List.take_append_drop _ _).symm
        · contradiction
  · rintro ⟨k, nonce, sealed, hk, hn, rfl, hu⟩
    have hsize : ¬ (nonce ++ sealed).length < Gcm.nonceSize := by
      rw [List.length_append, hn]
      exact Nat.not_lt.mpr (Nat.le_add_right _ _)
    rw [if_neg hsize, hk, ← hn, List.take_left, List.drop_left]
    simp only [hu]

theorem unsealWith_eq_ok_iff_sealUnder (h : plaintext.length ≤ Gcm.maxSize) :
    unsealWith m ciphertext aad = .ok plaintext ↔ ∃ k nonce, key m = .ok k ∧
      nonce.length = Gcm.nonceSize ∧ sealUnder k nonce plaintext aad = .ok ciphertext := by
  simp only [unsealWith_eq_ok_iff, sealUnder_eq_ok_iff, Gcm.unseal?_eq_some_iff_seal? h]
  constructor
  · rintro ⟨k, nonce, sealed, hk, hn, hc, hs⟩
    exact ⟨k, nonce, hk, hn, sealed, hs, hc⟩
  · rintro ⟨k, nonce, hk, hn, sealed, hs, hc⟩
    exact ⟨k, nonce, sealed, hk, hn, hc, hs⟩

theorem unsealWith_of_sealUnder (hk : key m = .ok k) (hn : nonce.length = Gcm.nonceSize)
    (h : sealUnder k nonce plaintext aad = .ok ciphertext) :
    unsealWith m ciphertext aad = .ok plaintext := by
  obtain ⟨sealed, hs, -⟩ := sealUnder_eq_ok_iff.mp h
  exact (unsealWith_eq_ok_iff_sealUnder (Gcm.seal?_eq_some_iff.mp hs).1).mpr ⟨k, nonce, hk, hn, h⟩

theorem sealUnder_inj {nonce' plaintext' : Bytes} (hk : key m = .ok k)
    (hn : nonce.length = Gcm.nonceSize) (hn' : nonce'.length = Gcm.nonceSize)
    (h : sealUnder k nonce plaintext aad = .ok ciphertext)
    (h' : sealUnder k nonce' plaintext' aad = .ok ciphertext) :
    nonce = nonce' ∧ plaintext = plaintext' := by
  obtain ⟨sealed, -, rfl⟩ := sealUnder_eq_ok_iff.mp h
  obtain ⟨sealed', -, he⟩ := sealUnder_eq_ok_iff.mp h'
  refine ⟨(List.append_inj he (hn.trans hn'.symm)).1, ?_⟩
  have hp := (unsealWith_of_sealUnder hk hn h).symm.trans (unsealWith_of_sealUnder hk hn' h')
  exact Except.ok.inj hp

end AesGcm

end KeyManagement
