import KeyManagement.Proofs.Engine.AesGcm
import KeyManagement.Proofs.Service.History

/-! # Encryption and decryption invert each other

Under a live context the AES-256-GCM engine encrypts with all sound material, and what it returns
for a plaintext is determined by the nonce that it draws. Decryption gives the plaintext whose
encryption with the first bytes as the nonce is the ciphertext. If there is none it fails, and the
first fault of the ciphertext and the material tells how.
-/

namespace KeyManagement

namespace KeyMaterial

/-- A format byte of one, and a key of 32 bytes. -/
def Sound (m : KeyMaterial) : Prop := ∃ bytes, m.bytes = 1 :: bytes ∧ bytes.length = 32

/-- The ciphertext is the nonce, followed by what Galois counter mode makes of the plaintext under
that nonce and the key of the material. -/
def Seals (m : KeyMaterial) (nonce plaintext aad ciphertext : Bytes) : Prop :=
  ∃ bytes sealed, m.bytes = 1 :: bytes ∧ bytes.length = 32 ∧
    Gcm.seal? (Aes.encryptBlock (Aes.Key.ofBytes bytes).roundKeys) nonce aad plaintext =
      some sealed ∧
    ciphertext = nonce ++ sealed

end KeyMaterial

namespace AesGcm

variable {m : KeyMaterial} {k : Aes.Key} {nonce plaintext aad ciphertext : Bytes}

section Material

theorem key_eq_ok_iff :
    key m = .ok k ↔ ∃ bytes, m.bytes = 1 :: bytes ∧ bytes.length = 32 ∧ k = .ofBytes bytes := by
  have hsize : Aes.Key.size = 32 := rfl
  have hformat : format = 1 := rfl
  unfold key
  split
  · next h => simp [h]
  · next f bytes h =>
    simp only [h, List.cons.injEq, hsize, hformat]
    split
    · next hf => simp [hf]
    · next hf =>
      split
      · next hn => simp [hn]
      · next hn =>
        simp only [ne_eq, not_not] at hf hn
        simp [hf, hn, eq_comm]

theorem exists_key_iff : (∃ k, key m = .ok k) ↔ m.Sound := by
  simp only [key_eq_ok_iff, KeyMaterial.Sound]
  constructor
  · rintro ⟨_, bytes, hm, hn, -⟩
    exact ⟨bytes, hm, hn⟩
  · rintro ⟨bytes, hm, hn⟩
    exact ⟨_, bytes, hm, hn, rfl⟩

theorem key_cases (m : KeyMaterial) :
    (∃ k, key m = .ok k) ∨ ∃ fault, key m = .error (.invalidKeyMaterial fault) := by
  unfold key
  split
  · exact .inr ⟨_, rfl⟩
  · split
    · exact .inr ⟨_, rfl⟩
    · split
      · exact .inr ⟨_, rfl⟩
      · exact .inl ⟨_, rfl⟩

theorem exists_fault_of_not_sound (h : ¬ m.Sound) :
    ∃ fault, key m = .error (.invalidKeyMaterial fault) :=
  (key_cases m).resolve_left fun hk => h (exists_key_iff.mp hk)

theorem seals_iff : m.Seals nonce plaintext aad ciphertext ↔
    ∃ k, key m = .ok k ∧ sealUnder k nonce plaintext aad = .ok ciphertext := by
  simp only [key_eq_ok_iff, sealUnder_eq_ok_iff, KeyMaterial.Seals]
  constructor
  · rintro ⟨bytes, sealed, hm, hn, hs, hc⟩
    exact ⟨_, ⟨bytes, hm, hn, rfl⟩, sealed, hs, hc⟩
  · rintro ⟨_, ⟨bytes, hm, hn, rfl⟩, sealed, hs, hc⟩
    exact ⟨bytes, sealed, hm, hn, hs, hc⟩

end Material

end AesGcm

namespace KeyMaterial.Seals

variable {m : KeyMaterial} {nonce plaintext aad ciphertext : Bytes}

theorem sound (h : m.Seals nonce plaintext aad ciphertext) : m.Sound := by
  obtain ⟨bytes, _, hm, hn, -⟩ := h
  exact ⟨bytes, hm, hn⟩

theorem length_eq (h : m.Seals nonce plaintext aad ciphertext) :
    ciphertext.length = nonce.length + (plaintext.length + Gcm.tagSize) := by
  obtain ⟨_, _, -, -, hs, rfl⟩ := h
  obtain ⟨-, -, rfl⟩ := Gcm.seal?_eq_some_iff.mp hs
  simp only [List.length_append, Gcm.length_applyKeystream, Gcm.length_tag]

end KeyMaterial.Seals

namespace AesGcm

variable {m : KeyMaterial} {plaintext aad ciphertext : Bytes}

section Unsealing

theorem length_of_unsealWith (h : unsealWith m ciphertext aad = .ok plaintext) :
    ciphertext.length = Gcm.nonceSize + (plaintext.length + Gcm.tagSize) := by
  obtain ⟨_, nonce, sealed, -, hn, rfl, hu⟩ := unsealWith_eq_ok_iff.mp h
  obtain ⟨-, -, rfl⟩ := Gcm.unseal?_eq_some_iff.mp hu
  simp only [List.length_append, Gcm.length_applyKeystream, Gcm.length_tag, hn]

/-- A ciphertext opens to the plaintext that it is the encryption of, with its own nonce. Opening
admits a little more than encryption does, hence the bound on the size. -/
theorem unsealWith_eq_ok_iff_seals
    (hsize : ciphertext.length ≤ Gcm.nonceSize + (Gcm.maxSize + Gcm.tagSize)) :
    unsealWith m ciphertext aad = .ok plaintext ↔
      m.Seals (ciphertext.take Gcm.nonceSize) plaintext aad ciphertext := by
  constructor
  · intro h
    have hp : plaintext.length ≤ Gcm.maxSize := by
      have hl := length_of_unsealWith h
      omega
    obtain ⟨k, nonce, hk, hn, hs⟩ := (unsealWith_eq_ok_iff_sealUnder hp).mp h
    obtain ⟨sealed, -, rfl⟩ := sealUnder_eq_ok_iff.mp hs
    rw [← hn, List.take_left]
    exact seals_iff.mpr ⟨k, hk, hs⟩
  · intro h
    have hn : (ciphertext.take Gcm.nonceSize).length = Gcm.nonceSize := by
      have hl := h.length_eq
      rw [List.length_take] at hl ⊢
      have htag : Gcm.tagSize = 16 := rfl
      omega
    obtain ⟨k, hk, hs⟩ := seals_iff.mp h
    exact unsealWith_of_sealUnder hk hn hs

/-- How decryption ends: it is the first of these faults that counts. -/
theorem unsealWith_cases (m : KeyMaterial) (ciphertext aad : Bytes) :
    (∃ plaintext, unsealWith m ciphertext aad = .ok plaintext) ∨
    (ciphertext.length < 12 ∧ unsealWith m ciphertext aad = .error tooShort) ∨
    (12 ≤ ciphertext.length ∧ ¬ m.Sound ∧
      ∃ fault, unsealWith m ciphertext aad = .error (.invalidKeyMaterial fault)) ∨
    12 ≤ ciphertext.length ∧ m.Sound ∧
      unsealWith m ciphertext aad = .error notAuthentic := by
  have hnonce : Gcm.nonceSize = 12 := rfl
  rcases Nat.lt_or_ge ciphertext.length 12 with hlt | hge
  · exact .inr (.inl ⟨hlt, if_pos hlt⟩)
  · have hn : ¬ ciphertext.length < Gcm.nonceSize := Nat.not_lt.mpr hge
    by_cases hm : m.Sound
    · obtain ⟨k, hk⟩ := exists_key_iff.mpr hm
      rw [unsealWith, if_neg hn, hk]
      dsimp only
      split
      · next p hu => exact .inl ⟨p, rfl⟩
      · exact .inr (.inr (.inr ⟨hge, hm, rfl⟩))
    · obtain ⟨fault, hk⟩ := exists_fault_of_not_sound hm
      refine .inr (.inr (.inl ⟨hge, hm, fault, ?_⟩))
      rw [unsealWith, if_neg hn, hk]

end Unsealing

end AesGcm

namespace Environment.UsesAesGcm

variable {σ : Type} {env : Environment σ} {random : Nat → σ → Bytes × σ} {ctx : Context} {w w' : σ}
  {m : KeyMaterial} {plaintext aad ciphertext : Bytes}

theorem encrypt_eq_ok_iff (he : env.UsesAesGcm random) (hl : env.Live ctx w) :
    env.engine.encrypt ctx m plaintext aad w = .ok ciphertext w' ↔
      m.Seals (random Gcm.nonceSize w).1 plaintext aad ciphertext ∧
        w' = (random Gcm.nonceSize w).2 := by
  rw [he.engine, AesGcm.encrypt_eq_ok_iff, AesGcm.seals_iff]
  constructor
  · rintro ⟨k, nonce, v, hv, hk, hr, hs⟩
    rw [hl, EStateM.Result.ok.injEq] at hv
    obtain ⟨-, rfl⟩ := hv
    rw [hr]
    exact ⟨⟨k, hk, hs⟩, rfl⟩
  · rintro ⟨⟨k, hk, hs⟩, rfl⟩
    exact ⟨k, _, w, hl, hk, rfl, hs⟩

theorem decrypt_eq (he : env.UsesAesGcm random) (hl : env.Live ctx w) :
    env.engine.decrypt ctx m ciphertext aad w =
      ofResult (AesGcm.unsealWith m ciphertext aad) w := by
  rw [he.engine]
  exact bind_eq_of_ok (adaptExcept_eq_ok_iff.mpr hl)

theorem exists_encrypt_iff (he : env.UsesAesGcm random) (hl : env.Live ctx w)
    (hp : plaintext.length ≤ Gcm.maxSize) (ha : aad.length ≤ Gcm.maxSize) :
    (∃ c w', env.engine.encrypt ctx m plaintext aad w = .ok c w') ↔ m.Sound := by
  simp only [he.encrypt_eq_ok_iff hl]
  constructor
  · rintro ⟨_, _, h, -⟩
    exact h.sound
  · rintro ⟨bytes, hm, hn⟩
    exact ⟨_, _, ⟨bytes, _, hm, hn, Gcm.seal?_eq_some_iff.mpr ⟨hp, ha, rfl⟩, rfl⟩, rfl⟩

theorem length_of_encrypt (he : env.UsesAesGcm random) (hl : env.Live ctx w)
    (h : env.engine.encrypt ctx m plaintext aad w = .ok ciphertext w') :
    ciphertext.length = plaintext.length + 28 := by
  have hlength := ((he.encrypt_eq_ok_iff hl).mp h).1.length_eq
  have hnonce : Gcm.nonceSize = 12 := rfl
  have htag : Gcm.tagSize = 16 := rfl
  rw [he.length] at hlength
  omega

theorem decrypt_of_encrypt (he : env.UsesAesGcm random) (hl : env.Live ctx w)
    (h : env.engine.encrypt ctx m plaintext aad w = .ok ciphertext w') {ctx' : Context} {v : σ}
    (hv : env.Live ctx' v) : env.engine.decrypt ctx' m ciphertext aad v = .ok plaintext v := by
  obtain ⟨k, hk, hs⟩ := AesGcm.seals_iff.mp ((he.encrypt_eq_ok_iff hl).mp h).1
  rw [he.decrypt_eq hv, AesGcm.unsealWith_of_sealUnder hk (he.length _ _) hs, ofResult_ok]

theorem decrypt_eq_ok_iff_seals (he : env.UsesAesGcm random) (hl : env.Live ctx w)
    (hsize : ciphertext.length ≤ Gcm.nonceSize + (Gcm.maxSize + Gcm.tagSize)) :
    env.engine.decrypt ctx m ciphertext aad w = .ok plaintext w' ↔
      w' = w ∧ m.Seals (ciphertext.take Gcm.nonceSize) plaintext aad ciphertext := by
  rw [he.decrypt_eq hl, ofResult_eq_ok_iff, AesGcm.unsealWith_eq_ok_iff_seals hsize, and_comm,
    eq_comm]

theorem sound_of_decrypt (he : env.UsesAesGcm random) (hl : env.Live ctx w)
    (h : env.engine.decrypt ctx m ciphertext aad w = .ok plaintext w') :
    m.Sound ∧ 28 ≤ ciphertext.length := by
  rw [he.decrypt_eq hl, ofResult_eq_ok_iff] at h
  obtain ⟨k, _, _, hk, -⟩ := AesGcm.unsealWith_eq_ok_iff.mp h.1
  have hlength := AesGcm.length_of_unsealWith h.1
  have hnonce : Gcm.nonceSize = 12 := rfl
  have htag : Gcm.tagSize = 16 := rfl
  exact ⟨AesGcm.exists_key_iff.mp ⟨k, hk⟩, by omega⟩

theorem encrypt_of_decrypt (he : env.UsesAesGcm random) (hl : env.Live ctx w)
    (hsize : ciphertext.length ≤ Gcm.nonceSize + (Gcm.maxSize + Gcm.tagSize))
    (h : env.engine.decrypt ctx m ciphertext aad w = .ok plaintext w') {ctx' : Context} {v : σ}
    (hv : env.Live ctx' v)
    (hnonce : (random Gcm.nonceSize v).1 = ciphertext.take Gcm.nonceSize) :
    env.engine.encrypt ctx' m plaintext aad v = .ok ciphertext (random Gcm.nonceSize v).2 := by
  rw [he.encrypt_eq_ok_iff hv, hnonce]
  exact ⟨((he.decrypt_eq_ok_iff_seals hl hsize).mp h).2, rfl⟩

theorem decrypt_cases (he : env.UsesAesGcm random) (hl : env.Live ctx w) (m : KeyMaterial)
    (ciphertext aad : Bytes) :
    (∃ plaintext, env.engine.decrypt ctx m ciphertext aad w = .ok plaintext w) ∨
    (ciphertext.length < 12 ∧
      env.engine.decrypt ctx m ciphertext aad w = .error AesGcm.tooShort w) ∨
    (12 ≤ ciphertext.length ∧ ¬ m.Sound ∧ ∃ fault,
      env.engine.decrypt ctx m ciphertext aad w = .error (.invalidKeyMaterial fault) w) ∨
    12 ≤ ciphertext.length ∧ m.Sound ∧
      env.engine.decrypt ctx m ciphertext aad w = .error AesGcm.notAuthentic w := by
  rw [he.decrypt_eq hl]
  rcases AesGcm.unsealWith_cases m ciphertext aad with
    ⟨plaintext, h⟩ | ⟨hn, h⟩ | ⟨hn, hm, fault, h⟩ | ⟨hn, hm, h⟩
  · exact .inl ⟨plaintext, by rw [h, ofResult_ok]⟩
  · exact .inr (.inl ⟨hn, by rw [h, ofResult_error]⟩)
  · exact .inr (.inr (.inl ⟨hn, hm, fault, by rw [h, ofResult_error]⟩))
  · exact .inr (.inr (.inr ⟨hn, hm, by rw [h, ofResult_error]⟩))

/-- Encryption succeeds exactly under sound material, with the one ciphertext that the drawn nonce
determines. Decryption is its inverse on both sides, and where it has no plaintext to give it names
the first fault. -/
theorem decrypt_inverts_encrypt (he : env.UsesAesGcm random) (hl : env.Live ctx w)
    (m : KeyMaterial) (aad : Bytes) (ha : aad.length ≤ Gcm.maxSize) :
    (∀ plaintext : Bytes, plaintext.length ≤ Gcm.maxSize →
      ((∃ c w', env.engine.encrypt ctx m plaintext aad w = .ok c w') ↔ m.Sound)) ∧
    (∀ plaintext c w', env.engine.encrypt ctx m plaintext aad w = .ok c w' ↔
      m.Seals (random Gcm.nonceSize w).1 plaintext aad c ∧ w' = (random Gcm.nonceSize w).2) ∧
    (∀ plaintext c w', env.engine.encrypt ctx m plaintext aad w = .ok c w' →
      c.length = plaintext.length + 28 ∧
      ∀ ctx' v, env.Live ctx' v → env.engine.decrypt ctx' m c aad v = .ok plaintext v) ∧
    ∀ c : Bytes, c.length ≤ Gcm.nonceSize + (Gcm.maxSize + Gcm.tagSize) →
      (∀ plaintext w', env.engine.decrypt ctx m c aad w = .ok plaintext w' ↔
        w' = w ∧ m.Sound ∧ 28 ≤ c.length ∧ m.Seals (c.take Gcm.nonceSize) plaintext aad c) ∧
      (∀ plaintext w', env.engine.decrypt ctx m c aad w = .ok plaintext w' →
        ∀ ctx' v, env.Live ctx' v → (random Gcm.nonceSize v).1 = c.take Gcm.nonceSize →
          env.engine.encrypt ctx' m plaintext aad v = .ok c (random Gcm.nonceSize v).2) ∧
      ((∃ plaintext, env.engine.decrypt ctx m c aad w = .ok plaintext w) ∨
        (c.length < 12 ∧ env.engine.decrypt ctx m c aad w = .error AesGcm.tooShort w) ∨
        (12 ≤ c.length ∧ ¬ m.Sound ∧ ∃ fault,
          env.engine.decrypt ctx m c aad w = .error (.invalidKeyMaterial fault) w) ∨
        12 ≤ c.length ∧ m.Sound ∧
          env.engine.decrypt ctx m c aad w = .error AesGcm.notAuthentic w) := by
  refine ⟨fun plaintext hp => he.exists_encrypt_iff hl hp ha,
    fun plaintext c w' => he.encrypt_eq_ok_iff hl,
    fun plaintext c w' h => ⟨he.length_of_encrypt hl h, fun ctx' v hv =>
      he.decrypt_of_encrypt hl h hv⟩,
    fun c hsize => ⟨fun plaintext w' => ?_, fun plaintext w' h ctx' v hv hnonce =>
      he.encrypt_of_decrypt hl hsize h hv hnonce, he.decrypt_cases hl m c aad⟩⟩
  constructor
  · intro h
    obtain ⟨hw, hs⟩ := (he.decrypt_eq_ok_iff_seals hl hsize).mp h
    obtain ⟨hm, hn⟩ := he.sound_of_decrypt hl h
    exact ⟨hw, hm, hn, hs⟩
  · rintro ⟨hw, -, -, hs⟩
    exact (he.decrypt_eq_ok_iff_seals hl hsize).mpr ⟨hw, hs⟩

end Environment.UsesAesGcm

namespace Sample

/-- Three bytes are encrypted into 31, which any live context decrypts. -/
theorem sample_inversion : ∃ c w', Sample.env.engine.encrypt Sample.ctx
      ⟨1 :: List.replicate 32 7⟩ [1, 2, 3] [4] Sample.world = .ok c w' ∧ c.length = 31 ∧
    ∀ ctx' v, Sample.env.Live ctx' v → Sample.env.engine.decrypt ctx'
      ⟨1 :: List.replicate 32 7⟩ c [4] v = .ok [1, 2, 3] v := by
  obtain ⟨random, he⟩ := World.usesAesGcm_random
  obtain ⟨hencrypts, -, hback, -⟩ := he.decrypt_inverts_encrypt
    (show Sample.env.Live Sample.ctx Sample.world from rfl) ⟨1 :: List.replicate 32 7⟩ [4]
    (by decide)
  obtain ⟨c, w', h⟩ := (hencrypts [1, 2, 3] (by decide)).mpr
    ⟨List.replicate 32 7, rfl, List.length_replicate⟩
  obtain ⟨hlength, hd⟩ := hback _ _ _ h
  exact ⟨c, w', h, hlength, hd⟩

end Sample

end KeyManagement
