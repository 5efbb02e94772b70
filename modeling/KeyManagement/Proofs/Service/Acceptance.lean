import KeyManagement.Proofs.Service.Ciphertext
import KeyManagement.Proofs.Service.History

/-! # What decryption accepts

With the AES-256-GCM engine every stage of decryption is exact: the envelope, the name of
the version, the nonce and the tag. Decryption therefore accepts nothing but the payloads
that encryption under some version of the crypto key gives.
-/

namespace KeyManagement

variable {σ : Type} {env : Environment σ} {random : Nat → σ → Bytes × σ}

/-- The payload is the plaintext sealed under the version with the given nonce. -/
def VersionRecord.Seals (rec : VersionRecord) (nonce plaintext aad payload : Bytes) : Prop :=
  ∃ k body, AesGcm.key rec.material = .ok k ∧ AesGcm.sealUnder k nonce plaintext aad = .ok body ∧
    Envelope.wrap rec.version.name body = .ok payload

/-- A payload tells the version of a crypto key, the nonce and the plaintext. -/
theorem VersionRecord.Seals.inj {record : KeyRecord} {rec rec' : VersionRecord}
    {nonce nonce' plaintext plaintext' aad payload : Bytes}
    (hf : record.versions.find? rec.version.name = some rec)
    (hf' : record.versions.find? rec'.version.name = some rec')
    (hn : nonce.length = Gcm.nonceSize) (hn' : nonce'.length = Gcm.nonceSize)
    (h : rec.Seals nonce plaintext aad payload) (h' : rec'.Seals nonce' plaintext' aad payload) :
    rec = rec' ∧ nonce = nonce' ∧ plaintext = plaintext' := by
  obtain ⟨k, body, hk, hb, hw⟩ := h
  obtain ⟨k', body', hk', hb', hw'⟩ := h'
  have hu := (Envelope.unwrap_eq_ok_iff_wrap.mpr hw).symm.trans
    (Envelope.unwrap_eq_ok_iff_wrap.mpr hw')
  simp only [Except.ok.injEq, Prod.mk.injEq] at hu
  obtain ⟨hname, rfl⟩ := hu
  rw [hname, hf', Option.some.injEq] at hf
  subst hf
  obtain rfl : k = k' := Except.ok.inj (hk.symm.trans hk')
  exact ⟨rfl, AesGcm.sealUnder_inj hk hn hn' hb hb'⟩

namespace Service

variable {st : State Store σ} {ctx : Context} {name : String} {record : KeyRecord}
  {payload plaintext aad : Bytes}

theorem decrypts_iff_seals (he : env.UsesAesGcm random) (hs : st.store.WellFormed)
    (hr : st.store.findKey? name = some record) (hl : env.Live ctx st.world)
    (hp : plaintext.length ≤ Gcm.maxSize) :
    (∃ r st', perform env ctx (.decrypt { name, ciphertext := payload, aad }) st =
      .ok (.decrypted r) st' ∧ r.plaintext = plaintext) ↔
    ∃ rec nonce, record.versions.find? rec.version.name = some rec ∧
      nonce.length = Gcm.nonceSize ∧ rec.Seals nonce plaintext aad payload := by
  simp only [perform_decrypt_eq_ok_iff]
  constructor
  · rintro ⟨r, st', h, rfl⟩
    obtain ⟨rec, body, v, -, -, -, hf, hw, hd, -⟩ :=
      (decrypt_eq_ok_iff_version hs { name, ciphertext := payload, aad } hr).mp h
    rw [he.engine, AesGcm.decrypt_eq_ok_iff, AesGcm.unsealWith_eq_ok_iff_sealUnder hp] at hd
    obtain ⟨-, k, nonce, hk, hn, hb⟩ := hd
    exact ⟨rec, nonce, hf, hn, k, body, hk, hb, hw⟩
  · rintro ⟨rec, nonce, hf, hn, k, body, hk, hb, hw⟩
    have hd : env.engine.decrypt ctx rec.material body aad st.world = .ok plaintext st.world := by
      rw [he.engine, AesGcm.decrypt_eq_ok_iff]
      exact ⟨hl, AesGcm.unsealWith_of_sealUnder hk hn hb⟩
    refine ⟨{
      plaintext
      plaintextCrc := Checksum.toWire (Checksum.crc32c plaintext)
      usedPrimary := record.key.primary.any (·.name == rec.version.name) }, st, ?_, rfl⟩
    exact Iff.mpr (decrypt_eq_ok_iff_version hs _ hr)
      ⟨rec, body, st.world, hl, .inl rfl, .inl rfl, hf, hw, hd, rfl, rfl, rfl⟩

theorem encrypts_iff_seals (he : env.UsesAesGcm random) (hs : st.store.WellFormed)
    (hr : st.store.findKey? name = some record) (hl : env.Live ctx st.world)
    {rec : VersionRecord} (hp : record.key.primary = some rec.version)
    (hf : record.versions.find? rec.version.name = some rec) :
    (∃ r st', perform env ctx (.encrypt { name, plaintext, aad }) st = .ok (.encrypted r) st' ∧
      r.ciphertext = payload) ↔
    rec.Seals (random Gcm.nonceSize st.world).1 plaintext aad payload := by
  simp only [perform_encrypt_eq_ok_iff]
  constructor
  · rintro ⟨r, st', h, rfl⟩
    obtain ⟨rec', body, v, hv, hp', hf', -, -, hb, hw, -⟩ :=
      (encrypt_eq_ok_iff_primary hs { name, plaintext, aad } hr).mp h
    rw [hp, Option.some.injEq] at hp'
    rw [← hp', hf, Option.some.injEq] at hf'
    subst hf'
    rw [hl, EStateM.Result.ok.injEq] at hv
    rw [← hv.2, he.engine] at hb
    obtain ⟨k, nonce, v', hv', hk, hn, hb⟩ := AesGcm.encrypt_eq_ok_iff.mp hb
    rw [hl, EStateM.Result.ok.injEq] at hv'
    rw [hv'.2, hn]
    exact ⟨k, body, hk, hb, hw⟩
  · rintro ⟨k, body, hk, hb, hw⟩
    have hb : env.engine.encrypt ctx rec.material plaintext aad st.world =
        .ok body (random Gcm.nonceSize st.world).2 := by
      rw [he.engine, AesGcm.encrypt_eq_ok_iff]
      exact ⟨k, _, st.world, hl, hk, rfl, hb⟩
    refine ⟨{
      name := rec.version.name
      ciphertext := payload
      ciphertextCrc := Checksum.toWire (Checksum.crc32c payload)
      verifiedPlaintext := false
      verifiedAad := false }, ⟨st.store, (random Gcm.nonceSize st.world).2⟩, ?_, rfl⟩
    exact Iff.mpr (encrypt_eq_ok_iff_primary hs _ hr)
      ⟨rec, body, st.world, hl, hp, hf, rfl, rfl, hb, hw, rfl, rfl, rfl⟩

/-- Decryption accepts exactly the payloads that seal a plaintext under some version of the
crypto key, and these payloads, each of a single plaintext, are what encryption returns when
it draws the nonce for that version. The bound is the one that encryption puts on sizes. -/
theorem decrypt_accepts_exactly (he : env.UsesAesGcm random) (hst : Reachable env st)
    (hr : st.store.findKey? name = some record) (hl : env.Live ctx st.world)
    (payload aad : Bytes) :
    (∀ plaintext, plaintext.length ≤ Gcm.maxSize →
      ((∃ r st', perform env ctx (.decrypt { name, ciphertext := payload, aad }) st =
        .ok (.decrypted r) st' ∧ r.plaintext = plaintext) ↔
      ∃ rec nonce, record.versions.find? rec.version.name = some rec ∧
        nonce.length = Gcm.nonceSize ∧ rec.Seals nonce plaintext aad payload)) ∧
    (∀ rec rec' nonce nonce' plaintext plaintext',
      record.versions.find? rec.version.name = some rec → nonce.length = Gcm.nonceSize →
      record.versions.find? rec'.version.name = some rec' → nonce'.length = Gcm.nonceSize →
      rec.Seals nonce plaintext aad payload → rec'.Seals nonce' plaintext' aad payload →
      rec = rec' ∧ nonce = nonce' ∧ plaintext = plaintext') ∧
    ∀ rec plaintext, record.key.primary = some rec.version →
      record.versions.find? rec.version.name = some rec →
      ((∃ r st', perform env ctx (.encrypt { name, plaintext, aad }) st =
        .ok (.encrypted r) st' ∧ r.ciphertext = payload) ↔
      rec.Seals (random Gcm.nonceSize st.world).1 plaintext aad payload) := by
  refine ⟨fun plaintext hp => ?_, ?_, fun rec plaintext hp hf => ?_⟩
  · exact decrypts_iff_seals he hst.wellFormed hr hl hp
  · intro rec rec' nonce nonce' plaintext plaintext' hf hn hf' hn' h h'
    exact h.inj hf hf' hn hn' h'
  · exact encrypts_iff_seals he hst.wellFormed hr hl hp hf

theorem sample_accepts_exactly : ∃ record,
    Sample.created.store.findKey? (Sample.key "k") = some record ∧ ∀ payload,
      (∃ r st', perform Sample.env Sample.ctx
        (.decrypt { name := Sample.key "k", ciphertext := payload }) Sample.created =
          .ok (.decrypted r) st' ∧ r.plaintext = [1, 2, 3]) ↔
      ∃ rec nonce, record.versions.find? rec.version.name = some rec ∧
        nonce.length = Gcm.nonceSize ∧ rec.Seals nonce [1, 2, 3] [] payload := by
  obtain ⟨random, he⟩ := World.usesAesGcm_random
  obtain ⟨record, hr⟩ := Sample.exists_findKey?_created (.inl rfl)
  have hl : Sample.env.Live Sample.ctx Sample.created.world := rfl
  refine ⟨record, hr, fun payload => ?_⟩
  exact (decrypt_accepts_exactly he Sample.reachable_created hr hl payload []).1 [1, 2, 3]
    (by decide)

end Service

end KeyManagement
