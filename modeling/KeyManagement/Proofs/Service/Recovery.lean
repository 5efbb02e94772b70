import KeyManagement.Proofs.Service.Ciphertext
import KeyManagement.Proofs.Service.History

/-! # Recovering plaintexts

A ciphertext names the version that sealed it, and a version that was once found keeps its
material for ever. If the engine inverts itself, then a plaintext can be recovered from its
ciphertext after any later history.
-/

namespace KeyManagement

variable {σ : Type} {env : Environment σ}

/-- What the engine seals under material of its own making it opens again, under any live
context. -/
def Environment.Recovers (env : Environment σ) : Prop :=
  ∀ m, env.Generates m → ∀ ctx plaintext aad ciphertext w w',
    env.engine.encrypt ctx m plaintext aad w = .ok ciphertext w' →
    ∀ ctx' v, env.Live ctx' v →
      ∃ v', env.engine.decrypt ctx' m ciphertext aad v = .ok plaintext v'

theorem Environment.UsesAesGcm.recovers {random : Nat → σ → Bytes × σ}
    (h : env.UsesAesGcm random) : env.Recovers := by
  intro m _ ctx plaintext aad ciphertext w w' he ctx' v hv
  rw [h.engine] at he ⊢
  obtain ⟨k, nonce, w₁, -, hk, hn, hs⟩ := AesGcm.encrypt_eq_ok_iff.mp he
  have hlen : nonce.length = Gcm.nonceSize := by
    rw [← h.length Gcm.nonceSize w₁, hn]
  exact ⟨v, AesGcm.decrypt_eq_ok_iff.mpr ⟨hv, AesGcm.unsealWith_of_sealUnder hk hlen hs⟩⟩

namespace Service

theorem any_primary_iff {s : Store} {name version : String} {record : KeyRecord}
    (h : s.findKey? name = some record) :
    record.key.primary.any (·.name == version) = true ↔ ∃ key primary,
      s.getCryptoKey name = .ok key ∧ key.primary = some primary ∧ primary.name = version := by
  simp only [Option.any_eq_true, beq_iff_eq]
  constructor
  · rintro ⟨primary, hp, hv⟩
    exact ⟨record.key, primary, Store.getCryptoKey_eq_ok_iff.mpr ⟨record, h, rfl⟩, hp, hv⟩
  · rintro ⟨_, primary, hk, hp, hv⟩
    obtain ⟨_, hr, rfl⟩ := Store.getCryptoKey_eq_ok_iff.mp hk
    obtain rfl := Option.some.inj (h.symm.trans hr)
    exact ⟨primary, hp, hv⟩

/-- Encryption leaves a record of the version that it used, from whose material the engine
recovers the plaintext. -/
theorem recovers_of_encrypt (he : env.Recovers) {st st' : State Store σ}
    (hs : st.store.WellFormed)
    (hg : st.store.EveryVersion fun rec => env.Generates rec.material) {ctx : Context}
    {request : EncryptRequest} {r : EncryptResponse}
    (h : encrypt env ctx request st = .ok r st') :
    ∃ record rec body, st.store.findKey? request.name = some record ∧
      record.versions.find? r.name = some rec ∧ rec.version.name = r.name ∧
      Envelope.wrap r.name body = .ok r.ciphertext ∧
      ∀ ctx' v, env.Live ctx' v → ∃ v',
        env.engine.decrypt ctx' rec.material body request.aad v = .ok request.plaintext v' := by
  obtain ⟨record, hr⟩ := findKey?_of_encrypt h
  obtain ⟨rec, body, v, -, -, hf, -, -, hb, hw, hn, -⟩ :=
    (encrypt_eq_ok_iff_primary hs request hr).mp h
  rw [← hn] at hf hw
  have hm : env.Generates rec.material := hg _ _ _ _ hr hf
  exact ⟨record, rec, body, hr, hf, hn.symm, hw, he _ hm _ _ _ _ _ _ hb⟩

/-- An encryption can be undone after every later history, and the answer tells whether the
version that sealed the data is still the primary. -/
theorem decrypt_after_history (he : env.Recovers ∨ ∃ random, env.UsesAesGcm random)
    {st st' : State Store σ} (hst : Reachable env st) {ctx ctx' : Context}
    {request : EncryptRequest} {r : EncryptResponse}
    (h : perform env ctx (.encrypt request) st = .ok (.encrypted r) st')
    (after : List (Event σ)) {ciphertextCrc aadCrc : Option Int}
    (hc : ciphertextCrc = none ∨ ciphertextCrc = some r.ciphertextCrc)
    (ha : Checksum.Accepted request.aad aadCrc) (hl : env.Live ctx' (run env st' after).world) :
    ∃ usedPrimary st'', perform env ctx' (.decrypt {
        name := request.name, ciphertext := r.ciphertext, aad := request.aad,
        ciphertextCrc, aadCrc }) (run env st' after) =
      .ok (.decrypted {
        plaintext := request.plaintext
        plaintextCrc := Checksum.toWire (Checksum.crc32c request.plaintext)
        usedPrimary }) st'' ∧
      (usedPrimary = true ↔ ∃ key primary,
        (run env st' after).store.getCryptoKey request.name = .ok key ∧
        key.primary = some primary ∧ primary.name = r.name) := by
  have he : env.Recovers := by
    rcases he with he | ⟨random, he⟩
    · exact he
    · exact he.recovers
  have henc := perform_encrypt_eq_ok_iff.mp h
  have hstore : st'.store = st.store := (keeps_perform rfl).of_ok h
  obtain ⟨record, rec, body, hr, hf, hv, hw, hd⟩ :=
    recovers_of_encrypt he hst.wellFormed hst.generated henc
  have hs : st'.store.WellFormed := by
    rw [hstore]
    exact hst.wellFormed
  rw [← hstore] at hr
  -- The later record of the crypto key has the version, with the same material.
  obtain ⟨record', hr', hgrows⟩ := (grows_run env st' after).keys _ record hr
  have hf' := hgrows.versions _ rec hf
  obtain ⟨v, hd⟩ := hd ctx' _ hl
  have hc : Checksum.Accepted r.ciphertext ciphertextCrc := accepted_of_encrypt henc hc
  rw [← hv] at hf' hw ⊢
  refine ⟨record'.key.primary.any (·.name == rec.version.name), ⟨(run env st' after).store, v⟩,
    perform_decrypt_eq_ok_iff.mpr ?_, any_primary_iff hr'⟩
  exact Iff.mpr (decrypt_eq_ok_iff_version (wellFormed_run env hs after) _ hr')
    ⟨rec, body, _, hl, hc, ha, hf', hw, hd, rfl, rfl, rfl⟩

theorem decrypt_after_rotation : ∃ r st usedPrimary st',
    perform Sample.env Sample.ctx (.encrypt Sample.request) Sample.created =
      .ok (.encrypted r) st ∧
    perform Sample.env Sample.ctx (.decrypt {
        name := Sample.key "k"
        ciphertext := r.ciphertext
        ciphertextCrc := some r.ciphertextCrc }) (run Sample.env st Sample.rotation) =
      .ok (.decrypted {
        plaintext := [1, 2, 3]
        plaintextCrc := Checksum.toWire (Checksum.crc32c [1, 2, 3])
        usedPrimary }) st' := by
  obtain ⟨r, st, h⟩ := Sample.exists_encrypted
  have hl : Sample.env.Live Sample.ctx (run Sample.env st Sample.rotation).world := rfl
  obtain ⟨usedPrimary, st', hd, -⟩ := decrypt_after_history (.inr World.usesAesGcm_random)
    Sample.reachable_created h Sample.rotation (.inr rfl) (.inl rfl) hl
  exact ⟨r, st, usedPrimary, st', h, hd⟩

end Service

end KeyManagement
