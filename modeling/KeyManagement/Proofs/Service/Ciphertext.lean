import KeyManagement.Proofs.Engine.AesGcm
import KeyManagement.Proofs.Envelope
import KeyManagement.Proofs.Service.Success
import KeyManagement.Proofs.Store.WellFormed

/-! # Encryption and decryption on well-formed stores

On a well-formed store both operations work on one record of the crypto key: encryption on
that of the primary, and decryption on that of the version which the payload names.
-/

namespace KeyManagement

/-- Checksums that no data are rejected for: absent, or zero in its place, or right. -/
def Checksum.Accepted (data : Bytes) (supplied : Option Int) : Prop :=
  supplied = none ∨ supplied = some 0 ∨ supplied = some (toWire (crc32c data))

namespace Service

variable {σ : Type} {env : Environment σ} {ctx : Context} {st st' : State Store σ}

theorem exists_verifyChecksum_iff {data : Bytes} {supplied : Option Int} :
    (∃ verified, verifyChecksum data supplied = .ok verified) ↔
      Checksum.Accepted data supplied := by
  simp only [verifyChecksum_eq_ok_iff, Checksum.Accepted]
  constructor
  · rintro ⟨_, ⟨hn | hz, -⟩ | ⟨hc, -, -⟩⟩
    · exact .inl hn
    · exact .inr (.inl hz)
    · exact .inr (.inr hc)
  · rintro (hn | hz | hc)
    · exact ⟨false, .inl ⟨.inl hn, rfl⟩⟩
    · exact ⟨false, .inl ⟨.inr hz, rfl⟩⟩
    · by_cases h0 : supplied = some 0
      · exact ⟨false, .inl ⟨.inr h0, rfl⟩⟩
      · exact ⟨true, .inr ⟨hc, h0, rfl⟩⟩

theorem perform_encrypt_eq_ok_iff {request : EncryptRequest} {r : EncryptResponse} :
    perform env ctx (.encrypt request) st = .ok (.encrypted r) st' ↔
      encrypt env ctx request st = .ok r st' := by
  simp [perform]

theorem perform_decrypt_eq_ok_iff {request : DecryptRequest} {r : DecryptResponse} :
    perform env ctx (.decrypt request) st = .ok (.decrypted r) st' ↔
      decrypt env ctx request st = .ok r st' := by
  simp [perform]

theorem findKey?_of_encrypt {request : EncryptRequest} {r : EncryptResponse}
    (h : encrypt env ctx request st = .ok r st') :
    ∃ record, st.store.findKey? request.name = some record := by
  obtain ⟨_, _, _, _, _, _, _, _, -, -, hk, -⟩ := encrypt_eq_ok_iff.mp h
  obtain ⟨record, hr, -⟩ := Store.getCryptoKey_eq_ok_iff.mp hk
  exact ⟨record, hr⟩

theorem accepted_of_encrypt {request : EncryptRequest} {r : EncryptResponse}
    (h : encrypt env ctx request st = .ok r st') {supplied : Option Int}
    (hc : supplied = none ∨ supplied = some r.ciphertextCrc) :
    Checksum.Accepted r.ciphertext supplied := by
  obtain ⟨_, _, _, _, _, _, _, _, -, -, -, -, -, -, -, -, -, -, hcrc, -⟩ := encrypt_eq_ok_iff.mp h
  rcases hc with hc | hc
  · exact .inl hc
  · rw [hcrc] at hc
    exact .inr (.inr hc)

/-- Encryption seals under the material of the primary, in an envelope with its name. -/
theorem encrypt_eq_ok_iff_primary (hs : st.store.WellFormed) (request : EncryptRequest)
    {r : EncryptResponse} {record : KeyRecord}
    (hr : st.store.findKey? request.name = some record) :
    encrypt env ctx request st = .ok r st' ↔ ∃ rec body v,
      env.check ctx st.world = .ok () v ∧ record.key.primary = some rec.version ∧
      record.versions.find? rec.version.name = some rec ∧
      verifyChecksum request.plaintext request.plaintextCrc = .ok r.verifiedPlaintext ∧
      verifyChecksum request.aad request.aadCrc = .ok r.verifiedAad ∧
      env.engine.encrypt ctx rec.material request.plaintext request.aad v = .ok body st'.world ∧
      Envelope.wrap rec.version.name body = .ok r.ciphertext ∧ r.name = rec.version.name ∧
      r.ciphertextCrc = Checksum.toWire (Checksum.crc32c r.ciphertext) ∧
      st'.store = st.store := by
  obtain ⟨s, w⟩ := st
  obtain ⟨s', w'⟩ := st'
  rw [encrypt_eq_ok_iff]
  constructor
  · rintro ⟨n, key, primary, version, material, body, v, _, hv, -, hk, hp, hvp, hva, hg, he, hw, hn,
      hc, ⟨⟩⟩
    obtain ⟨_, hr', rfl⟩ := Store.getCryptoKey_eq_ok_iff.mp hk
    obtain rfl := Option.some.inj (hr.symm.trans hr')
    obtain ⟨_, rec, hp', hf, rfl⟩ := (hs.findKey hr).primary
    obtain rfl := Option.some.inj (hp.symm.trans hp')
    obtain ⟨-, -, -, hf'⟩ := (hs.find?_versions_iff hr).mp hf
    obtain rfl := Option.some.inj (hf'.symm.trans (Store.getVersion_eq_ok_iff.mp hg))
    exact ⟨_, body, v, hv, hp, hf, hvp, hva, he, hw, hn, hc, rfl⟩
  · rintro ⟨⟨version, material⟩, body, v, hv, hp, hf, hvp, hva, he, hw, hn, hc, rfl⟩
    obtain ⟨n, -, hn', -, -⟩ := Store.findKey?_eq_some_iff.mp hr
    obtain ⟨-, -, -, hf'⟩ := (hs.find?_versions_iff hr).mp hf
    exact ⟨n, record.key, version, version, material, body, v, w', hv, hn',
      Store.getCryptoKey_eq_ok_iff.mpr ⟨record, hr, rfl⟩, hp, hvp, hva,
      Store.getVersion_eq_ok_iff.mpr hf', he, hw, hn, hc, rfl⟩

/-- Decryption opens the envelope of a version of the crypto key with the material of the
version. -/
theorem decrypt_eq_ok_iff_version (hs : st.store.WellFormed) (request : DecryptRequest)
    {r : DecryptResponse} {record : KeyRecord}
    (hr : st.store.findKey? request.name = some record) :
    decrypt env ctx request st = .ok r st' ↔ ∃ rec body v,
      env.check ctx st.world = .ok () v ∧
      Checksum.Accepted request.ciphertext request.ciphertextCrc ∧
      Checksum.Accepted request.aad request.aadCrc ∧
      record.versions.find? rec.version.name = some rec ∧
      Envelope.wrap rec.version.name body = .ok request.ciphertext ∧
      env.engine.decrypt ctx rec.material body request.aad v = .ok r.plaintext st'.world ∧
      r.plaintextCrc = Checksum.toWire (Checksum.crc32c r.plaintext) ∧
      r.usedPrimary = record.key.primary.any (·.name == rec.version.name) ∧
      st'.store = st.store := by
  obtain ⟨s, w⟩ := st
  obtain ⟨s', w'⟩ := st'
  rw [decrypt_eq_ok_iff]
  constructor
  · rintro ⟨n, key, vc, va, name, body, parsed, version, material, v, _, hv, -, hk, hvc, hva, hu,
      hp, he, hg, hd, hc, hused, ⟨⟩⟩
    obtain ⟨_, hr', rfl⟩ := Store.getCryptoKey_eq_ok_iff.mp hk
    obtain rfl := Option.some.inj (hr.symm.trans hr')
    have hf := (hs.find?_versions_iff hr).mpr
      ⟨parsed, hp, he, Store.getVersion_eq_ok_iff.mp hg⟩
    obtain rfl := (hs.findKey hr).filed _ _ hf
    exact ⟨⟨version, material⟩, body, v, hv, exists_verifyChecksum_iff.mp ⟨vc, hvc⟩,
      exists_verifyChecksum_iff.mp ⟨va, hva⟩, hf, Envelope.unwrap_eq_ok_iff_wrap.mp hu, hd, hc,
      hused, rfl⟩
  · rintro ⟨⟨version, material⟩, body, v, hv, hvc, hva, hf, hu, hd, hc, hused, rfl⟩
    obtain ⟨n, -, hn, -, -⟩ := Store.findKey?_eq_some_iff.mp hr
    obtain ⟨vc, hvc⟩ := exists_verifyChecksum_iff.mpr hvc
    obtain ⟨va, hva⟩ := exists_verifyChecksum_iff.mpr hva
    obtain ⟨parsed, hp, he, hf'⟩ := (hs.find?_versions_iff hr).mp hf
    exact ⟨n, record.key, vc, va, version.name, body, parsed, version, material, v, w', hv, hn,
      Store.getCryptoKey_eq_ok_iff.mpr ⟨record, hr, rfl⟩, hvc, hva,
      Envelope.unwrap_eq_ok_iff_wrap.mpr hu, hp, he, Store.getVersion_eq_ok_iff.mpr hf', hd, hc,
      hused, rfl⟩

end Service

end KeyManagement
