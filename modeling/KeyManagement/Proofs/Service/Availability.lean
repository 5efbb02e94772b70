import KeyManagement.Proofs.Engine.Keys
import KeyManagement.Proofs.Name.Identifier
import KeyManagement.Proofs.Service.Recovery
import KeyManagement.Proofs.Text.Utf8
import Mathlib.Data.Nat.Digits.Defs

/-! # Encryption and decryption are available

Under a live context data of a size that AES-GCM admits can be encrypted under each crypto key:
its primary is there with sound material, and the name of a version always fits into the
envelope. What was encrypted can be decrypted while the store grows.
-/

namespace KeyManagement

section Sizes

theorem utf8ByteSize_le_of_isId {s : String} (h : isId s = true) : s.utf8ByteSize ≤ 63 := by
  simp only [isId, Bool.and_eq_true, decide_eq_true_eq] at h
  exact h.2

theorem Decimal.utf8ByteSize_render_le {n : Nat} (h : n < versionNumberLimit) :
    (Decimal.render n).utf8ByteSize ≤ 20 := by
  have hdigits : ∀ c ∈ (Decimal.render n).toList, IdentifierChar c := fun c hc =>
    .inr (.inr (.inl ((isVersionId_iff.mp (isVersionId_render n)).chars c hc)))
  rw [utf8ByteSize_of_identifierChars hdigits, ← String.length_toList, Decimal.toList_render]
  exact Nat.toDigits_length 10 n 20 (by decide) (Nat.lt_trans h (by decide))

theorem CryptoKeyName.length_version_le {k : CryptoKeyName} (hk : k.Valid) {i : Nat}
    (hi : i < versionNumberLimit) :
    (Bytes.ofText (k.version i).resourceName).length ≤ Envelope.maxNameSize := by
  have hproject := utf8ByteSize_le_of_isId hk.1.1.1
  have hlocation := utf8ByteSize_le_of_isId hk.1.1.2
  have hring := utf8ByteSize_le_of_isId hk.1.2
  have hkey := utf8ByteSize_le_of_isId hk.2
  have hversion := Decimal.utf8ByteSize_render_le hi
  have hliterals : "projects/".utf8ByteSize + "/locations/".utf8ByteSize +
      "/keyRings/".utf8ByteSize + "/cryptoKeys/".utf8ByteSize +
      "/cryptoKeyVersions/".utf8ByteSize = 61 := rfl
  simp only [Bytes.length_ofText, CryptoKeyVersionName.resourceName, versionNameOf, version,
    CryptoKeyName.resourceName, KeyRingName.resourceName, LocationName.resourceName,
    String.utf8ByteSize_append, Envelope.maxNameSize]
  omega

theorem KeyRecord.WellFormed.length_name_le {r : KeyRecord} {name : String}
    (h : r.WellFormed name) {k : CryptoKeyName} (hk : CryptoKeyName.parse name = .ok k)
    {v : String} {rec : VersionRecord} (hv : r.versions.find? v = some rec) :
    (Bytes.ofText v).length ≤ Envelope.maxNameSize := by
  obtain ⟨rfl, hvalid⟩ := CryptoKeyName.parse_eq_ok_iff.mp hk
  obtain ⟨n, -, hn, hperm⟩ := h.numbered
  obtain ⟨i, -, hi, rfl⟩ := mem_firstVersions.mp (hperm.mem_iff.mp (h.mem_names_iff.mpr ⟨rec, hv⟩))
  rw [← k.resourceName_version]
  exact CryptoKeyName.length_version_le hvalid (Nat.lt_of_le_of_lt hi hn)

end Sizes

/-- The crypto key has the version with the given name as its primary. -/
def Store.IsPrimary (s : Store) (name version : String) : Prop :=
  ∃ key primary, s.getCryptoKey name = .ok key ∧ key.primary = some primary ∧
    primary.name = version

namespace Service

variable {σ : Type} {env : Environment σ} {random : Nat → σ → Bytes × σ} {ctx : Context}

/-- On a reachable store, whatever the engine draws, data are encrypted if their checksums do not
contradict them. -/
theorem exists_encrypt (he : env.UsesAesGcm random) (st : State Store σ)
    (hs : st.store.WellFormed)
    (hg : st.store.EveryVersion fun rec => env.Generates rec.material)
    (hl : env.Live ctx st.world) {request : EncryptRequest} {record : KeyRecord}
    (hr : st.store.findKey? request.name = some record)
    (hp : request.plaintext.length ≤ Gcm.maxSize) (ha : request.aad.length ≤ Gcm.maxSize)
    (hpc : Checksum.Accepted request.plaintext request.plaintextCrc)
    (hac : Checksum.Accepted request.aad request.aadCrc) :
    ∃ r w', encrypt env ctx request st = .ok r ⟨st.store, w'⟩ := by
  obtain ⟨verifiedPlaintext, hvp⟩ := exists_verifyChecksum_iff.mpr hpc
  obtain ⟨verifiedAad, hva⟩ := exists_verifyChecksum_iff.mpr hac
  obtain ⟨_, rec, hprimary, hf, rfl⟩ := (hs.findKey hr).primary
  obtain ⟨_, _, _, hgen⟩ := hg _ _ _ _ hr hf
  obtain ⟨k, hk⟩ := AesGcm.exists_key_of_generate he hgen
  have hbody : ∃ body w', env.engine.encrypt ctx rec.material request.plaintext request.aad
      st.world = .ok body w' := by
    rw [he.engine]
    exact ⟨_, _, AesGcm.encrypt_eq_ok_iff.mpr ⟨k, _, st.world, hl, hk, rfl,
      AesGcm.sealUnder_eq_ok_iff.mpr ⟨_, Gcm.seal?_eq_some_iff.mpr ⟨hp, ha, rfl⟩, rfl⟩⟩⟩
  obtain ⟨body, w', hbody⟩ := hbody
  obtain ⟨n, -, hn, -, -⟩ := Store.findKey?_eq_some_iff.mp hr
  obtain ⟨payload, hw⟩ : ∃ payload, Envelope.wrap rec.version.name body = .ok payload :=
    ⟨_, Envelope.wrap_eq_ok_iff.mpr ⟨(hs.findKey hr).length_name_le hn hf, rfl⟩⟩
  refine ⟨{
    name := rec.version.name
    ciphertext := payload
    ciphertextCrc := Checksum.toWire (Checksum.crc32c payload)
    verifiedPlaintext
    verifiedAad }, w', ?_⟩
  exact (encrypt_eq_ok_iff_primary hs request hr).mpr
    ⟨rec, body, st.world, hl, hprimary, hf, hvp, hva, hbody, hw, rfl, rfl, rfl⟩

theorem ciphertextCrc_of_encrypt {st st' : State Store σ} {request : EncryptRequest}
    {r : EncryptResponse} (h : encrypt env ctx request st = .ok r st') :
    r.ciphertextCrc = Checksum.toWire (Checksum.crc32c r.ciphertext) := by
  obtain ⟨_, _, _, _, _, _, _, _, -, -, -, -, -, -, -, -, -, -, hcrc, -⟩ := encrypt_eq_ok_iff.mp h
  exact hcrc

/-- By how many bytes a ciphertext is longer than its plaintext at most: the header of the
envelope, a nonce and a tag. -/
def maxOverhead : Nat := 2 + Envelope.maxNameSize + (Gcm.nonceSize + Gcm.tagSize)

theorem length_ciphertext_le (he : env.UsesAesGcm random) {st st' : State Store σ}
    {request : EncryptRequest} {r : EncryptResponse}
    (h : encrypt env ctx request st = .ok r st') :
    r.ciphertext.length ≤ request.plaintext.length + maxOverhead := by
  obtain ⟨_, _, _, version, material, body, _, _, -, -, -, -, -, -, -, hbody, hw, -⟩ :=
    encrypt_eq_ok_iff.mp h
  rw [he.engine] at hbody
  obtain ⟨k, nonce, v, -, -, hr, hseal⟩ := AesGcm.encrypt_eq_ok_iff.mp hbody
  have hnonce : nonce.length = Gcm.nonceSize := by rw [← he.length Gcm.nonceSize v, hr]
  obtain ⟨_, hs, rfl⟩ := AesGcm.sealUnder_eq_ok_iff.mp hseal
  obtain ⟨-, -, rfl⟩ := Gcm.seal?_eq_some_iff.mp hs
  obtain ⟨hname, hpayload⟩ := Envelope.wrap_eq_ok_iff.mp hw
  rw [hpayload]
  simp only [List.length_append, Bytes.length_ofNat, Gcm.length_applyKeystream, Gcm.length_tag,
    hnonce, maxOverhead]
  omega

/-- A store that has grown decrypts what was encrypted before, and tells whether the version that
sealed the data is still the primary. -/
theorem exists_decrypt_of_grows (he : env.Recovers) {st st' : State Store σ}
    (later : State Store σ)
    (hs : st.store.WellFormed) (hs' : later.store.WellFormed)
    (hg : st.store.EveryVersion fun rec => env.Generates rec.material)
    (hgrows : st.store.Grows later.store) {request : EncryptRequest} {r : EncryptResponse}
    (h : encrypt env ctx request st = .ok r st') {ctx' : Context}
    (hl : env.Live ctx' later.world)
    {ciphertextCrc aadCrc : Option Int} (hc : Checksum.Accepted r.ciphertext ciphertextCrc)
    (ha : Checksum.Accepted request.aad aadCrc) :
    ∃ usedPrimary v', decrypt env ctx' {
        name := request.name, ciphertext := r.ciphertext, aad := request.aad,
        ciphertextCrc, aadCrc } later = .ok {
        plaintext := request.plaintext
        plaintextCrc := Checksum.toWire (Checksum.crc32c request.plaintext)
        usedPrimary } ⟨later.store, v'⟩ ∧
      (usedPrimary = true ↔ later.store.IsPrimary request.name r.name) := by
  obtain ⟨record, rec, body, hr, hf, hv, hw, hd⟩ := recovers_of_encrypt he hs hg h
  obtain ⟨record', hr', hkept⟩ := hgrows.keys _ record hr
  have hf' := hkept.versions _ rec hf
  obtain ⟨v', hd⟩ := hd ctx' later.world hl
  rw [← hv] at hf' hw ⊢
  refine ⟨record'.key.primary.any (·.name == rec.version.name), v', ?_, any_primary_iff hr'⟩
  exact Iff.mpr (decrypt_eq_ok_iff_version hs' _ hr')
    ⟨rec, body, later.world, hl, hc, ha, hf', hw, hd, rfl, rfl, rfl⟩

end Service

end KeyManagement
