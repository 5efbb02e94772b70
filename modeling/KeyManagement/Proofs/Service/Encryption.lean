import KeyManagement.Proofs.Service.Atomicity
import KeyManagement.Proofs.Service.Availability
import KeyManagement.Proofs.Store.Retrieval

/-! # How encryption ends

Encryption checks the name, looks for the crypto key and compares the checksums, in this order,
and the first check that fails decides the answer. Behind them nothing fails on a reachable store:
the primary is there with sound material, and its name fits into the envelope.
-/

namespace KeyManagement.Service

variable {σ : Type} {env : Environment σ} {random : Nat → σ → Bytes × σ} {ctx : Context}
  {request : EncryptRequest}

section Checksums

variable {data : Bytes} {supplied : Option Int}

theorem verifyChecksum_of_not_accepted (h : ¬ Checksum.Accepted data supplied) :
    verifyChecksum data supplied = .error .checksumMismatch := by
  cases hv : verifyChecksum data supplied with
  | ok verified => exact absurd (exists_verifyChecksum_iff.mp ⟨verified, hv⟩) h
  | error e =>
    obtain ⟨_, -, rfl⟩ := mapError_eq_error_iff.mp hv
    rfl

theorem error_of_not_accepted {α : Type} {st : State Store σ} {data' : Bytes}
    {supplied' : Option Int} {rest : Bool → Bool → Action Store σ α}
    (h : ¬ (Checksum.Accepted data supplied ∧ Checksum.Accepted data' supplied')) :
    (do
      let verified ← demand (verifyChecksum data supplied)
      let verified' ← demand (verifyChecksum data' supplied')
      rest verified verified') st = .error (.failed .checksumMismatch) st := by
  by_cases hfirst : Checksum.Accepted data supplied
  · obtain ⟨verified, hv⟩ := exists_verifyChecksum_iff.mpr hfirst
    refine bind_eq_error_of_ok (demand_eq_ok_iff.mpr ⟨hv, rfl⟩) ?_
    have hsecond := verifyChecksum_of_not_accepted fun ha => h ⟨hfirst, ha⟩
    exact bind_eq_of_error (demand_eq_error_iff.mpr ⟨⟨_, hsecond, rfl⟩, rfl⟩)
  · exact bind_eq_of_error
      (demand_eq_error_iff.mpr ⟨⟨_, verifyChecksum_of_not_accepted hfirst, rfl⟩, rfl⟩)

theorem verified_iff {verified : Bool} (h : verifyChecksum data supplied = .ok verified) :
    verified = true ↔ ∃ crc, supplied = some crc ∧ crc ≠ 0 := by
  rcases verifyChecksum_eq_ok_iff.mp h with ⟨rfl | rfl, rfl⟩ | ⟨rfl, h0, rfl⟩
  · simp
  · simp
  · simpa using h0

end Checksums

section Refusals

variable {st : State Store σ}

theorem encrypt_malformed (hl : env.Live ctx st.world) {e : NameError}
    (hn : CryptoKeyName.parse request.name = .error e) :
    encrypt env ctx request st = .error (.failed (.invalidName .name e)) st := by
  refine bind_eq_error_of_ok (ensureLive_of_check hl) (bind_eq_of_error ?_)
  exact discard_eq_error_iff.mpr (demandAs_eq_error_iff.mpr ⟨⟨e, hn, rfl⟩, rfl⟩)

theorem encrypt_missing (hl : env.Live ctx st.world) {n : CryptoKeyName}
    (hn : CryptoKeyName.parse request.name = .ok n)
    (hr : st.store.findKey? request.name = none) :
    encrypt env ctx request st =
      .error (.failed (.store (.notFound .cryptoKey request.name))) st := by
  have hk : st.store.getCryptoKey request.name = .error (.notFound .cryptoKey request.name) := by
    rw [Store.getCryptoKey_eq, hr, Option.elim_none]
  refine error_behind_name hl hn (bind_eq_of_error ?_)
  exact inStore_look_eq_error_iff.mpr ⟨⟨_, hk, rfl⟩, rfl⟩

theorem error_behind_key {α : Type} {rest : CryptoKey → Action Store σ α} {name : String}
    {key : CryptoKey} {e : Stop ServiceError} (hl : env.Live ctx st.world)
    (hk : st.store.getCryptoKey name = .ok key) (h : rest key st = .error e st) :
    (do
      ensureLive env ctx
      discard <| demandAs (.invalidName .name) (CryptoKeyName.parse name)
      let key ← inStore .store (KeyStore.getCryptoKey name)
      rest key) st = .error e st := by
  obtain ⟨record, hr, -⟩ := Store.getCryptoKey_eq_ok_iff.mp hk
  obtain ⟨n, -, hn, -, -⟩ := Store.findKey?_eq_some_iff.mp hr
  refine error_behind_name hl hn ?_
  exact bind_eq_error_of_ok (inStore_look_eq_ok_iff.mpr ⟨hk, rfl⟩) h

theorem encrypt_mismatch_of_primary (hl : env.Live ctx st.world) {key : CryptoKey}
    {primary : CryptoKeyVersion} (hk : st.store.getCryptoKey request.name = .ok key)
    (hprimary : key.primary = some primary)
    (hc : ¬ (Checksum.Accepted request.plaintext request.plaintextCrc ∧
      Checksum.Accepted request.aad request.aadCrc)) :
    encrypt env ctx request st = .error (.failed .checksumMismatch) st := by
  refine error_behind_key hl hk ?_
  refine bind_eq_error_of_ok (demand_eq_ok_iff.mpr ⟨ok_of_elim_eq_ok.mpr hprimary, rfl⟩) ?_
  exact error_of_not_accepted hc

theorem encrypt_mismatch (hl : env.Live ctx st.world) (hs : st.store.WellFormed)
    {record : KeyRecord} (hr : st.store.findKey? request.name = some record)
    (hc : ¬ (Checksum.Accepted request.plaintext request.plaintextCrc ∧
      Checksum.Accepted request.aad request.aadCrc)) :
    encrypt env ctx request st = .error (.failed .checksumMismatch) st := by
  obtain ⟨primary, -, hprimary, -, -⟩ := (hs.findKey hr).primary
  exact encrypt_mismatch_of_primary hl (Store.getCryptoKey_eq_ok_iff.mpr ⟨record, hr, rfl⟩)
    hprimary hc

end Refusals

variable {st : State Store σ}

/-- The checks in the order in which they are made, and what is left when they are passed. -/
theorem perform_encrypt_cases (he : env.UsesAesGcm random) (hst : Reachable env st)
    (hl : env.Live ctx st.world) (hp : request.plaintext.length ≤ Gcm.maxSize)
    (ha : request.aad.length ≤ Gcm.maxSize) :
    (∃ e, CryptoKeyName.parse request.name = .error e ∧
      perform env ctx (.encrypt request) st = .error (.failed (.invalidName .name e)) st) ∨
    (∃ k, CryptoKeyName.parse request.name = .ok k ∧ st.store.findKey? request.name = none ∧
      perform env ctx (.encrypt request) st =
        .error (.failed (.store (.notFound .cryptoKey request.name))) st) ∨
    (∃ record, st.store.findKey? request.name = some record ∧
      ¬ (Checksum.Accepted request.plaintext request.plaintextCrc ∧
        Checksum.Accepted request.aad request.aadCrc) ∧
      perform env ctx (.encrypt request) st = .error (.failed .checksumMismatch) st) ∨
    ∃ record r st', st.store.findKey? request.name = some record ∧
      Checksum.Accepted request.plaintext request.plaintextCrc ∧
      Checksum.Accepted request.aad request.aadCrc ∧
      perform env ctx (.encrypt request) st = .ok (.encrypted r) st' := by
  have hs := hst.wellFormed
  cases hn : CryptoKeyName.parse request.name with
  | error e => exact .inl ⟨e, rfl, map_eq_error_iff.mpr (encrypt_malformed hl hn)⟩
  | ok k =>
    cases hr : st.store.findKey? request.name with
    | none =>
      exact .inr (.inl ⟨k, rfl, rfl, map_eq_error_iff.mpr (encrypt_missing hl hn hr)⟩)
    | some record =>
      by_cases hc : Checksum.Accepted request.plaintext request.plaintextCrc ∧
          Checksum.Accepted request.aad request.aadCrc
      · obtain ⟨r, w', h⟩ := exists_encrypt he _ hs hst.generated hl hr hp ha hc.1 hc.2
        exact .inr (.inr (.inr ⟨record, r, ⟨st.store, w'⟩, rfl, hc.1, hc.2,
          perform_encrypt_eq_ok_iff.mpr h⟩))
      · exact .inr (.inr (.inl ⟨record, rfl, hc,
          map_eq_error_iff.mpr (encrypt_mismatch hl hs hr hc)⟩))

theorem verified_of_encrypt {st' : State Store σ} {r : EncryptResponse}
    (h : encrypt env ctx request st = .ok r st') :
    (r.verifiedPlaintext = true ↔ ∃ crc, request.plaintextCrc = some crc ∧ crc ≠ 0) ∧
    (r.verifiedAad = true ↔ ∃ crc, request.aadCrc = some crc ∧ crc ≠ 0) := by
  obtain ⟨_, _, _, _, _, _, _, _, -, -, -, -, hvp, hva, -⟩ := encrypt_eq_ok_iff.mp h
  exact ⟨verified_iff hvp, verified_iff hva⟩

/-- Encryption fails for the faults of its caller only. The name, the crypto key and the checksums
decide, in this order, between three errors and success. The errors that blame the store, the
engine or the envelope do not occur. -/
theorem encryption_fails_for_caller_only (he : env.UsesAesGcm random) (hst : Reachable env st)
    (hl : env.Live ctx st.world) (hp : request.plaintext.length ≤ Gcm.maxSize)
    (ha : request.aad.length ≤ Gcm.maxSize) :
    ((¬ (∃ k : CryptoKeyName, k.Valid ∧ request.name = k.resourceName) ∧
        ∃ reason, perform env ctx (.encrypt request) st =
          .error (.failed (.invalidName .name reason)) st ∧
          (ServiceError.invalidName .name reason).code = .invalidArgument) ∨
      ((∃ k : CryptoKeyName, k.Valid ∧ request.name = k.resourceName) ∧
        st.store.findKey? request.name = none ∧
        perform env ctx (.encrypt request) st =
          .error (.failed (.store (.notFound .cryptoKey request.name))) st ∧
        (ServiceError.store (.notFound .cryptoKey request.name)).code = .notFound) ∨
      ((∃ record, st.store.findKey? request.name = some record) ∧
        ¬ (Checksum.Accepted request.plaintext request.plaintextCrc ∧
          Checksum.Accepted request.aad request.aadCrc) ∧
        perform env ctx (.encrypt request) st = .error (.failed .checksumMismatch) st ∧
        ServiceError.checksumMismatch.code = .invalidArgument) ∨
      ((∃ record, st.store.findKey? request.name = some record) ∧
        Checksum.Accepted request.plaintext request.plaintextCrc ∧
        Checksum.Accepted request.aad request.aadCrc ∧
        ∃ r st', perform env ctx (.encrypt request) st = .ok (.encrypted r) st' ∧
          st'.store = st.store ∧
          (r.verifiedPlaintext = true ↔ ∃ crc, request.plaintextCrc = some crc ∧ crc ≠ 0) ∧
          (r.verifiedAad = true ↔ ∃ crc, request.aadCrc = some crc ∧ crc ≠ 0) ∧
          r.ciphertextCrc = Checksum.toWire (Checksum.crc32c r.ciphertext))) ∧
    ∀ stop st', perform env ctx (.encrypt request) st = .error stop st' →
      ∃ e, stop = .failed e ∧ (∀ key, e ≠ .noPrimary key) ∧ (∀ e', e ≠ .primaryUnavailable e') ∧
        (∀ call e', e ≠ .engine call e') ∧ ∀ e', e ≠ .nameTooLong e' := by
  rcases perform_encrypt_cases he hst hl hp ha with
    ⟨reason, hn, h⟩ | ⟨k, hn, hr, h⟩ | ⟨record, hr, hc, h⟩ | ⟨record, r, st', hr, hpc, hac, h⟩
  · have hname : ¬ ∃ k : CryptoKeyName, k.Valid ∧ request.name = k.resourceName := by
      rintro ⟨k, hk, hkn⟩
      rw [CryptoKeyName.parse_eq_ok_iff.mpr ⟨hkn, hk⟩] at hn
      contradiction
    refine ⟨.inl ⟨hname, reason, h, rfl⟩, fun e st' h' => ?_⟩
    obtain ⟨rfl, -⟩ := EStateM.Result.error.inj (h.symm.trans h')
    simp
  · obtain ⟨hkn, hk⟩ := CryptoKeyName.parse_eq_ok_iff.mp hn
    refine ⟨.inr (.inl ⟨⟨k, hk, hkn⟩, hr, h, rfl⟩), fun e st' h' => ?_⟩
    obtain ⟨rfl, -⟩ := EStateM.Result.error.inj (h.symm.trans h')
    simp
  · refine ⟨.inr (.inr (.inl ⟨⟨record, hr⟩, hc, h, rfl⟩)), fun e st' h' => ?_⟩
    obtain ⟨rfl, -⟩ := EStateM.Result.error.inj (h.symm.trans h')
    simp
  · have henc := perform_encrypt_eq_ok_iff.mp h
    have hstore : st'.store = st.store := (keeps_perform rfl).of_ok h
    obtain ⟨hvp, hva⟩ := verified_of_encrypt henc
    refine ⟨.inr (.inr (.inr ⟨⟨record, hr⟩, hpc, hac, r, st', h, hstore, hvp, hva,
      ciphertextCrc_of_encrypt henc⟩)), fun e st'' h' => ?_⟩
    rw [h] at h'
    contradiction

/-- Without checksums an existing crypto key encrypts. -/
theorem sample_encrypts : ∃ r st,
    perform Sample.env Sample.ctx (.encrypt Sample.request) Sample.created =
      .ok (.encrypted r) st ∧
    r.verifiedPlaintext = false ∧
    r.ciphertextCrc = Checksum.toWire (Checksum.crc32c r.ciphertext) := by
  obtain ⟨random, he⟩ := World.usesAesGcm_random
  obtain ⟨record, hr⟩ := Sample.exists_findKey?_created (.inl rfl)
  obtain ⟨hcases, -⟩ := encryption_fails_for_caller_only he Sample.reachable_created
    (show Sample.env.Live Sample.ctx Sample.created.world from rfl)
    (show Sample.request.plaintext.length ≤ Gcm.maxSize by decide)
    (show Sample.request.aad.length ≤ Gcm.maxSize by decide)
  rcases hcases with ⟨hn, -⟩ | ⟨-, hnone, -⟩ | ⟨-, hc, -⟩ | ⟨-, -, -, r, st, h, -, hv, -, hcrc⟩
  · obtain ⟨k, -, hk, -, -⟩ := Store.findKey?_eq_some_iff.mp hr
    obtain ⟨hkn, hvalid⟩ := CryptoKeyName.parse_eq_ok_iff.mp hk
    exact absurd ⟨k, hvalid, hkn⟩ hn
  · rw [show Sample.request.name = Sample.key "k" from rfl, hr] at hnone
    contradiction
  · exact absurd ⟨.inl rfl, .inl rfl⟩ hc
  · refine ⟨r, st, h, ?_, hcrc⟩
    rw [Bool.eq_false_iff]
    intro hverified
    obtain ⟨crc, hsome, -⟩ := hv.mp hverified
    contradiction

end KeyManagement.Service
