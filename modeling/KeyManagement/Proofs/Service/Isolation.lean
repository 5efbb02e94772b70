import KeyManagement.Engine.Scripted
import KeyManagement.Proofs.Service.Ciphertext
import KeyManagement.Proofs.Service.History

/-! # Isolation of crypto keys

The envelope of a ciphertext names the crypto key that it belongs to. Decryption compares
this name before it reads a version or calls the engine, so that a ciphertext is turned away
under every other crypto key, for one reason and whatever the engine.
-/

namespace KeyManagement.Service

variable {σ : Type} {env : Environment σ} {st st' : State Store σ} {ctx : Context}
  {name : String} {payload : Bytes}

/-- The header of the payload is a version name below another crypto key. -/
def Foreign (name : String) (payload : Bytes) : Prop :=
  ∃ header body n, Envelope.unwrap payload = .ok (header, body) ∧
    CryptoKeyVersionName.parse header = .ok n ∧ n.parent.resourceName ≠ name

/-- Under any live context, an existing crypto key turns the payload away, whatever the
associated data and whatever engine is put in the place of the present one. -/
def Rejects (env : Environment σ) (st : State Store σ) (name : String) (payload : Bytes)
    (ciphertextCrc : Option Int) : Prop :=
  ∀ key ctx aad aadCrc engine, st.store.getCryptoKey name = .ok key → env.Live ctx st.world →
    Checksum.Accepted aad aadCrc →
    perform { env with engine } ctx
      (.decrypt { name, ciphertext := payload, aad, ciphertextCrc, aadCrc }) st =
        .error (.failed (.foreignCiphertext name)) st ∧
    (ServiceError.foreignCiphertext name).code = .failedPrecondition

theorem decrypt_foreign {request : DecryptRequest} {key : CryptoKey}
    (hk : st.store.getCryptoKey request.name = .ok key) (hl : env.Live ctx st.world)
    (hc : Checksum.Accepted request.ciphertext request.ciphertextCrc)
    (ha : Checksum.Accepted request.aad request.aadCrc)
    (hf : Foreign request.name request.ciphertext) :
    decrypt env ctx request st = .error (.failed (.foreignCiphertext request.name)) st := by
  obtain ⟨header, body, n, hu, hn, hne⟩ := hf
  obtain ⟨vc, hvc⟩ := exists_verifyChecksum_iff.mpr hc
  obtain ⟨va, hva⟩ := exists_verifyChecksum_iff.mpr ha
  obtain ⟨_, hr, rfl⟩ := Store.getCryptoKey_eq_ok_iff.mp hk
  obtain ⟨k, -, hk', -, -⟩ := Store.findKey?_eq_some_iff.mp hr
  refine error_behind_name hl hk' ?_
  refine bind_eq_error_of_ok (inStore_look_eq_ok_iff.mpr ⟨hk, rfl⟩) ?_
  refine bind_eq_error_of_ok (discard_demand_of_ok hvc) ?_
  refine bind_eq_error_of_ok (discard_demand_of_ok hva) ?_
  refine bind_eq_error_of_ok (demandAs_eq_ok_iff.mpr ⟨hu, rfl⟩) ?_
  refine bind_eq_error_of_ok (demandAs_eq_ok_iff.mpr ⟨hn, rfl⟩) ?_
  rw [if_pos hne]
  rfl

theorem rejects_of_foreign {ciphertextCrc : Option Int} (hf : Foreign name payload)
    (hc : Checksum.Accepted payload ciphertextCrc) :
    Rejects env st name payload ciphertextCrc := by
  intro key ctx aad aadCrc engine hk hl ha
  have hd : decrypt { env with engine } ctx
      { name, ciphertext := payload, aad, ciphertextCrc, aadCrc } st =
      .error (.failed (.foreignCiphertext name)) st := decrypt_foreign hk hl hc ha hf
  exact ⟨map_eq_error_iff.mpr hd, rfl⟩

theorem foreign_of_encrypt (hs : st.store.WellFormed) {request : EncryptRequest}
    {r : EncryptResponse} (h : perform env ctx (.encrypt request) st = .ok (.encrypted r) st')
    (hne : name ≠ request.name) :
    Foreign name r.ciphertext := by
  replace h := perform_encrypt_eq_ok_iff.mp h
  obtain ⟨record, hr⟩ := findKey?_of_encrypt h
  obtain ⟨rec, body, -, -, -, hf, -, -, -, hw, -⟩ :=
    (encrypt_eq_ok_iff_primary hs request hr).mp h
  obtain ⟨n, hn, hparent, -⟩ := (hs.find?_versions_iff hr).mp hf
  refine ⟨rec.version.name, body, n, Envelope.unwrap_eq_ok_iff_wrap.mpr hw, hn, ?_⟩
  rw [hparent]
  exact hne.symm

/-- At all times after an encryption every other crypto key turns the ciphertext away, and so
does every crypto key with every payload whose header is a version name below another one. -/
theorem foreign_ciphertext_rejected (env : Environment σ) :
    (∀ st st' ctx request r after name ciphertextCrc, Reachable env st →
      perform env ctx (.encrypt request) st = .ok (.encrypted r) st' → name ≠ request.name →
      (ciphertextCrc = none ∨ ciphertextCrc = some r.ciphertextCrc) →
      Rejects env (run env st' after) name r.ciphertext ciphertextCrc) ∧
    ∀ st name payload ciphertextCrc, Foreign name payload →
      Checksum.Accepted payload ciphertextCrc → Rejects env st name payload ciphertextCrc := by
  constructor
  · intro st st' ctx request r after name ciphertextCrc hst h hne hc
    exact rejects_of_foreign (foreign_of_encrypt hst.wellFormed h hne)
      (accepted_of_encrypt (perform_encrypt_eq_ok_iff.mp h) hc)
  · intro st name payload ciphertextCrc hf hc
    exact rejects_of_foreign hf hc

theorem sample_rejected : ∃ r st,
    perform Sample.env Sample.ctx (.encrypt Sample.request) Sample.created =
      .ok (.encrypted r) st ∧
    perform { Sample.env with engine := .failing } Sample.ctx
      (.decrypt { name := Sample.key "k2", ciphertext := r.ciphertext })
      (run Sample.env st Sample.rotation) =
        .error (.failed (.foreignCiphertext (Sample.key "k2")))
          (run Sample.env st Sample.rotation) ∧
    Rejects Sample.env Sample.created (Sample.key "k2") r.ciphertext none := by
  obtain ⟨r, st, h⟩ := Sample.exists_encrypted
  obtain ⟨record, hr⟩ := Sample.exists_findKey?_created (.inr rfl)
  have hne : Sample.key "k2" ≠ Sample.request.name := by decide +kernel
  have hf := foreign_of_encrypt Sample.reachable_created.wellFormed h hne
  have hstore : st.store = Sample.created.store := (keeps_perform rfl).of_ok h
  rw [← hstore] at hr
  obtain ⟨record', hr', -⟩ := (grows_run Sample.env st Sample.rotation).keys _ record hr
  have hl : Sample.env.Live Sample.ctx (run Sample.env st Sample.rotation).world := rfl
  refine ⟨r, st, h, ?_, (foreign_ciphertext_rejected Sample.env).2 _ _ _ _ hf (.inl rfl)⟩
  exact ((foreign_ciphertext_rejected Sample.env).1 _ st _ _ r Sample.rotation _ none
    Sample.reachable_created h hne (.inl rfl) _ _ [] none .failing
    (Store.getCryptoKey_eq_ok_iff.mpr ⟨record', hr', rfl⟩) hl (.inl rfl)).1

end KeyManagement.Service
