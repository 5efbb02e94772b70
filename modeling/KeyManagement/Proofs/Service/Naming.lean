import KeyManagement.Proofs.Service.History

/-! # The names in operations that succeed

An operation succeeds only if the name that it is given is valid, and so is the name that it
makes of this name and an identifier. No identifier can reach beyond its own segment.
-/

namespace KeyManagement

/-- The names that an operation is given, and those that it makes of them, are valid. -/
def Operation.WellNamed : Operation → Prop
  | .createKeyRing parent id => ∃ n, LocationName.parse parent = .ok n ∧ (n.ring id).Valid
  | .listKeyRings parent _ => ∃ n, LocationName.parse parent = .ok n
  | .getKeyRing name | .listCryptoKeys name _ => ∃ n, KeyRingName.parse name = .ok n
  | .createCryptoKey parent id _ => ∃ n, KeyRingName.parse parent = .ok n ∧ (n.key id).Valid
  | .getCryptoKey name | .createVersion name | .listVersions name _ =>
    ∃ n, CryptoKeyName.parse name = .ok n
  | .getVersion name => ∃ n, CryptoKeyVersionName.parse name = .ok n
  | .updatePrimary name id =>
    ∃ n, CryptoKeyName.parse name = .ok n ∧ (⟨n, id⟩ : CryptoKeyVersionName).Valid
  | .encrypt request => ∃ n, CryptoKeyName.parse request.name = .ok n
  | .decrypt request => ∃ n, CryptoKeyName.parse request.name = .ok n

namespace Service

variable {σ : Type} {env : Environment σ} {ctx : Context} {op : Operation} {st st' : State Store σ}
  {r : Response}

theorem valid_of_updatePrimary {name id : String} {key : CryptoKey}
    (h : updatePrimary env ctx name id st = .ok key st') (hs : st.store.WellFormed) :
    ∃ n, CryptoKeyName.parse name = .ok n ∧ (⟨n, id⟩ : CryptoKeyVersionName).Valid := by
  obtain ⟨n, _, -, hn, -, -, ha⟩ := updatePrimary_eq_ok_iff.mp h
  obtain ⟨record, found, hf, hv, -, -⟩ := Store.setPrimary_eq_ok_iff.mp ha
  obtain ⟨i, hi, -⟩ := (hs.findKey hf).version_name hn hv
  obtain ⟨rfl, hk⟩ := CryptoKeyName.parse_eq_ok_iff.mp hn
  refine ⟨n, hn, hk, ?_⟩
  rw [versionNameOf_injective _ hi]
  exact isVersionId_render i

theorem wellNamed_of_perform (h : perform env ctx op st = .ok r st')
    (hs : st.store.WellFormed) : op.WellNamed := by
  cases op with
  | createKeyRing parent id =>
    obtain ⟨_, h, -⟩ := map_eq_ok_iff.mp h
    obtain ⟨_, _, -, hr, -⟩ := createKeyRing_eq_ok_iff.mp h
    obtain ⟨n, hn, -, hv, -⟩ := ringRequest_eq_ok_iff.mp hr
    exact ⟨n, hn, hv⟩
  | createCryptoKey parent id spec =>
    obtain ⟨_, h, -⟩ := map_eq_ok_iff.mp h
    obtain ⟨_, _, _, _, _, -, hr, -⟩ := createCryptoKey_eq_ok_iff.mp h
    obtain ⟨n, _, hn, -, -, -, hv, -⟩ := keyRequest_eq_ok_iff.mp hr
    exact ⟨n, hn, hv⟩
  | createVersion name =>
    obtain ⟨_, h, -⟩ := map_eq_ok_iff.mp h
    obtain ⟨n, _, _, _, _, -, hn, -⟩ := createVersion_eq_ok_iff.mp h
    exact ⟨n, hn⟩
  | updatePrimary name id =>
    obtain ⟨_, h, -⟩ := map_eq_ok_iff.mp h
    exact valid_of_updatePrimary h hs
  | getKeyRing name =>
    obtain ⟨_, h, -⟩ := map_eq_ok_iff.mp h
    obtain ⟨_, -, hn, -⟩ := getKeyRing_eq_ok_iff.mp h
    exact hn
  | getCryptoKey name =>
    obtain ⟨_, h, -⟩ := map_eq_ok_iff.mp h
    obtain ⟨_, -, hn, -⟩ := getCryptoKey_eq_ok_iff.mp h
    exact hn
  | getVersion name =>
    obtain ⟨_, h, -⟩ := map_eq_ok_iff.mp h
    obtain ⟨_, -, hn, -⟩ := getVersion_eq_ok_iff.mp h
    exact hn
  | listKeyRings parent token =>
    obtain ⟨_, h, -⟩ := map_eq_ok_iff.mp h
    obtain ⟨_, n, -, hn, -⟩ := listKeyRings_eq_ok_iff.mp h
    exact ⟨n, hn⟩
  | listCryptoKeys parent token =>
    obtain ⟨_, h, -⟩ := map_eq_ok_iff.mp h
    obtain ⟨_, -, hn, -⟩ := listCryptoKeys_eq_ok_iff.mp h
    exact hn
  | listVersions parent token =>
    obtain ⟨_, h, -⟩ := map_eq_ok_iff.mp h
    obtain ⟨_, -, hn, -⟩ := listVersions_eq_ok_iff.mp h
    exact hn
  | encrypt request =>
    obtain ⟨_, h, -⟩ := map_eq_ok_iff.mp h
    obtain ⟨n, _, _, _, _, _, _, _, -, hn, -⟩ := encrypt_eq_ok_iff.mp h
    exact ⟨n, hn⟩
  | decrypt request =>
    obtain ⟨_, h, -⟩ := map_eq_ok_iff.mp h
    obtain ⟨n, _, _, _, _, _, _, _, _, _, _, -, hn, -⟩ := decrypt_eq_ok_iff.mp h
    exact ⟨n, hn⟩

end Service

end KeyManagement
