import KeyManagement.Proofs.Engine.AesGcm
import KeyManagement.Proofs.Service.Atomicity
import KeyManagement.Proofs.Store.Retrieval

/-! # Designating a primary by its identifier

The identifier goes into the name of a version as it is, and nothing checks it but the lookup of
that name. Since the versions of a crypto key are numbered from 1 without gaps, the identifiers
that are accepted are the numerals up to the number of versions, and no other spelling of them.
-/

namespace KeyManagement

theorem KeyRecord.WellFormed.exists_version_iff {r : KeyRecord} {name : String}
    (h : r.WellFormed name) (id : String) :
    (∃ rec, r.versions.find? (versionNameOf name id) = some rec) ↔
      ∃ i ≤ r.versions.values.length, Decimal.IsNumeral id i := by
  rw [← h.mem_names_iff, h.counted.2.2.mem_iff, mem_firstVersions]
  constructor
  · rintro ⟨i, hpos, hle, he⟩
    exact ⟨i, hle, Decimal.isNumeral_iff.mpr ⟨hpos, versionNameOf_injective name he⟩⟩
  · rintro ⟨i, hle, hi⟩
    obtain ⟨hpos, rfl⟩ := Decimal.isNumeral_iff.mp hi
    exact ⟨i, hpos, hle, rfl⟩

namespace Store

variable {s s' : Store} {name version : String}

/-- What the second store finds is what the first one does, but that the crypto key of the given
name has another primary. -/
structure Redesignates (s s' : Store) (name : String) (key : CryptoKey)
    (primary : CryptoKeyVersion) : Prop where
  key : s'.getCryptoKey name = .ok { key with primary := some primary }
  otherKeys : ∀ other, other ≠ name → s'.getCryptoKey other = s.getCryptoKey other
  keyRings : ∀ ring, s'.getKeyRing ring = s.getKeyRing ring
  versions : ∀ v, s'.getVersion v = s.getVersion v
  listed : ∀ other, s'.listVersions other = s.listVersions other

theorem listVersions_eq (s : Store) (name : String) : s.listVersions name =
    (s.findKey? name).elim (.error (.notFound .cryptoKey name))
      fun r => .ok (r.versions.values.map (·.version)) := by
  unfold listVersions findKey
  cases s.findKey? name <;> rfl

theorem setPrimary_of_absent {record : KeyRecord} (hr : s.findKey? name = some record)
    (hv : record.versions.find? version = none) :
    setPrimary name version s = .error (.failed (.notFound .cryptoKeyVersion version)) s := by
  have hk : look (·.findKey name) s = .ok record s :=
    look_eq_ok_iff.mpr ⟨findKey_eq_ok_iff.mpr hr, rfl⟩
  refine bind_eq_error_of_ok hk ?_
  rw [hv]
  rfl

theorem redesignates_setPrimary {record : KeyRecord} {found : VersionRecord} {updated : CryptoKey}
    (hr : s.findKey? name = some record) (hv : record.versions.find? version = some found)
    (h : setPrimary name version s = .ok updated s') :
    updated = { record.key with primary := some found.version } ∧
      s.Redesignates s' name record.key found.version := by
  obtain ⟨_, _, hr', hv', rfl, hs⟩ := setPrimary_eq_ok_iff.mp h
  obtain rfl := Option.some.inj (hr.symm.trans hr')
  obtain rfl := Option.some.inj (hv.symm.trans hv')
  refine ⟨rfl, ?_⟩
  constructor
  case key =>
    rw [getCryptoKey_eq_ok_iff_findCryptoKey?, findCryptoKey?_setPrimary h, if_pos rfl]
  case otherKeys =>
    intro other hne
    rw [getCryptoKey_eq, getCryptoKey_eq, hs, findKey?_replaceKey hr, if_neg hne]
  case keyRings =>
    intro ring
    rw [getKeyRing_eq, getKeyRing_eq, findRing?_setPrimary h]
  case versions =>
    intro v
    rw [getVersion_eq, getVersion_eq, findVersion?_setPrimary h]
  case listed =>
    intro other
    rw [listVersions_eq, listVersions_eq, hs, findKey?_replaceKey hr]
    split
    · next he => rw [he, hr, Option.elim_some, Option.elim_some]
    · rfl

end Store

namespace Service

variable {σ : Type} {env : Environment σ} {ctx : Context} {st : State Store σ} {name id : String}
  {n : CryptoKeyName}

theorem perform_updatePrimary_missing (hl : env.Live ctx st.world)
    (hn : CryptoKeyName.parse name = .ok n) :
    perform env ctx (.updatePrimary name "") st =
      .error (.failed (.missing .cryptoKeyVersionId)) st := by
  refine map_eq_error_iff.mpr (error_behind_name hl hn (bind_eq_of_error ?_))
  exact demand_eq_error_iff.mpr ⟨⟨_, require_eq_error_iff.mpr ⟨rfl, rfl⟩, rfl⟩, rfl⟩

theorem perform_updatePrimary_of_absent (hl : env.Live ctx st.world) {record : KeyRecord}
    (hr : st.store.findKey? name = some record) (hid : id ≠ "")
    (hv : record.versions.find? (versionNameOf name id) = none) :
    perform env ctx (.updatePrimary name id) st =
      .error (.failed (.store (.notFound .cryptoKeyVersion (versionNameOf name id)))) st := by
  obtain ⟨n, -, hn, -, -⟩ := Store.findKey?_eq_some_iff.mp hr
  refine map_eq_error_iff.mpr (error_behind_name hl hn ?_)
  refine bind_eq_error_of_ok (a := ()) (demand_eq_ok_iff.mpr ⟨require_eq_ok_iff.mpr hid, rfl⟩) ?_
  refine bind_eq_error_of_ok (ensureLive_of_check hl) ?_
  exact inStore_eq_error_iff.mpr ⟨_, _, Store.setPrimary_of_absent hr hv, rfl, rfl⟩

theorem perform_updatePrimary_of_present (hl : env.Live ctx st.world) {record : KeyRecord}
    {found : VersionRecord} (hr : st.store.findKey? name = some record) (hid : id ≠ "")
    (hv : record.versions.find? (versionNameOf name id) = some found) : ∃ s',
      perform env ctx (.updatePrimary name id) st =
        .ok (.cryptoKey { record.key with primary := some found.version }) ⟨s', st.world⟩ ∧
      st.store.Redesignates s' name record.key found.version := by
  obtain ⟨n, -, hn, -, -⟩ := Store.findKey?_eq_some_iff.mp hr
  have hs := Store.setPrimary_eq_ok_iff.mpr ⟨record, found, hr, hv, rfl, rfl⟩
  refine ⟨_, ?_, (Store.redesignates_setPrimary hr hv hs).2⟩
  exact map_eq_ok_iff.mpr ⟨_, updatePrimary_eq_ok_iff.mpr ⟨n, st.world, hl, hn, hid, hl, hs⟩, rfl⟩

/-- On a reachable store the primary of a crypto key with n versions is updated exactly by the
numerals of 1 to n, written without a sign and without leading zeros. A missing identifier is an
invalid argument, and no version is found under any other. A successful update changes the
primary of the crypto key, which becomes the stored version of that number, and nothing else. -/
theorem update_accepts_numerals (hst : Reachable env st) (hl : env.Live ctx st.world)
    {key : CryptoKey} {versions : List CryptoKeyVersion}
    (hk : st.store.getCryptoKey name = .ok key)
    (hv : st.store.listVersions name = .ok versions) (id : String) :
    ((∃ r st', perform env ctx (.updatePrimary name id) st = .ok r st') ↔
      ∃ i ≤ versions.length, Decimal.IsNumeral id i) ∧
    ((∃ e st', perform env ctx (.updatePrimary name id) st = .error (.failed e) st' ∧
      e.code = .invalidArgument) ↔ id = "") ∧
    ((∃ e st', perform env ctx (.updatePrimary name id) st = .error (.failed e) st' ∧
      e.code = .notFound) ↔ id ≠ "" ∧ ¬ ∃ i ≤ versions.length, Decimal.IsNumeral id i) ∧
    ∀ r st', perform env ctx (.updatePrimary name id) st = .ok r st' → ∃ version material,
      version ∈ versions ∧ version.name = versionNameOf name id ∧
      st.store.getVersion (versionNameOf name id) = .ok (version, material) ∧
      r = .cryptoKey { key with primary := some version } ∧
      st.store.Redesignates st'.store name key version := by
  have hs := hst.wellFormed
  obtain ⟨record, hr, rfl⟩ := Store.getCryptoKey_eq_ok_iff.mp hk
  obtain ⟨_, hr', rfl⟩ := Store.listVersions_eq_ok_iff.mp hv
  obtain rfl := Option.some.inj (hr.symm.trans hr')
  obtain ⟨n, -, hn, -, -⟩ := Store.findKey?_eq_some_iff.mp hr
  have hnumeral := (hs.findKey hr).exists_version_iff id
  rw [List.length_map, ← hnumeral]
  by_cases hid : id = ""
  · have hnone : ¬ ∃ rec, record.versions.find? (versionNameOf name id) = some rec := by
      rw [hnumeral]
      rintro ⟨i, -, hi⟩
      exact Decimal.render_ne_empty i ((Decimal.isNumeral_iff.mp hi).2.symm.trans hid)
    subst hid
    rw [perform_updatePrimary_missing hl hn]
    have hcode : (ServiceError.missing .cryptoKeyVersionId).code = .invalidArgument := rfl
    simp [hnone, hcode]
  · cases hf : record.versions.find? (versionNameOf name id) with
    | none =>
      rw [perform_updatePrimary_of_absent hl hr hid hf]
      have hcode : (ServiceError.store
        (.notFound .cryptoKeyVersion (versionNameOf name id))).code = .notFound := rfl
      simp [hid, hcode]
    | some found =>
      obtain ⟨s', h, hd⟩ := perform_updatePrimary_of_present hl hr hid hf
      obtain ⟨-, -, -, hstored⟩ := (hs.find?_versions_iff hr).mp hf
      rw [h]
      refine ⟨by simp, by simp [hid], by simp, ?_⟩
      rintro _ _ ⟨⟩
      exact ⟨found.version, found.material,
        List.mem_map_of_mem (Keyed.mem_values_iff.mpr ⟨_, hf⟩),
        (hs.findKey hr).filed _ found hf, Store.getVersion_eq_ok_iff.mpr hstored, rfl, hd⟩

end Service

end KeyManagement

namespace KeyManagement.Service

open Sample in
/-- The crypto key has one version, whose number is accepted without a leading zero only. -/
theorem sample_update_accepts : ∃ k versions,
    created.store.getCryptoKey (key "k") = .ok k ∧
    created.store.listVersions (key "k") = .ok versions ∧ versions.length = 1 ∧
    (∃ r st, perform env ctx (.updatePrimary (key "k") "1") created = .ok r st) ∧
    ∃ e st, perform env ctx (.updatePrimary (key "k") "01") created = .error (.failed e) st ∧
      e.code = .notFound := by
  obtain ⟨record, hr⟩ := exists_findKey?_created (.inl rfl)
  have hk := Store.getCryptoKey_eq_ok_iff.mpr ⟨record, hr, rfl⟩
  have hv := Store.listVersions_eq_ok_iff.mpr ⟨record, hr, rfl⟩
  have hlength : (created.store.listVersions (key "k")).map List.length = .ok 1 := by
    decide +kernel
  rw [hv] at hlength
  replace hlength := Except.ok.inj hlength
  have hl : env.Live ctx created.world := rfl
  have h := update_accepts_numerals reachable_created hl hk hv
  refine ⟨_, _, hk, hv, hlength, ?_, ?_⟩
  · have hone : Decimal.IsNumeral "1" 1 := Decimal.isNumeral_iff.mpr ⟨by decide, by decide⟩
    exact (h "1").1.mpr ⟨1, Nat.le_of_eq hlength.symm, hone⟩
  · refine (h "01").2.2.1.mpr ⟨by decide, ?_⟩
    rintro ⟨i, -, hi⟩
    exact hi.leading rfl

end KeyManagement.Service
