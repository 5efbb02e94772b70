import KeyManagement.Proofs.Store.Frame
import KeyManagement.Proofs.Store.WellFormed

/-! # What a store lists

In a well-formed store a listing holds the records that lookups find below the parent, and
holds them in ascending order of their names.
-/

namespace KeyManagement.Store

variable {s : Store} {parent : String}

section Rings

theorem WellFormed.mem_listKeyRings_iff (h : s.WellFormed) {n : LocationName} {ring : KeyRing} :
    ring ∈ s.listKeyRings n.resourceName ↔ s.findRing? ring.name = some ring ∧
      ∃ r, KeyRingName.parse ring.name = .ok r ∧ r.parent = n := by
  simp only [listKeyRings, List.mem_map, Keyed.mem_scan_iff, findRing?, Option.map_eq_some_iff]
  constructor
  · rintro ⟨record, ⟨name, hf, hp⟩, rfl⟩
    obtain ⟨r, hr⟩ := (h name record hf).parsed
    rw [(h name record hf).named]
    obtain ⟨rfl, hv⟩ := KeyRingName.parse_eq_ok_iff.mp hr
    exact ⟨⟨record, hf, rfl⟩, r, hr, (KeyRingName.isPrefix_resourceName_iff hv).mp hp⟩
  · rintro ⟨⟨record, hf, he⟩, r, hr, hp⟩
    obtain ⟨hn, hv⟩ := KeyRingName.parse_eq_ok_iff.mp hr
    exact ⟨record, ⟨_, hf, hn ▸ (KeyRingName.isPrefix_resourceName_iff hv).mpr hp⟩, he⟩

theorem WellFormed.ascending_listKeyRings (h : s.WellFormed) (parent : String) :
    (s.listKeyRings parent).Pairwise fun a b => a.name < b.name := by
  refine List.pairwise_map.mpr (List.Pairwise.sublist (Keyed.scan_sublist _ _) ?_)
  exact Keyed.ascending_values fun name record hf => (h name record hf).named

end Rings

section Keys

theorem listCryptoKeys_eq_ok_iff {keys : List CryptoKey} : s.listCryptoKeys parent = .ok keys ↔
    ∃ record, s.rings.find? parent = some record ∧ record.keys.values.map (·.key) = keys := by
  rw [listCryptoKeys, map_result_eq_ok_iff]
  simp only [findRing_eq_ok_iff]

theorem exists_listCryptoKeys {ring : KeyRing} (h : s.findRing? parent = some ring) :
    ∃ keys, s.listCryptoKeys parent = .ok keys := by
  obtain ⟨record, hf, -⟩ := Option.map_eq_some_iff.mp h
  exact ⟨_, listCryptoKeys_eq_ok_iff.mpr ⟨record, hf, rfl⟩⟩

theorem listCryptoKeys_of_absent (h : s.findRing? parent = none) :
    s.listCryptoKeys parent = .error (.notFound .keyRing parent) := by
  rw [listCryptoKeys, findRing, Option.map_eq_none_iff.mp h]
  rfl

theorem WellFormed.mem_listCryptoKeys_iff (h : s.WellFormed) {keys : List CryptoKey}
    (hl : s.listCryptoKeys parent = .ok keys) {key : CryptoKey} :
    key ∈ keys ↔ s.findCryptoKey? key.name = some key ∧
      ∃ k, CryptoKeyName.parse key.name = .ok k ∧ k.parent.resourceName = parent := by
  obtain ⟨record, hf, rfl⟩ := listCryptoKeys_eq_ok_iff.mp hl
  simp only [List.mem_map, Keyed.mem_values_iff, findCryptoKey?, Option.map_eq_some_iff]
  constructor
  · rintro ⟨r, ⟨name, hr⟩, rfl⟩
    obtain ⟨⟨k, hk, hp⟩, hw⟩ := (h parent record hf).keys name r hr
    rw [hw.named]
    exact ⟨⟨r, findKey?_eq_some_iff.mpr ⟨k, record, hk, hp ▸ hf, hr⟩, rfl⟩, k, hk, hp⟩
  · rintro ⟨⟨r, hr, he⟩, k, hk, rfl⟩
    rw [findKey?_eq hk, hf] at hr
    exact ⟨r, ⟨_, hr⟩, he⟩

theorem WellFormed.ascending_listCryptoKeys (h : s.WellFormed) {keys : List CryptoKey}
    (hl : s.listCryptoKeys parent = .ok keys) : keys.Pairwise fun a b => a.name < b.name := by
  obtain ⟨record, hf, rfl⟩ := listCryptoKeys_eq_ok_iff.mp hl
  refine List.pairwise_map.mpr (Keyed.ascending_values fun name r hr => ?_)
  exact ((h parent record hf).keys name r hr).2.named

end Keys

section Versions

theorem exists_listVersions {key : CryptoKey} (h : s.findCryptoKey? parent = some key) :
    ∃ versions, s.listVersions parent = .ok versions := by
  obtain ⟨r, hr, -⟩ := Option.map_eq_some_iff.mp h
  exact ⟨_, listVersions_eq_ok_iff.mpr ⟨r, hr, rfl⟩⟩

theorem listVersions_of_absent (h : s.findCryptoKey? parent = none) :
    s.listVersions parent = .error (.notFound .cryptoKey parent) := by
  rw [listVersions, findKey, Option.map_eq_none_iff.mp h]
  rfl

theorem WellFormed.mem_listVersions_iff (h : s.WellFormed) {versions : List CryptoKeyVersion}
    (hl : s.listVersions parent = .ok versions) {v : CryptoKeyVersion} :
    v ∈ versions ↔ (∃ m, s.findVersion? v.name = some ⟨v, m⟩) ∧
      ∃ n, CryptoKeyVersionName.parse v.name = .ok n ∧ n.parent.resourceName = parent := by
  obtain ⟨r, hr, rfl⟩ := listVersions_eq_ok_iff.mp hl
  simp only [List.mem_map, Keyed.mem_values_iff]
  constructor
  · rintro ⟨rec, ⟨name, hv⟩, rfl⟩
    rw [(h.findKey hr).filed name rec hv]
    obtain ⟨n, hn, hp, hf⟩ := (h.find?_versions_iff hr).mp hv
    exact ⟨⟨rec.material, hf⟩, n, hn, hp⟩
  · rintro ⟨⟨m, hf⟩, n, hn, hp⟩
    exact ⟨⟨v, m⟩, ⟨_, (h.find?_versions_iff hr).mpr ⟨n, hn, hp, hf⟩⟩, rfl⟩

theorem WellFormed.ascending_listVersions (h : s.WellFormed) {versions : List CryptoKeyVersion}
    (hl : s.listVersions parent = .ok versions) :
    versions.Pairwise fun a b => a.name < b.name := by
  obtain ⟨r, hr, rfl⟩ := listVersions_eq_ok_iff.mp hl
  exact List.pairwise_map.mpr (Keyed.ascending_values (h.findKey hr).filed)

end Versions

end KeyManagement.Store
