import KeyManagement.Proofs.Resource.Number
import KeyManagement.Proofs.Store.Lookup

/-! # Well-formed stores

In a well-formed store every record is filed under its own name and below its parent, the
versions of a crypto key are numbered from 1 without gaps, and its primary is a copy of one
of them. The writes keep a store well formed if the names given to them are.
-/

namespace KeyManagement

/-- A crypto key record under the given name. -/
structure KeyRecord.WellFormed (r : KeyRecord) (name : String) : Prop where
  named : r.key.name = name
  filed : ∀ v rec, r.versions.find? v = some rec → rec.version.name = v
  numbered : ∃ n, 1 ≤ n ∧ n < versionNumberLimit ∧
    (r.versions.values.map (·.version.name)).Perm (firstVersions name n)
  primary : ∃ v rec, r.key.primary = some v ∧ r.versions.find? v.name = some rec ∧
    rec.version = v

/-- A key ring record under the given name. -/
structure RingRecord.WellFormed (r : RingRecord) (name : String) : Prop where
  named : r.ring.name = name
  parsed : ∃ n, KeyRingName.parse name = .ok n
  keys : ∀ key rec, r.keys.find? key = some rec →
    (∃ n, CryptoKeyName.parse key = .ok n ∧ n.parent.resourceName = name) ∧ rec.WellFormed key

def Store.WellFormed (s : Store) : Prop :=
  ∀ name r, s.rings.find? name = some r → r.WellFormed name

namespace KeyRecord

variable {r : KeyRecord} {name : String}

theorem mem_names_iff (h : ∀ v rec, r.versions.find? v = some rec → rec.version.name = v)
    {v : String} : v ∈ r.versions.values.map (·.version.name) ↔
      ∃ rec, r.versions.find? v = some rec := by
  simp only [List.mem_map, Keyed.mem_values_iff]
  constructor
  · rintro ⟨rec, ⟨k, hk⟩, rfl⟩
    exact ⟨rec, h k rec hk ▸ hk⟩
  · rintro ⟨rec, hr⟩
    exact ⟨rec, ⟨v, hr⟩, h v rec hr⟩

theorem WellFormed.mem_names_iff (h : r.WellFormed name) {v : String} :
    v ∈ r.versions.values.map (·.version.name) ↔ ∃ rec, r.versions.find? v = some rec :=
  KeyRecord.mem_names_iff h.filed

theorem WellFormed.exists_find?_iff (h : r.WellFormed name) :
    ∃ n, 1 ≤ n ∧ ∀ v, (∃ rec, r.versions.find? v = some rec) ↔
      ∃ i, 1 ≤ i ∧ i ≤ n ∧ v = versionNameOf name (Decimal.render i) := by
  obtain ⟨n, hn, -, hp⟩ := h.numbered
  refine ⟨n, hn, fun v => ?_⟩
  rw [← h.mem_names_iff, hp.mem_iff, mem_firstVersions]

/-- The versions are numbered from 1 to their count. -/
theorem WellFormed.counted (h : r.WellFormed name) :
    1 ≤ r.versions.values.length ∧ r.versions.values.length < versionNumberLimit ∧
      (r.versions.values.map (·.version.name)).Perm
        (firstVersions name r.versions.values.length) := by
  obtain ⟨n, h1, hl, hp⟩ := h.numbered
  obtain rfl : r.versions.values.length = n := by simpa [firstVersions] using hp.length_eq
  exact ⟨h1, hl, hp⟩

theorem WellFormed.version_name (h : r.WellFormed name) {k : CryptoKeyName}
    (hk : CryptoKeyName.parse name = .ok k) {v : String} {rec : VersionRecord}
    (hv : r.versions.find? v = some rec) :
    ∃ i, v = (k.version i).resourceName ∧ CryptoKeyVersionName.parse v = .ok (k.version i) := by
  obtain ⟨rfl, hkv⟩ := CryptoKeyName.parse_eq_ok_iff.mp hk
  obtain ⟨n, -, hn⟩ := h.exists_find?_iff
  obtain ⟨i, -, -, rfl⟩ := (hn v).mp ⟨rec, hv⟩
  rw [← k.resourceName_version]
  exact ⟨i, rfl, CryptoKeyVersionName.parse_resourceName (k.version_valid hkv i)⟩

theorem wellFormed_newKeyRecord {k : CryptoKeyName} {key : CryptoKey}
    {primary : CryptoKeyVersion} {material : KeyMaterial} (hk : key.name = k.resourceName)
    (hp : primary.name = (k.version 1).resourceName) :
    (Store.newKeyRecord key primary material).WellFormed k.resourceName where
  named := hk
  filed v rec hv := by
    simp only [Store.newKeyRecord, Keyed.find?_insert, Keyed.find?_empty] at hv
    split at hv
    · next he =>
      cases hv
      exact he.symm
    · contradiction
  numbered := by
    refine ⟨1, Nat.le_refl _, by decide, ?_⟩
    have hv : (Store.newKeyRecord key primary material).versions.values =
        [⟨primary, material⟩] := rfl
    simp [hv, hp, firstVersions, k.resourceName_version]
  primary := ⟨primary, ⟨primary, material⟩, rfl, by simp [Store.newKeyRecord], rfl⟩

theorem WellFormed.find?_next (h : r.WellFormed name) : r.versions.find?
    (versionNameOf name (Decimal.render (r.versions.values.length + 1))) = none := by
  rw [Option.eq_none_iff_forall_ne_some]
  intro rec hr
  exact version_not_mem_firstVersions _ _ (h.counted.2.2.mem_iff.mp (h.mem_names_iff.mpr ⟨rec, hr⟩))

/-- The next number is free, so a version filed under it is one more version. -/
theorem WellFormed.insertVersion {k : CryptoKeyName} (h : r.WellFormed k.resourceName)
    (hk : k.Valid) {number : Nat}
    (hn : nextVersionNumber? .checked (r.versions.values.map (·.version.name)) = some number)
    {v : CryptoKeyVersion} {m : KeyMaterial}
    (hv : v.name = versionNameOf k.resourceName (Decimal.render number)) :
    ({ r with versions := r.versions.insert v.name ⟨v, m⟩ } : KeyRecord).WellFormed
      k.resourceName := by
  obtain ⟨-, hl, hp⟩ := h.counted
  rw [nextVersionNumber?_firstVersions hk hp hl] at hn
  split at hn
  case isFalse => contradiction
  case isTrue hlt =>
    cases hn
    have hfree : r.versions.find? v.name = none := hv ▸ h.find?_next
    constructor
    case named => exact h.named
    case filed =>
      intro v' rec hr
      rw [Keyed.find?_insert] at hr
      split at hr
      · next he =>
        cases hr
        exact he.symm
      · exact h.filed v' rec hr
    case numbered =>
      refine ⟨_, Nat.le_add_left _ _, hlt, ?_⟩
      rw [firstVersions_succ, ← hv]
      have hi := (Keyed.perm_values_insert (v := (⟨v, m⟩ : VersionRecord)) hfree).map
        (·.version.name)
      exact hi.trans ((hp.cons _).trans (List.perm_append_singleton _ _).symm)
    case primary =>
      obtain ⟨p, rec, hp, hf, he⟩ := h.primary
      refine ⟨p, rec, hp, ?_, he⟩
      rw [Keyed.find?_insert, if_neg, hf]
      rintro hpv
      rw [hpv, hfree] at hf
      contradiction

theorem WellFormed.setPrimary (h : r.WellFormed name) {v : String} {rec : VersionRecord}
    (hv : r.versions.find? v = some rec) :
    ({ r with key := { r.key with primary := some rec.version } } : KeyRecord).WellFormed
      name where
  named := h.named
  filed := h.filed
  numbered := h.numbered
  primary := ⟨rec.version, rec, rfl, (h.filed v rec hv).symm ▸ hv, rfl⟩

end KeyRecord

namespace Store

variable {s s' : Store}

theorem wellFormed_empty : Store.empty.WellFormed := by
  intro name r h
  simp [empty] at h

theorem WellFormed.findKey (h : s.WellFormed) {name : String} {r : KeyRecord}
    (hr : s.findKey? name = some r) : r.WellFormed name := by
  obtain ⟨n, ring, -, hf, hk⟩ := findKey?_eq_some_iff.mp hr
  exact ((h _ _ hf).keys name r hk).2

/-- The versions in the record of a crypto key are those found under names below the key. -/
theorem WellFormed.find?_versions_iff (h : s.WellFormed) {name v : String} {r : KeyRecord}
    {rec : VersionRecord} (hr : s.findKey? name = some r) :
    r.versions.find? v = some rec ↔ ∃ n, CryptoKeyVersionName.parse v = .ok n ∧
      n.parent.resourceName = name ∧ s.findVersion? v = some rec := by
  constructor
  · intro hv
    obtain ⟨k, -, hk, -, -⟩ := findKey?_eq_some_iff.mp hr
    obtain ⟨i, -, hn⟩ := (h.findKey hr).version_name hk hv
    obtain ⟨rfl, -⟩ := CryptoKeyName.parse_eq_ok_iff.mp hk
    exact ⟨k.version i, hn, rfl, findVersion?_eq_some_iff.mpr ⟨_, r, hn, hr, hv⟩⟩
  · rintro ⟨n, hn, rfl, hv⟩
    obtain ⟨n', r', hn', hr', hv⟩ := findVersion?_eq_some_iff.mp hv
    obtain rfl : n = n' := Except.ok.inj (hn.symm.trans hn')
    obtain rfl : r = r' := Option.some.inj (hr.symm.trans hr')
    exact hv

theorem WellFormed.createKeyRing (h : s.WellFormed) {ring : KeyRing} {n : KeyRingName}
    (hc : Store.createKeyRing ring s = .ok () s') (hn : KeyRingName.parse ring.name = .ok n) :
    s'.WellFormed := by
  obtain ⟨-, rfl⟩ := createKeyRing_eq_ok_iff.mp hc
  intro name r hr
  rw [Keyed.find?_insert] at hr
  split at hr
  · next he =>
    cases hr
    subst he
    exact ⟨rfl, ⟨n, hn⟩, fun _ _ hk => by simp at hk⟩
  · exact h name r hr

theorem WellFormed.insertKey (h : s.WellFormed) {ring name : String} {record : RingRecord}
    {k : CryptoKeyName} {r : KeyRecord} (hf : s.rings.find? ring = some record)
    (hk : CryptoKeyName.parse name = .ok k) (hp : k.parent.resourceName = ring)
    (hr : r.WellFormed name) :
    (⟨s.rings.insert ring { record with keys := record.keys.insert name r }⟩ :
      Store).WellFormed := by
  intro name' ring' hr'
  rw [Keyed.find?_insert] at hr'
  split at hr'
  · next he =>
    cases hr'
    subst he
    have hw := h _ _ hf
    refine ⟨hw.named, hw.parsed, fun key rec hkey => ?_⟩
    rw [Keyed.find?_insert] at hkey
    split at hkey
    · next hke =>
      cases hkey
      subst hke
      exact ⟨⟨k, hk, hp⟩, hr⟩
    · exact hw.keys key rec hkey
  · exact h name' ring' hr'

theorem WellFormed.replaceKey (h : s.WellFormed) {name : String} {old r : KeyRecord}
    (hf : s.findKey? name = some old) (hr : r.WellFormed name) :
    (s.replaceKey name r).WellFormed := by
  obtain ⟨k, ring, hk, hring, -⟩ := findKey?_eq_some_iff.mp hf
  simp only [Store.replaceKey, hk, Keyed.modify, hring]
  exact h.insertKey hring hk rfl hr

theorem WellFormed.createCryptoKey (h : s.WellFormed) {k : CryptoKeyName} {key : CryptoKey}
    {primary : CryptoKeyVersion} {material : KeyMaterial}
    (hc : Store.createCryptoKey k.parent.resourceName key primary material s = .ok () s')
    (hv : k.Valid) (hk : key.name = k.resourceName)
    (hp : primary.name = (k.version 1).resourceName) : s'.WellFormed := by
  obtain ⟨record, hf, -, rfl⟩ := createCryptoKey_eq_ok_iff.mp hc
  rw [hk]
  exact h.insertKey hf (CryptoKeyName.parse_resourceName hv) rfl
    (KeyRecord.wellFormed_newKeyRecord hk hp)

theorem WellFormed.createNextVersion (h : s.WellFormed) {name : String}
    {template : VersionTemplate} {material : KeyMaterial} {now : Timestamp} {v : CryptoKeyVersion}
    (hc : Store.createNextVersion .checked name template material now s = .ok v s') :
    s'.WellFormed := by
  obtain ⟨record, number, hf, hn, rfl, hc⟩ := createNextVersion_eq_ok_iff.mp hc
  obtain ⟨record', hf', -, rfl⟩ := createVersion_eq_ok_iff.mp hc
  obtain rfl : record = record' := Option.some.inj (hf.symm.trans hf')
  obtain ⟨k, ring, hk, -, -⟩ := findKey?_eq_some_iff.mp hf
  obtain ⟨rfl, hv⟩ := CryptoKeyName.parse_eq_ok_iff.mp hk
  exact h.replaceKey hf ((h.findKey hf).insertVersion hv hn rfl)

theorem WellFormed.exists_createNextVersion (h : s.WellFormed) {name : String} {r : KeyRecord}
    (hr : s.findKey? name = some r) (hl : r.versions.values.length + 1 < versionNumberLimit)
    (template : VersionTemplate) (material : KeyMaterial) (now : Timestamp) :
    ∃ v s', Store.createNextVersion .checked name template material now s = .ok v s' := by
  obtain ⟨k, -, hk, -, -⟩ := findKey?_eq_some_iff.mp hr
  obtain ⟨rfl, hv⟩ := CryptoKeyName.parse_eq_ok_iff.mp hk
  have hw := h.findKey hr
  refine ⟨_, _, createNextVersion_eq_ok_iff.mpr ⟨r, r.versions.values.length + 1, hr, ?_, rfl,
    createVersion_eq_ok_iff.mpr ⟨r, hr, hw.find?_next, rfl⟩⟩⟩
  rw [nextVersionNumber?_firstVersions hv hw.counted.2.2 hw.counted.2.1, if_pos hl]

theorem WellFormed.setPrimary (h : s.WellFormed) {name version : String} {key : CryptoKey}
    (hc : Store.setPrimary name version s = .ok key s') : s'.WellFormed := by
  obtain ⟨record, found, hf, hv, rfl, rfl⟩ := setPrimary_eq_ok_iff.mp hc
  exact h.replaceKey hf ((h.findKey hf).setPrimary hv)

end Store

end KeyManagement
