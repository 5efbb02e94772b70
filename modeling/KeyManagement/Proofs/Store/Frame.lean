import KeyManagement.Proofs.Store.WellFormed

/-! # What a write leaves alone

Key rings and versions found before a write are found after it, and nothing else is found
but the record that was written.
-/

namespace KeyManagement.Store

variable {s s' : Store}

/-- The key ring filed under a name. -/
def findRing? (s : Store) (name : String) : Option KeyRing := (s.rings.find? name).map (·.ring)

theorem getKeyRing_eq_ok_iff {name : String} {ring : KeyRing} :
    s.getKeyRing name = .ok ring ↔ s.findRing? name = some ring := by
  rw [getKeyRing, map_result_eq_ok_iff, findRing?, Option.map_eq_some_iff]
  simp only [findRing_eq_ok_iff]

theorem ite_some_eq_some_iff {α : Type} {p : Prop} [Decidable p] {o : Option α} {a b : α}
    (h : p → o = none) : (if p then some a else o) = some b ↔ o = some b ∨ p ∧ a = b := by
  by_cases hp : p
  · simp [hp, h hp]
  · simp [hp]

section Rings

theorem findRing?_eq_none_of_createKeyRing {ring : KeyRing}
    (h : createKeyRing ring s = .ok () s') : s.findRing? ring.name = none := by
  rw [findRing?, (createKeyRing_eq_ok_iff.mp h).1]
  rfl

theorem findRing?_createKeyRing {ring : KeyRing} (h : createKeyRing ring s = .ok () s')
    (name : String) :
    s'.findRing? name = if name = ring.name then some ring else s.findRing? name := by
  obtain ⟨-, rfl⟩ := createKeyRing_eq_ok_iff.mp h
  rw [findRing?, Keyed.find?_insert]
  split
  · rfl
  · rfl

theorem findRing?_createCryptoKey {ring : String} {key : CryptoKey} {primary : CryptoKeyVersion}
    {material : KeyMaterial} (h : createCryptoKey ring key primary material s = .ok () s')
    (name : String) : s'.findRing? name = s.findRing? name := by
  obtain ⟨record, hf, -, rfl⟩ := createCryptoKey_eq_ok_iff.mp h
  rw [findRing?, Keyed.find?_insert]
  split
  · next hn =>
    rw [findRing?, hn, hf]
    rfl
  · rfl

theorem findRing?_replaceKey (name : String) (r : KeyRecord) (ring : String) :
    (s.replaceKey name r).findRing? ring = s.findRing? ring := by
  cases hn : CryptoKeyName.parse name with
  | error e => simp only [replaceKey, hn]
  | ok n =>
    rw [findRing?, find?_replaceKey hn, findRing?]
    split
    · rw [Option.map_map]
      rfl
    · rfl

theorem findRing?_createVersion {key : String} {version : CryptoKeyVersion}
    {material : KeyMaterial} (h : createVersion key version material s = .ok () s')
    (name : String) : s'.findRing? name = s.findRing? name := by
  obtain ⟨record, -, -, rfl⟩ := createVersion_eq_ok_iff.mp h
  exact findRing?_replaceKey _ _ _

theorem findRing?_setPrimary {key version : String} {updated : CryptoKey}
    (h : setPrimary key version s = .ok updated s') (name : String) :
    s'.findRing? name = s.findRing? name := by
  obtain ⟨record, found, -, -, -, rfl⟩ := setPrimary_eq_ok_iff.mp h
  exact findRing?_replaceKey _ _ _

end Rings

section Keys

/-- The crypto key filed under a name. -/
def findCryptoKey? (s : Store) (name : String) : Option CryptoKey := (s.findKey? name).map (·.key)

@[simp] theorem findCryptoKey?_empty (name : String) : empty.findCryptoKey? name = none := by
  rw [findCryptoKey?, findKey?_empty, Option.map_none]

theorem getCryptoKey_eq_ok_iff_findCryptoKey? {name : String} {key : CryptoKey} :
    s.getCryptoKey name = .ok key ↔ s.findCryptoKey? name = some key := by
  rw [getCryptoKey_eq_ok_iff, findCryptoKey?, Option.map_eq_some_iff]

theorem findCryptoKey?_createKeyRing {ring : KeyRing} (h : createKeyRing ring s = .ok () s')
    (name : String) : s'.findCryptoKey? name = s.findCryptoKey? name := by
  simp only [findCryptoKey?, findKey?_createKeyRing h]

theorem findCryptoKey?_createCryptoKey {ring : String} {key : CryptoKey}
    {primary : CryptoKeyVersion} {material : KeyMaterial} {n : CryptoKeyName}
    (h : createCryptoKey ring key primary material s = .ok () s')
    (hn : CryptoKeyName.parse key.name = .ok n) (hr : n.parent.resourceName = ring)
    (name : String) :
    s'.findCryptoKey? name =
      if name = key.name then some { key with primary := some primary }
      else s.findCryptoKey? name := by
  rw [findCryptoKey?, findKey?_createCryptoKey h hn hr]
  split
  · rfl
  · rfl

theorem findCryptoKey?_createVersion {key : String} {version : CryptoKeyVersion}
    {material : KeyMaterial} (h : createVersion key version material s = .ok () s')
    (name : String) : s'.findCryptoKey? name = s.findCryptoKey? name := by
  obtain ⟨record, hf, -, rfl⟩ := createVersion_eq_ok_iff.mp h
  rw [findCryptoKey?, findKey?_replaceKey hf, findCryptoKey?]
  split
  · next hn => rw [hn, hf]; rfl
  · rfl

theorem findCryptoKey?_setPrimary {key version : String} {updated : CryptoKey}
    (h : setPrimary key version s = .ok updated s') (name : String) :
    s'.findCryptoKey? name = if name = key then some updated else s.findCryptoKey? name := by
  obtain ⟨record, found, hf, -, -, rfl⟩ := setPrimary_eq_ok_iff.mp h
  rw [findCryptoKey?, findKey?_replaceKey hf]
  split
  · rfl
  · rfl

theorem findKey?_eq_none_of_createCryptoKey {ring : String} {key : CryptoKey}
    {primary : CryptoKeyVersion} {material : KeyMaterial} {n : CryptoKeyName}
    (h : createCryptoKey ring key primary material s = .ok () s')
    (hn : CryptoKeyName.parse key.name = .ok n) (hr : n.parent.resourceName = ring) :
    s.findKey? key.name = none := by
  obtain ⟨record, hf, hk, -⟩ := createCryptoKey_eq_ok_iff.mp h
  rw [findKey?_eq hn, hr, hf, Option.bind_some, hk]

/-- The designated version is all that is new in the record. -/
theorem setPrimary_keeps {name version : String} {key : CryptoKey}
    (h : setPrimary name version s = .ok key s') :
    ∃ old, s.findCryptoKey? name = some old ∧ key = { old with primary := key.primary } := by
  obtain ⟨record, found, hf, -, rfl, -⟩ := setPrimary_eq_ok_iff.mp h
  exact ⟨record.key, by rw [findCryptoKey?, hf]; rfl, rfl⟩

end Keys

section Versions

theorem findVersion?_createKeyRing {ring : KeyRing} (h : createKeyRing ring s = .ok () s')
    (name : String) : s'.findVersion? name = s.findVersion? name := by
  simp only [findVersion?, findKey?_createKeyRing h]

theorem findVersion?_replaceKey {key name : String} {old r : KeyRecord}
    {n : CryptoKeyVersionName} (h : s.findKey? key = some old)
    (hn : CryptoKeyVersionName.parse name = .ok n) :
    (s.replaceKey key r).findVersion? name =
      if n.parent.resourceName = key then r.versions.find? name else s.findVersion? name := by
  rw [findVersion?_eq hn, findKey?_replaceKey h, findVersion?_eq hn]
  split
  · rfl
  · rfl

theorem findVersion?_setPrimary {key version : String} {updated : CryptoKey}
    (h : setPrimary key version s = .ok updated s') (name : String) :
    s'.findVersion? name = s.findVersion? name := by
  obtain ⟨record, found, hf, -, -, rfl⟩ := setPrimary_eq_ok_iff.mp h
  cases hn : CryptoKeyVersionName.parse name with
  | error e => rw [findVersion?_eq_none hn, findVersion?_eq_none hn]
  | ok n =>
    rw [findVersion?_replaceKey hf hn]
    split
    · next hk =>
      rw [findVersion?_eq hn, hk, hf]
      rfl
    · rfl

theorem findVersion?_createVersion {key : String} {version : CryptoKeyVersion}
    {material : KeyMaterial} {n : CryptoKeyVersionName}
    (h : createVersion key version material s = .ok () s')
    (hn : CryptoKeyVersionName.parse version.name = .ok n) (hk : n.parent.resourceName = key)
    (name : String) :
    s'.findVersion? name =
      if name = version.name then some ⟨version, material⟩ else s.findVersion? name := by
  obtain ⟨record, hf, -, rfl⟩ := createVersion_eq_ok_iff.mp h
  cases hm : CryptoKeyVersionName.parse name with
  | error e =>
    rw [if_neg (by rintro rfl; simp [hm] at hn), findVersion?_eq_none hm,
      findVersion?_eq_none hm]
  | ok m =>
    rw [findVersion?_replaceKey hf hm]
    split
    · next hp =>
      rw [Keyed.find?_insert, findVersion?_eq hm, hp, hf]
      rfl
    · next hp =>
      rw [if_neg]
      rintro rfl
      obtain rfl := Except.ok.inj (hm.symm.trans hn)
      exact hp hk

theorem findVersion?_createCryptoKey {ring : String} {key : CryptoKey}
    {primary : CryptoKeyVersion} {material : KeyMaterial} {n : CryptoKeyName}
    (h : createCryptoKey ring key primary material s = .ok () s')
    (hn : CryptoKeyName.parse key.name = .ok n) (hr : n.parent.resourceName = ring) {i : Nat}
    (hp : primary.name = (n.version i).resourceName) (name : String) :
    s'.findVersion? name =
      if name = primary.name then some ⟨primary, material⟩ else s.findVersion? name := by
  obtain ⟨hk, hv⟩ := CryptoKeyName.parse_eq_ok_iff.mp hn
  have hv : CryptoKeyVersionName.parse primary.name = .ok (n.version i) := by
    rw [hp, CryptoKeyVersionName.parse_resourceName (n.version_valid hv i)]
  cases hm : CryptoKeyVersionName.parse name with
  | error e =>
    rw [if_neg (by rintro rfl; simp [hm] at hv), findVersion?_eq_none hm,
      findVersion?_eq_none hm]
  | ok m =>
    rw [findVersion?_eq hm, findKey?_createCryptoKey h hn hr]
    split
    · next hkey =>
      have hnone : s.findVersion? name = none := by
        rw [findVersion?_eq hm, hkey, findKey?_eq_none_of_createCryptoKey h hn hr,
          Option.bind_none]
      rw [hnone]
      simp [newKeyRecord]
    · next hkey =>
      rw [if_neg, findVersion?_eq hm]
      rintro rfl
      obtain rfl := Except.ok.inj (hm.symm.trans hv)
      exact hkey hk.symm

theorem findVersion?_eq_none_of_createVersion {key : String} {version : CryptoKeyVersion}
    {material : KeyMaterial} {n : CryptoKeyVersionName}
    (h : createVersion key version material s = .ok () s')
    (hn : CryptoKeyVersionName.parse version.name = .ok n) (hk : n.parent.resourceName = key) :
    s.findVersion? version.name = none := by
  obtain ⟨record, hf, hv, -⟩ := createVersion_eq_ok_iff.mp h
  rw [findVersion?_eq hn, hk, hf, Option.bind_some, hv]

theorem findVersion?_eq_none_of_createCryptoKey {ring : String} {key : CryptoKey}
    {primary : CryptoKeyVersion} {material : KeyMaterial} {n : CryptoKeyName}
    (h : createCryptoKey ring key primary material s = .ok () s')
    (hn : CryptoKeyName.parse key.name = .ok n) (hr : n.parent.resourceName = ring) {i : Nat}
    (hp : primary.name = (n.version i).resourceName) : s.findVersion? primary.name = none := by
  obtain ⟨hk, hv⟩ := CryptoKeyName.parse_eq_ok_iff.mp hn
  rw [hp, findVersion?_eq (CryptoKeyVersionName.parse_resourceName (n.version_valid hv i))]
  change (s.findKey? n.resourceName).bind _ = none
  rw [← hk, findKey?_eq_none_of_createCryptoKey h hn hr, Option.bind_none]

theorem parse_createNextVersion {build : Build} {key : String} {template : VersionTemplate}
    {material : KeyMaterial} {now : Timestamp} {version : CryptoKeyVersion}
    (h : createNextVersion build key template material now s = .ok version s') :
    ∃ n, CryptoKeyVersionName.parse version.name = .ok n ∧ n.parent.resourceName = key := by
  obtain ⟨record, number, hf, -, rfl, -⟩ := createNextVersion_eq_ok_iff.mp h
  obtain ⟨k, ring, hk, -, -⟩ := findKey?_eq_some_iff.mp hf
  obtain ⟨rfl, hv⟩ := CryptoKeyName.parse_eq_ok_iff.mp hk
  have hn := CryptoKeyVersionName.parse_resourceName (k.version_valid hv number)
  rw [k.resourceName_version] at hn
  exact ⟨k.version number, hn, rfl⟩

end Versions

end KeyManagement.Store
