import KeyManagement.Proofs.Store.Lookup

/-! # Growing stores

Writes only add records. A key ring stays as it was filed, a version keeps its record and
its material, and of a crypto key only the designated primary changes.
-/

namespace KeyManagement

/-- The same crypto key later, perhaps with more versions and another primary. -/
structure KeyRecord.Grows (r r' : KeyRecord) : Prop where
  key : r'.key = { r.key with primary := r'.key.primary }
  versions : ∀ v rec, r.versions.find? v = some rec → r'.versions.find? v = some rec

/-- The same store later. -/
structure Store.Grows (s s' : Store) : Prop where
  rings : ∀ name r, s.rings.find? name = some r →
    ∃ r', s'.rings.find? name = some r' ∧ r'.ring = r.ring
  keys : ∀ name r, s.findKey? name = some r → ∃ r', s'.findKey? name = some r' ∧ r.Grows r'

theorem KeyRecord.Grows.refl (r : KeyRecord) : r.Grows r := ⟨rfl, fun _ _ h => h⟩

theorem KeyRecord.Grows.trans {r r' r'' : KeyRecord} (h : r.Grows r') (h' : r'.Grows r'') :
    r.Grows r'' where
  key := by rw [h'.key, h.key]
  versions v rec hv := h'.versions v rec (h.versions v rec hv)

theorem KeyRecord.Grows.length_le {r r' : KeyRecord} (h : r.Grows r') :
    r.versions.values.length ≤ r'.versions.values.length :=
  Keyed.length_values_le fun v rec hv => ⟨rec, h.versions v rec hv⟩

namespace Store

variable {s s' s'' : Store}

theorem Grows.refl (s : Store) : s.Grows s where
  rings _ r h := ⟨r, h, rfl⟩
  keys _ r h := ⟨r, h, .refl r⟩

theorem Grows.trans (h : s.Grows s') (h' : s'.Grows s'') : s.Grows s'' where
  rings name r hr := by
    obtain ⟨r', hr', he⟩ := h.rings name r hr
    obtain ⟨r'', hr'', he'⟩ := h'.rings name r' hr'
    exact ⟨r'', hr'', he'.trans he⟩
  keys name r hr := by
    obtain ⟨r', hr', hg⟩ := h.keys name r hr
    obtain ⟨r'', hr'', hg'⟩ := h'.keys name r' hr'
    exact ⟨r'', hr'', hg.trans hg'⟩

/-- A version that was found once is found ever after, with the same record. -/
theorem Grows.findVersion? (h : s.Grows s') {name : String} {v : VersionRecord}
    (hv : s.findVersion? name = some v) : s'.findVersion? name = some v := by
  obtain ⟨n, r, hn, hr, hf⟩ := findVersion?_eq_some_iff.mp hv
  obtain ⟨r', hr', hg⟩ := h.keys _ r hr
  exact findVersion?_eq_some_iff.mpr ⟨n, r', hn, hr', hg.versions name v hf⟩

theorem grows_createKeyRing {ring : KeyRing} (h : createKeyRing ring s = .ok () s') :
    s.Grows s' where
  rings name r hr := by
    obtain ⟨hn, rfl⟩ := createKeyRing_eq_ok_iff.mp h
    refine ⟨r, ?_, rfl⟩
    rw [Keyed.find?_insert, if_neg, hr]
    rintro rfl
    rw [hn] at hr
    contradiction
  keys name r hr := ⟨r, by rw [findKey?_createKeyRing h, hr], .refl r⟩

theorem grows_createCryptoKey {ring : String} {key : CryptoKey} {primary : CryptoKeyVersion}
    {material : KeyMaterial} (h : createCryptoKey ring key primary material s = .ok () s') :
    s.Grows s' where
  rings name r hr := by
    obtain ⟨record, hf, -, rfl⟩ := createCryptoKey_eq_ok_iff.mp h
    rw [Keyed.find?_insert]
    split
    · next he =>
      subst he
      rw [hf] at hr
      cases hr
      exact ⟨_, rfl, rfl⟩
    · exact ⟨r, hr, rfl⟩
  keys name r hr := by
    obtain ⟨record, hf, hk, rfl⟩ := createCryptoKey_eq_ok_iff.mp h
    obtain ⟨n, old, hn, ho, hr⟩ := findKey?_eq_some_iff.mp hr
    refine ⟨r, ?_, .refl r⟩
    rw [findKey?_eq hn, Keyed.find?_insert]
    split
    · next he =>
      rw [he, hf] at ho
      cases ho
      rw [Option.bind_some, Keyed.find?_insert, if_neg, hr]
      rintro rfl
      rw [hk] at hr
      contradiction
    · rw [ho, Option.bind_some, hr]

theorem grows_replaceKey {name : String} {old r : KeyRecord} (h : s.findKey? name = some old)
    (hg : old.Grows r) : s.Grows (s.replaceKey name r) where
  rings name' r' hr' := by
    obtain ⟨n, ring, hn, -, -⟩ := findKey?_eq_some_iff.mp h
    rw [find?_replaceKey hn, hr']
    split
    · exact ⟨_, rfl, rfl⟩
    · exact ⟨r', rfl, rfl⟩
  keys name' r' hr' := by
    rw [findKey?_replaceKey h]
    split
    · next he =>
      subst he
      rw [h] at hr'
      cases hr'
      exact ⟨r, rfl, hg⟩
    · exact ⟨r', hr', .refl r'⟩

theorem grows_createVersion {key : String} {version : CryptoKeyVersion} {material : KeyMaterial}
    (h : createVersion key version material s = .ok () s') : s.Grows s' := by
  obtain ⟨record, hf, hv, rfl⟩ := createVersion_eq_ok_iff.mp h
  refine grows_replaceKey hf ⟨rfl, fun v rec hr => ?_⟩
  rw [Keyed.find?_insert, if_neg, hr]
  rintro rfl
  rw [hv] at hr
  contradiction

theorem grows_createNextVersion {build : Build} {key : String} {template : VersionTemplate}
    {material : KeyMaterial} {now : Timestamp} {version : CryptoKeyVersion}
    (h : createNextVersion build key template material now s = .ok version s') : s.Grows s' := by
  obtain ⟨-, -, -, -, -, hc⟩ := createNextVersion_eq_ok_iff.mp h
  exact grows_createVersion hc

theorem grows_setPrimary {name version : String} {key : CryptoKey}
    (h : setPrimary name version s = .ok key s') : s.Grows s' := by
  obtain ⟨record, found, hf, -, rfl, rfl⟩ := setPrimary_eq_ok_iff.mp h
  exact grows_replaceKey hf ⟨rfl, fun _ _ hv => hv⟩

/-- Every version record in the store satisfies a predicate. -/
def EveryVersion (P : VersionRecord → Prop) (s : Store) : Prop :=
  ∀ name r v rec, s.findKey? name = some r → r.versions.find? v = some rec → P rec

section EveryVersion

variable {P : VersionRecord → Prop}

theorem everyVersion_empty : EveryVersion P empty := by
  intro name r v rec hr
  obtain ⟨n, ring, -, hf, -⟩ := findKey?_eq_some_iff.mp hr
  simp [empty] at hf

theorem EveryVersion.findVersion? (hP : EveryVersion P s) {name : String} {rec : VersionRecord}
    (h : s.findVersion? name = some rec) : P rec := by
  obtain ⟨n, r, -, hr, hv⟩ := findVersion?_eq_some_iff.mp h
  exact hP _ r name rec hr hv

theorem EveryVersion.createKeyRing (hP : EveryVersion P s) {ring : KeyRing}
    (h : createKeyRing ring s = .ok () s') : EveryVersion P s' := by
  intro name r v rec hr
  rw [findKey?_createKeyRing h] at hr
  exact hP name r v rec hr

theorem EveryVersion.createCryptoKey (hP : EveryVersion P s) {ring : String} {key : CryptoKey}
    {primary : CryptoKeyVersion} {material : KeyMaterial} {n : CryptoKeyName}
    (h : createCryptoKey ring key primary material s = .ok () s')
    (hn : CryptoKeyName.parse key.name = .ok n) (hp : n.parent.resourceName = ring)
    (hm : P ⟨primary, material⟩) : EveryVersion P s' := by
  intro name r v rec hr hv
  rw [findKey?_createCryptoKey h hn hp] at hr
  split at hr
  · cases hr
    simp only [newKeyRecord, Keyed.find?_insert, Keyed.find?_empty] at hv
    split at hv
    · cases hv
      exact hm
    · contradiction
  · exact hP name r v rec hr hv

theorem EveryVersion.createVersion (hP : EveryVersion P s) {key : String}
    {version : CryptoKeyVersion} {material : KeyMaterial}
    (h : createVersion key version material s = .ok () s') (hm : P ⟨version, material⟩) :
    EveryVersion P s' := by
  obtain ⟨record, hf, -, rfl⟩ := createVersion_eq_ok_iff.mp h
  intro name r v rec hr hv
  rw [findKey?_replaceKey hf] at hr
  split at hr
  · cases hr
    rw [Keyed.find?_insert] at hv
    split at hv
    · cases hv
      exact hm
    · exact hP key record v rec hf hv
  · exact hP name r v rec hr hv

theorem EveryVersion.setPrimary (hP : EveryVersion P s) {name version : String}
    {key : CryptoKey} (h : setPrimary name version s = .ok key s') : EveryVersion P s' := by
  obtain ⟨record, found, hf, -, rfl, rfl⟩ := setPrimary_eq_ok_iff.mp h
  intro name' r v rec hr hv
  rw [findKey?_replaceKey hf] at hr
  split at hr
  · cases hr
    exact hP name record v rec hf hv
  · exact hP name' r v rec hr hv

end EveryVersion

end Store

end KeyManagement
