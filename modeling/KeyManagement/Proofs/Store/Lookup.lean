import KeyManagement.Proofs.Name.Grammar
import KeyManagement.Proofs.Outcome
import KeyManagement.Proofs.Store.Keyed
import KeyManagement.Store.Basic

/-! # What a store finds

Reads are lookups of records, and a write succeeds exactly when its guards hold. After a
write, every lookup but the one for the record written finds what it found before.
-/

namespace KeyManagement.Store

variable {s s' : Store}

/-- The record of a version, in the crypto key that its name spells. -/
def findVersion? (s : Store) (name : String) : Option VersionRecord := do
  let parsed ← (CryptoKeyVersionName.parse name).toOption
  let record ← s.findKey? parsed.parent.resourceName
  record.versions.find? name

section Reads

theorem findKey?_eq_some_iff {name : String} {r : KeyRecord} :
    s.findKey? name = some r ↔ ∃ n ring, CryptoKeyName.parse name = .ok n ∧
      s.rings.find? n.parent.resourceName = some ring ∧ ring.keys.find? name = some r := by
  unfold findKey?
  cases CryptoKeyName.parse name <;> simp [Except.toOption, Option.bind_eq_some_iff]

@[simp] theorem findKey?_empty (name : String) : empty.findKey? name = none := by
  unfold findKey?
  cases CryptoKeyName.parse name <;> rfl

@[simp] theorem findVersion?_empty (name : String) : empty.findVersion? name = none := by
  unfold findVersion?
  cases CryptoKeyVersionName.parse name <;> simp [Except.toOption]

theorem findVersion?_eq_some_iff {name : String} {v : VersionRecord} :
    s.findVersion? name = some v ↔ ∃ n r, CryptoKeyVersionName.parse name = .ok n ∧
      s.findKey? n.parent.resourceName = some r ∧ r.versions.find? name = some v := by
  unfold findVersion?
  cases CryptoKeyVersionName.parse name <;> simp [Except.toOption, Option.bind_eq_some_iff]

theorem findVersion?_eq {name : String} {n : CryptoKeyVersionName}
    (h : CryptoKeyVersionName.parse name = .ok n) :
    s.findVersion? name =
      (s.findKey? n.parent.resourceName).bind fun record => record.versions.find? name := by
  simp [findVersion?, h, Except.toOption]

theorem findVersion?_eq_none {name : String} {e : NameError}
    (h : CryptoKeyVersionName.parse name = .error e) : s.findVersion? name = none := by
  simp [findVersion?, h, Except.toOption]

theorem findRing_eq_ok_iff {name : String} {r : RingRecord} :
    s.findRing name = .ok r ↔ s.rings.find? name = some r := by
  unfold findRing
  split <;> simp [*]

theorem findKey_eq_ok_iff {name : String} {r : KeyRecord} :
    s.findKey name = .ok r ↔ s.findKey? name = some r := by
  unfold findKey
  split <;> simp [*]

theorem getCryptoKey_eq_ok_iff {name : String} {key : CryptoKey} :
    s.getCryptoKey name = .ok key ↔ ∃ r, s.findKey? name = some r ∧ r.key = key := by
  unfold getCryptoKey
  simp only [← findKey_eq_ok_iff]
  cases s.findKey name <;> simp [Except.map]

theorem listVersions_eq_ok_iff {name : String} {versions : List CryptoKeyVersion} :
    s.listVersions name = .ok versions ↔ ∃ r, s.findKey? name = some r ∧
      r.versions.values.map (·.version) = versions := by
  unfold listVersions
  simp only [← findKey_eq_ok_iff]
  cases s.findKey name <;> simp [Except.map]

theorem getVersion_eq (name : String) : s.getVersion name =
    (s.findVersion? name).elim (.error (.notFound .cryptoKeyVersion name))
      fun r => .ok (r.version, r.material) := by
  unfold getVersion
  dsimp only
  split
  · next r h =>
    change s.findVersion? name = some r at h
    rw [h, Option.elim_some]
  · next h =>
    change s.findVersion? name = none at h
    rw [h, Option.elim_none]

theorem getVersion_eq_ok_iff {name : String} {v : CryptoKeyVersion} {m : KeyMaterial} :
    s.getVersion name = .ok (v, m) ↔ s.findVersion? name = some ⟨v, m⟩ := by
  rw [getVersion_eq]
  cases s.findVersion? name with
  | none => simp
  | some r =>
    obtain ⟨v', m'⟩ := r
    simp

end Reads

section Steps

variable {α : Type}

@[simp] theorem look_eq_ok_iff {f : Store → Except StoreError α} {a : α} :
    look f s = .ok a s' ↔ f s = .ok a ∧ s = s' := by
  change (ofResultAs Stop.failed (f s) : Access Store α) s = _ ↔ _
  exact ofResultAs_eq_ok_iff

@[simp] theorem look_eq_error_iff {f : Store → Except StoreError α} {e : Stop StoreError} :
    look f s = .error e s' ↔ (∃ e', f s = .error e' ∧ .failed e' = e) ∧ s = s' := by
  change (ofResultAs Stop.failed (f s) : Access Store α) s = _ ↔ _
  exact ofResultAs_eq_error_iff

@[simp] theorem vacant_eq_ok_iff {resource : ResourceKind} {filed : Keyed α} {name : String}
    {u : Unit} : vacant resource filed name s = .ok u s' ↔ filed.find? name = none ∧ s = s' := by
  unfold vacant
  split
  · next h =>
    obtain ⟨a, ha⟩ := Option.isSome_iff_exists.mp h
    simp [ha]
  · next h => simp [Keyed.contains_eq_false_iff.mp (by simpa using h)]

@[simp] theorem vacant_eq_error_iff {resource : ResourceKind} {filed : Keyed α} {name : String}
    {e : Stop StoreError} : vacant resource filed name s = .error e s' ↔
      (∃ a, filed.find? name = some a) ∧ e = .failed (.alreadyExists resource name) ∧ s = s' := by
  unfold vacant
  split
  · next h =>
    obtain ⟨a, ha⟩ := Option.isSome_iff_exists.mp h
    rw [throw_eq_error_iff, eq_comm]
    simp [ha]
  · next h => simp [Keyed.contains_eq_false_iff.mp (by simpa using h)]

@[simp] theorem nextNumber_eq_ok_iff {build : Build} {record : KeyRecord} {number : Nat} :
    nextNumber build record s = .ok number s' ↔
      nextVersionNumber? build (record.versions.values.map (·.version.name)) = some number ∧
        s = s' := by
  unfold nextNumber
  cases nextVersionNumber? build (record.versions.values.map (·.version.name)) <;> simp

@[simp] theorem nextNumber_eq_error_iff {build : Build} {record : KeyRecord}
    {e : Stop StoreError} : nextNumber build record s = .error e s' ↔
      nextVersionNumber? build (record.versions.values.map (·.version.name)) = none ∧
        e = .overflow ∧ s = s' := by
  unfold nextNumber
  cases nextVersionNumber? build (record.versions.values.map (·.version.name)) with
  | none =>
    rw [throw_eq_error_iff, eq_comm]
    simp
  | some number => simp

end Steps

section Writes

theorem createKeyRing_eq_ok_iff {ring : KeyRing} :
    createKeyRing ring s = .ok () s' ↔
      s.rings.find? ring.name = none ∧ s' = ⟨s.rings.insert ring.name ⟨ring, .empty⟩⟩ := by
  simp only [createKeyRing, bind_eq_ok_iff, get_eq_ok_iff, vacant_eq_ok_iff, modify_eq_ok_iff]
  constructor
  · rintro ⟨_, _, ⟨rfl, rfl⟩, _, _, ⟨hf, rfl⟩, h⟩
    exact ⟨hf, h⟩
  · rintro ⟨hf, h⟩
    exact ⟨s, s, ⟨rfl, rfl⟩, (), s, ⟨hf, rfl⟩, h⟩

/-- The record of a new crypto key. -/
def newKeyRecord (key : CryptoKey) (primary : CryptoKeyVersion) (material : KeyMaterial) :
    KeyRecord where
  key := { key with primary := some primary }
  versions := Keyed.empty.insert primary.name ⟨primary, material⟩

theorem createCryptoKey_eq_ok_iff {ring : String} {key : CryptoKey} {primary : CryptoKeyVersion}
    {material : KeyMaterial} :
    createCryptoKey ring key primary material s = .ok () s' ↔
      ∃ record, s.rings.find? ring = some record ∧ record.keys.find? key.name = none ∧
        s' = ⟨s.rings.insert ring { record with
          keys := record.keys.insert key.name (newKeyRecord key primary material) }⟩ := by
  simp only [createCryptoKey, bind_eq_ok_iff, look_eq_ok_iff, findRing_eq_ok_iff,
    vacant_eq_ok_iff, modify_eq_ok_iff]
  constructor
  · rintro ⟨record, _, ⟨hr, rfl⟩, _, _, ⟨hf, rfl⟩, h⟩
    exact ⟨record, hr, hf, h⟩
  · rintro ⟨record, hr, hf, h⟩
    exact ⟨record, s, ⟨hr, rfl⟩, (), s, ⟨hf, rfl⟩, h⟩

theorem createVersion_eq_ok_iff {key : String} {version : CryptoKeyVersion}
    {material : KeyMaterial} :
    createVersion key version material s = .ok () s' ↔
      ∃ record, s.findKey? key = some record ∧ record.versions.find? version.name = none ∧
        s' = s.replaceKey key { record with
          versions := record.versions.insert version.name ⟨version, material⟩ } := by
  simp only [createVersion, bind_eq_ok_iff, look_eq_ok_iff, findKey_eq_ok_iff,
    vacant_eq_ok_iff, modify_eq_ok_iff]
  constructor
  · rintro ⟨record, _, ⟨hr, rfl⟩, _, _, ⟨hf, rfl⟩, h⟩
    exact ⟨record, hr, hf, h⟩
  · rintro ⟨record, hr, hf, h⟩
    exact ⟨record, s, ⟨hr, rfl⟩, (), s, ⟨hf, rfl⟩, h⟩

theorem createNextVersion_eq_ok_iff {build : Build} {key : String} {template : VersionTemplate}
    {material : KeyMaterial} {now : Timestamp} {version : CryptoKeyVersion} :
    createNextVersion build key template material now s = .ok version s' ↔
      ∃ record number, s.findKey? key = some record ∧
        nextVersionNumber? build (record.versions.values.map (·.version.name)) = some number ∧
        version = .enabled (versionNameOf key (Decimal.render number)) template now ∧
        createVersion key version material s = .ok () s' := by
  simp only [createNextVersion, bind_eq_ok_iff, look_eq_ok_iff, findKey_eq_ok_iff,
    nextNumber_eq_ok_iff, vacant_eq_ok_iff, modify_eq_ok_iff, pure_eq_ok_iff,
    createVersion_eq_ok_iff]
  constructor
  · rintro ⟨record, _, ⟨hr, rfl⟩, number, _, ⟨hn, rfl⟩, _, _, ⟨hf, rfl⟩, _, _, h, rfl, rfl⟩
    exact ⟨record, number, hr, hn, rfl, record, hr, hf, h⟩
  · rintro ⟨record, number, hr, hn, rfl, _, hr', hf, rfl⟩
    obtain rfl := Option.some.inj (hr.symm.trans hr')
    exact ⟨record, s, ⟨hr, rfl⟩, number, s, ⟨hn, rfl⟩, (), s, ⟨hf, rfl⟩, (), _, rfl, rfl, rfl⟩

theorem setPrimary_eq_ok_iff {name version : String} {key : CryptoKey} :
    setPrimary name version s = .ok key s' ↔
      ∃ record found, s.findKey? name = some record ∧
        record.versions.find? version = some found ∧
        key = { record.key with primary := some found.version } ∧
        s' = s.replaceKey name { record with key } := by
  simp only [setPrimary, bind_eq_ok_iff, look_eq_ok_iff, findKey_eq_ok_iff]
  constructor
  · rintro ⟨record, _, ⟨hr, rfl⟩, h⟩
    cases hv : record.versions.find? version with
    | none => simp [hv] at h
    | some found =>
      simp only [hv, bind_eq_ok_iff, modify_eq_ok_iff, pure_eq_ok_iff] at h
      obtain ⟨_, _, rfl, rfl, rfl⟩ := h
      exact ⟨record, found, hr, hv, rfl, rfl⟩
  · rintro ⟨record, found, hr, hv, rfl, rfl⟩
    refine ⟨record, s, ⟨hr, rfl⟩, ?_⟩
    simp only [hv, bind_eq_ok_iff, modify_eq_ok_iff, pure_eq_ok_iff]
    exact ⟨⟨⟩, _, rfl, trivial, rfl⟩

end Writes

section Frames

theorem findKey?_eq {name : String} {n : CryptoKeyName} (h : CryptoKeyName.parse name = .ok n) :
    s.findKey? name =
      (s.rings.find? n.parent.resourceName).bind fun ring => ring.keys.find? name := by
  simp [findKey?, h, Except.toOption]

theorem findKey?_eq_none {name : String} {e : NameError}
    (h : CryptoKeyName.parse name = .error e) : s.findKey? name = none := by
  simp [findKey?, h, Except.toOption]

theorem findKey?_createKeyRing {ring : KeyRing} (h : createKeyRing ring s = .ok () s')
    (name : String) : s'.findKey? name = s.findKey? name := by
  obtain ⟨hr, rfl⟩ := createKeyRing_eq_ok_iff.mp h
  cases hp : CryptoKeyName.parse name with
  | error e => rw [findKey?_eq_none hp, findKey?_eq_none hp]
  | ok n =>
    rw [findKey?_eq hp, findKey?_eq hp, Keyed.find?_insert]
    split
    · next hn => simp [hn, hr]
    · rfl

/-- A new crypto key is the only one whose record is another one than before. -/
theorem findKey?_createCryptoKey {ring : String} {key : CryptoKey} {primary : CryptoKeyVersion}
    {material : KeyMaterial} {n : CryptoKeyName}
    (h : createCryptoKey ring key primary material s = .ok () s')
    (hn : CryptoKeyName.parse key.name = .ok n) (hr : n.parent.resourceName = ring)
    (name : String) :
    s'.findKey? name =
      if name = key.name then some (newKeyRecord key primary material) else s.findKey? name := by
  obtain ⟨record, hf, hk, rfl⟩ := createCryptoKey_eq_ok_iff.mp h
  cases hp : CryptoKeyName.parse name with
  | error e =>
    rw [if_neg (by rintro rfl; simp [hp] at hn), findKey?_eq_none hp, findKey?_eq_none hp]
  | ok n' =>
    rw [findKey?_eq hp, findKey?_eq hp, Keyed.find?_insert]
    split
    · next hr' =>
      rw [hr', hf]
      exact Keyed.find?_insert ..
    · next hr' =>
      rw [if_neg]
      rintro rfl
      rw [hn, Except.ok.injEq] at hp
      exact hr' (hp ▸ hr)

theorem find?_replaceKey {name : String} {n : CryptoKeyName} {r : KeyRecord}
    (hn : CryptoKeyName.parse name = .ok n) (ring : String) :
    (s.replaceKey name r).rings.find? ring =
      if ring = n.parent.resourceName then
        (s.rings.find? ring).map fun rec => { rec with keys := rec.keys.insert name r }
      else s.rings.find? ring := by
  simp only [replaceKey, hn, Keyed.find?_modify]
  split
  · next h => rw [h]
  · rfl

/-- A record put in the place of another is the only one that is found anew. -/
theorem findKey?_replaceKey {name : String} {old r : KeyRecord}
    (h : s.findKey? name = some old) (name' : String) :
    (s.replaceKey name r).findKey? name' = if name' = name then some r else s.findKey? name' := by
  obtain ⟨n, ring, hn, hr, hk⟩ := findKey?_eq_some_iff.mp h
  cases hp : CryptoKeyName.parse name' with
  | error e =>
    rw [if_neg (by rintro rfl; simp [hp] at hn), findKey?_eq_none hp, findKey?_eq_none hp]
  | ok n' =>
    rw [findKey?_eq hp, findKey?_eq hp, find?_replaceKey hn]
    split
    · next hr' =>
      rw [hr', hr]
      exact Keyed.find?_insert ..
    · next hr' =>
      rw [if_neg]
      rintro rfl
      rw [hn, Except.ok.injEq] at hp
      exact hr' (hp ▸ rfl)

end Frames

end KeyManagement.Store
