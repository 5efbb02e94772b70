import KeyManagement.Proofs.Store.Frame
import KeyManagement.Proofs.Store.Place

/-! # Where records are filed

A record is filed under its own name, below a parent that is named separately. A lookup goes to
the parent that the name itself spells, so that it finds a record only if both are the same.
-/

namespace KeyManagement.Store

variable {s s' : Store}

/-- The first name is that of the crypto key to which the second name belongs. -/
def Owns (key version : String) : Prop :=
  ∃ n, CryptoKeyVersionName.parse version = .ok n ∧ n.parent.resourceName = key

instance (key version : String) : Decidable (Owns key version) :=
  match h : CryptoKeyVersionName.parse version with
  | .error _ => .isFalse fun ⟨_, hn, _⟩ => nomatch h.symm.trans hn
  | .ok n => decidable_of_iff (n.parent.resourceName = key)
    ⟨fun hk => ⟨n, h, hk⟩, fun ⟨_, hn, hk⟩ => Except.ok.inj (h.symm.trans hn) ▸ hk⟩

theorem Contains.unique {ring ring' key : String} (h : Contains ring key)
    (h' : Contains ring' key) : ring = ring' := by
  obtain ⟨n, hn, rfl⟩ := h
  obtain ⟨n', hn', rfl⟩ := h'
  rw [Except.ok.inj (hn.symm.trans hn')]

theorem Owns.unique {key key' version : String} (h : Owns key version)
    (h' : Owns key' version) : key = key' := by
  obtain ⟨n, hn, rfl⟩ := h
  obtain ⟨n', hn', rfl⟩ := h'
  rw [Except.ok.inj (hn.symm.trans hn')]

/-- The record that is filed below a key ring, whether it belongs there or not. -/
def findKeyIn? (s : Store) (ring name : String) : Option KeyRecord :=
  (s.rings.find? ring).bind fun record => record.keys.find? name

@[simp] theorem findKeyIn?_empty (ring name : String) : empty.findKeyIn? ring name = none := rfl

theorem findKey?_eq_findKeyIn? {ring name : String} (h : Contains ring name) :
    s.findKey? name = s.findKeyIn? ring name := by
  obtain ⟨n, hn, rfl⟩ := h
  exact findKey?_eq hn

theorem exists_contains {name : String} {r : KeyRecord} (h : s.findKey? name = some r) :
    ∃ ring, Contains ring name := by
  obtain ⟨n, -, hn, -⟩ := findKey?_eq_some_iff.mp h
  exact ⟨_, n, hn, rfl⟩

section Keys

variable {ring : String} {key : CryptoKey} {primary : CryptoKeyVersion} {material : KeyMaterial}

theorem eq_of_find?_newKeyRecord {v : String} {rec : VersionRecord}
    (h : (newKeyRecord key primary material).versions.find? v = some rec) :
    v = primary.name ∧ rec = ⟨primary, material⟩ :=
  (Keyed.find?_insert_cases h).resolve_right (by simp)

theorem findKeyIn?_createKeyRing {new : KeyRing} (h : createKeyRing new s = .ok () s')
    (ring name : String) : s'.findKeyIn? ring name = s.findKeyIn? ring name := by
  obtain ⟨hr, rfl⟩ := createKeyRing_eq_ok_iff.mp h
  rw [findKeyIn?, Keyed.find?_insert, findKeyIn?]
  split
  · next he =>
    rw [he, hr]
    rfl
  · rfl

theorem findKeyIn?_createCryptoKey (h : createCryptoKey ring key primary material s = .ok () s')
    (ring' name : String) :
    s'.findKeyIn? ring' name =
      if ring' = ring ∧ name = key.name then some (newKeyRecord key primary material)
      else s.findKeyIn? ring' name := by
  obtain ⟨record, hf, -, rfl⟩ := createCryptoKey_eq_ok_iff.mp h
  rw [findKeyIn?, Keyed.find?_insert, findKeyIn?]
  by_cases hr : ring' = ring
  · subst hr
    rw [if_pos rfl, Option.bind_some, Keyed.find?_insert, hf]
    simp only [true_and, Option.bind_some]
  · rw [if_neg hr, if_neg (fun hc => hr hc.1)]

theorem findKeyIn?_replaceKey {name : String} {old r : KeyRecord}
    (h : s.findKey? name = some old) (ring name' : String) :
    (s.replaceKey name r).findKeyIn? ring name' =
      if Contains ring name ∧ name' = name then some r else s.findKeyIn? ring name' := by
  obtain ⟨n, record, hn, hr, -⟩ := findKey?_eq_some_iff.mp h
  have hc : Contains ring name ↔ ring = n.parent.resourceName :=
    ⟨fun hc => hc.unique ⟨n, hn, rfl⟩, fun he => ⟨n, hn, he.symm⟩⟩
  rw [findKeyIn?, find?_replaceKey hn, findKeyIn?]
  by_cases he : ring = n.parent.resourceName
  · have hcn : Contains ring name := hc.mpr he
    rw [if_pos he, he, hr, Option.map_some, Option.bind_some, Keyed.find?_insert, ← he]
    simp only [hcn, true_and, Option.bind_some]
  · rw [if_neg he, if_neg fun h => he (hc.mp h.1)]

/-- A new crypto key is found exactly if it was filed below its own key ring. -/
theorem findKey?_filed (h : createCryptoKey ring key primary material s = .ok () s')
    (name : String) :
    s'.findKey? name =
      if name = key.name ∧ Contains ring key.name then some (newKeyRecord key primary material)
      else s.findKey? name := by
  cases hp : CryptoKeyName.parse name with
  | error e =>
    rw [if_neg, findKey?_eq_none hp, findKey?_eq_none hp]
    rintro ⟨rfl, n, hn, -⟩
    rw [hp] at hn
    contradiction
  | ok n =>
    have hc : Contains n.parent.resourceName name := ⟨n, hp, rfl⟩
    rw [findKey?_eq_findKeyIn? hc, findKey?_eq_findKeyIn? hc, findKeyIn?_createCryptoKey h]
    refine if_congr ?_ rfl rfl
    constructor
    · rintro ⟨rfl, rfl⟩
      exact ⟨rfl, hc⟩
    · rintro ⟨rfl, hc'⟩
      exact ⟨hc.unique hc', rfl⟩

theorem findKey?_eq_none_of_contains (h : createCryptoKey ring key primary material s = .ok () s')
    (hc : Contains ring key.name) : s.findKey? key.name = none := by
  obtain ⟨n, hn, hr⟩ := hc
  exact findKey?_eq_none_of_createCryptoKey h hn hr

end Keys

section Versions

variable {material : KeyMaterial}

/-- A version is found exactly if it was filed below its own crypto key. -/
theorem findVersion?_filed {key : String} {version : CryptoKeyVersion}
    (h : createVersion key version material s = .ok () s') (name : String) :
    s'.findVersion? name =
      if name = version.name ∧ Owns key version.name then some ⟨version, material⟩
      else s.findVersion? name := by
  by_cases ho : Owns key version.name
  · obtain ⟨n, hn, hk⟩ := id ho
    rw [findVersion?_createVersion h hn hk]
    simp only [ho, and_true]
  · rw [if_neg fun hc => ho hc.2]
    obtain ⟨record, hf, -, rfl⟩ := createVersion_eq_ok_iff.mp h
    cases hm : CryptoKeyVersionName.parse name with
    | error e => rw [findVersion?_eq_none hm, findVersion?_eq_none hm]
    | ok m =>
      rw [findVersion?_replaceKey hf hm, findVersion?_eq hm]
      split
      · next hp =>
        rw [Keyed.find?_insert, if_neg, hp, hf]
        · rfl
        · rintro rfl
          exact ho ⟨m, hm, hp⟩
      · rfl

theorem findVersion?_filedKey {ring : String} {key : CryptoKey} {primary : CryptoKeyVersion}
    (h : createCryptoKey ring key primary material s = .ok () s') (name : String) :
    s'.findVersion? name =
      if name = primary.name ∧ Contains ring key.name ∧ Owns key.name primary.name then
        some ⟨primary, material⟩
      else s.findVersion? name := by
  cases hm : CryptoKeyVersionName.parse name with
  | error e =>
    rw [if_neg, findVersion?_eq_none hm, findVersion?_eq_none hm]
    rintro ⟨rfl, -, n, hn, -⟩
    rw [hm] at hn
    contradiction
  | ok m =>
    rw [findVersion?_eq hm, findKey?_filed h]
    by_cases hk : m.parent.resourceName = key.name ∧ Contains ring key.name
    · obtain ⟨hk, hc⟩ := hk
      have hnone : s.findVersion? name = none := by
        rw [findVersion?_eq hm, hk, findKey?_eq_none_of_contains h hc, Option.bind_none]
      rw [if_pos ⟨hk, hc⟩, hnone, Option.bind_some, newKeyRecord, Keyed.find?_insert,
        Keyed.find?_empty]
      refine if_congr ?_ rfl rfl
      constructor
      · rintro rfl
        exact ⟨rfl, hc, m, hm, hk⟩
      · exact And.left
    · rw [if_neg hk, if_neg, findVersion?_eq hm]
      rintro ⟨rfl, hc, ho⟩
      exact hk ⟨Owns.unique ⟨m, hm, rfl⟩ ho, hc⟩

end Versions

end KeyManagement.Store
