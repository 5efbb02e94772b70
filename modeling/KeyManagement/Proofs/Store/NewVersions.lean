import KeyManagement.Proofs.Store.Census

/-! # Versions added to a crypto key

Versions that are filed one after another add to the count of their crypto key, and leave
everything else as it was.
-/

namespace KeyManagement.Store

variable {s s' : Store} {key : String}

section One

variable {build : Build} {template : VersionTemplate} {material : KeyMaterial}
  {now : Timestamp} {version : CryptoKeyVersion}

theorem findKey?_createNextVersion {r : KeyRecord}
    (h : createNextVersion build key template material now s = .ok version s')
    (hr : s.findKey? key = some r) :
    ∃ r', s'.findKey? key = some r' ∧ r'.key = r.key ∧
      r'.versions.values.length = r.versions.values.length + 1 := by
  obtain ⟨-, -, -, -, -, h⟩ := createNextVersion_eq_ok_iff.mp h
  obtain ⟨r₀, hf, hnew, rfl⟩ := createVersion_eq_ok_iff.mp h
  obtain rfl := Option.some.inj (hr.symm.trans hf)
  have hr' := findKey?_replaceKey hf (s := s) (r := { r with
    versions := r.versions.insert version.name ⟨version, material⟩ }) key
  rw [if_pos rfl] at hr'
  exact ⟨_, hr', rfl, (Keyed.perm_values_insert hnew).length_eq⟩

theorem findKey?_createNextVersion_of_ne
    (h : createNextVersion build key template material now s = .ok version s') {name : String}
    (hn : name ≠ key) : s'.findKey? name = s.findKey? name := by
  obtain ⟨-, -, -, -, -, h⟩ := createNextVersion_eq_ok_iff.mp h
  obtain ⟨r, hf, -, rfl⟩ := createVersion_eq_ok_iff.mp h
  rw [findKey?_replaceKey hf, if_neg hn]

theorem findRing?_createNextVersion
    (h : createNextVersion build key template material now s = .ok version s') (name : String) :
    s'.findRing? name = s.findRing? name := by
  obtain ⟨-, -, -, -, -, h⟩ := createNextVersion_eq_ok_iff.mp h
  exact findRing?_createVersion h name

end One

/-- The second store is the first one with that many more versions of a crypto key. -/
inductive NewVersions (key : String) : Nat → Store → Store → Prop
  | none (s : Store) : NewVersions key 0 s s
  | next {k : Nat} {s t s' : Store} {template : VersionTemplate} {material : KeyMaterial}
      {now : Timestamp} {version : CryptoKeyVersion}
      (h : createNextVersion .checked key template material now s = .ok version t)
      (ht : NewVersions key k t s') : NewVersions key (k + 1) s s'

namespace NewVersions

variable {k : Nat}

theorem eq_of_zero (h : NewVersions key 0 s s') : s' = s := by
  cases h
  rfl

theorem wellFormed (h : NewVersions key k s s') (hs : s.WellFormed) : s'.WellFormed := by
  induction h with
  | none s => exact hs
  | next h _ ih => exact ih (hs.createNextVersion h)

theorem grows (h : NewVersions key k s s') : s.Grows s' := by
  induction h with
  | none s => exact .refl s
  | next h _ ih => exact (grows_createNextVersion h).trans ih

theorem findRing? (h : NewVersions key k s s') (name : String) :
    s'.findRing? name = s.findRing? name := by
  induction h with
  | none s => rfl
  | next h _ ih => rw [ih, findRing?_createNextVersion h]

theorem findKey?_of_ne (h : NewVersions key k s s') {name : String} (hn : name ≠ key) :
    s'.findKey? name = s.findKey? name := by
  induction h with
  | none s => rfl
  | next h _ ih => rw [ih, findKey?_createNextVersion_of_ne h hn]

theorem findKey? (h : NewVersions key k s s') {r : KeyRecord} (hr : s.findKey? key = some r) :
    ∃ r', s'.findKey? key = some r' ∧ r'.key = r.key ∧
      r'.versions.values.length = r.versions.values.length + k := by
  induction h generalizing r with
  | none s => exact ⟨r, hr, rfl, rfl⟩
  | next h _ ih =>
    obtain ⟨r₁, hr₁, hk₁, hl₁⟩ := findKey?_createNextVersion h hr
    obtain ⟨r', hr', hk', hl'⟩ := ih hr₁
    exact ⟨r', hr', hk'.trans hk₁, by omega⟩

theorem census (h : NewVersions key k s s') (hs : s.WellFormed) :
    s'.census = { s.census with versions := s.census.versions + k } := by
  induction h with
  | none s => rfl
  | next h _ ih =>
    have ht := hs.createNextVersion h
    rw [ih ht, census_createNextVersion hs ht h, Nat.add_assoc, Nat.add_comm 1]

end NewVersions

end KeyManagement.Store
