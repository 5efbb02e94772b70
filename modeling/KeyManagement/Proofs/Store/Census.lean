import KeyManagement.Proofs.Store.Frame
import KeyManagement.Proofs.Store.Growth
import Mathlib.Data.Finset.Card
import Mathlib.Data.Finset.Dedup

/-! # Counting resources

The names of all key rings, crypto keys and versions in a store. In a well-formed store they
are the names that lookups find, and each write adds the names of what it creates.
-/

namespace KeyManagement.Store

variable {s s' : Store} {name : String}

def ringNames (s : Store) : Finset String := s.rings.names.toFinset

def keyNames (s : Store) : Finset String :=
  (s.rings.values.flatMap fun ring => ring.keys.names).toFinset

def versionNames (s : Store) : Finset String :=
  (s.rings.values.flatMap fun ring =>
    ring.keys.values.flatMap fun record => record.versions.names).toFinset

section Found

theorem mem_ringNames_iff : name ∈ s.ringNames ↔ ∃ ring, s.findRing? name = some ring := by
  simp [ringNames, Keyed.mem_names_iff, findRing?]

theorem WellFormed.mem_keyNames_iff (h : s.WellFormed) :
    name ∈ s.keyNames ↔ ∃ key, s.findCryptoKey? name = some key := by
  simp only [keyNames, List.mem_toFinset, List.mem_flatMap, Keyed.mem_values_iff,
    Keyed.mem_names_iff, findCryptoKey?, Option.map_eq_some_iff]
  constructor
  · rintro ⟨ring, ⟨k, hk⟩, r, hr⟩
    obtain ⟨⟨n, hn, rfl⟩, -⟩ := (h k ring hk).keys name r hr
    exact ⟨r.key, r, findKey?_eq_some_iff.mpr ⟨n, ring, hn, hk, hr⟩, rfl⟩
  · rintro ⟨-, r, hr, -⟩
    obtain ⟨n, ring, -, hk, hr⟩ := findKey?_eq_some_iff.mp hr
    exact ⟨ring, ⟨_, hk⟩, r, hr⟩

theorem WellFormed.mem_versionNames_iff (h : s.WellFormed) :
    name ∈ s.versionNames ↔ ∃ v, s.findVersion? name = some v := by
  simp only [versionNames, List.mem_toFinset, List.mem_flatMap, Keyed.mem_values_iff,
    Keyed.mem_names_iff]
  constructor
  · rintro ⟨ring, ⟨k, hk⟩, r, ⟨key, hr⟩, v, hv⟩
    obtain ⟨⟨n, hn, rfl⟩, -⟩ := (h k ring hk).keys key r hr
    have hf : s.findKey? key = some r := findKey?_eq_some_iff.mpr ⟨n, ring, hn, hk, hr⟩
    obtain ⟨-, -, -, hv⟩ := (h.find?_versions_iff hf).mp hv
    exact ⟨v, hv⟩
  · rintro ⟨v, hv⟩
    obtain ⟨n, r, -, hf, hv⟩ := findVersion?_eq_some_iff.mp hv
    obtain ⟨n, ring, -, hk, hr⟩ := findKey?_eq_some_iff.mp hf
    exact ⟨ring, ⟨_, hk⟩, r, ⟨_, hr⟩, v, hv⟩

end Found

/-- How many resources of each kind there are. -/
structure Census where
  rings : Nat
  keys : Nat
  versions : Nat

def census (s : Store) : Census := ⟨s.ringNames.card, s.keyNames.card, s.versionNames.card⟩

section Writes

variable {α : Type} {f f' : String → Option α} {names names' : Finset String}

theorem card_names_insert {new : String} {a : α} (hn : ∀ n, n ∈ names ↔ ∃ a, f n = some a)
    (hn' : ∀ n, n ∈ names' ↔ ∃ a, f' n = some a) (hnew : f new = none)
    (hf : ∀ n, f' n = if n = new then some a else f n) : names'.card = names.card + 1 := by
  have hi : names' = insert new names := by
    ext n
    rw [Finset.mem_insert, hn', hn, hf]
    split
    · next he => simp [he]
    · next he => simp [he]
  rw [hi, Finset.card_insert_of_notMem]
  simp [hn, hnew]

theorem card_names_congr (hn : ∀ n, n ∈ names ↔ ∃ a, f n = some a)
    (hn' : ∀ n, n ∈ names' ↔ ∃ a, f' n = some a) (hf : ∀ n, f' n = f n) :
    names'.card = names.card := by
  congr 1
  ext n
  rw [hn', hn, hf]

theorem census_createKeyRing (hs : s.WellFormed) (hs' : s'.WellFormed) {ring : KeyRing}
    (h : createKeyRing ring s = .ok () s') :
    s'.census = { s.census with rings := s.census.rings + 1 } := by
  refine congr (congrArg₂ _ ?_ ?_) ?_
  · exact card_names_insert (fun _ => mem_ringNames_iff) (fun _ => mem_ringNames_iff)
      (findRing?_eq_none_of_createKeyRing h) (findRing?_createKeyRing h)
  · exact card_names_congr (fun _ => hs.mem_keyNames_iff) (fun _ => hs'.mem_keyNames_iff)
      (findCryptoKey?_createKeyRing h)
  · exact card_names_congr (fun _ => hs.mem_versionNames_iff)
      (fun _ => hs'.mem_versionNames_iff) (findVersion?_createKeyRing h)

theorem census_createCryptoKey (hs : s.WellFormed) (hs' : s'.WellFormed) {ring : String}
    {key : CryptoKey} {primary : CryptoKeyVersion} {material : KeyMaterial} {n : CryptoKeyName}
    (h : createCryptoKey ring key primary material s = .ok () s')
    (hn : CryptoKeyName.parse key.name = .ok n) (hr : n.parent.resourceName = ring) {i : Nat}
    (hp : primary.name = (n.version i).resourceName) :
    s'.census = { s.census with
      keys := s.census.keys + 1
      versions := s.census.versions + 1 } := by
  refine congr (congrArg₂ _ ?_ ?_) ?_
  · exact card_names_congr (fun _ => mem_ringNames_iff) (fun _ => mem_ringNames_iff)
      (findRing?_createCryptoKey h)
  · exact card_names_insert (fun _ => hs.mem_keyNames_iff) (fun _ => hs'.mem_keyNames_iff)
      (congrArg _ (findKey?_eq_none_of_createCryptoKey h hn hr))
      (findCryptoKey?_createCryptoKey h hn hr)
  · exact card_names_insert (fun _ => hs.mem_versionNames_iff)
      (fun _ => hs'.mem_versionNames_iff) (findVersion?_eq_none_of_createCryptoKey h hn hr hp)
      (findVersion?_createCryptoKey h hn hr hp)

theorem census_createNextVersion (hs : s.WellFormed) (hs' : s'.WellFormed) {build : Build}
    {key : String} {template : VersionTemplate} {material : KeyMaterial} {now : Timestamp}
    {version : CryptoKeyVersion}
    (h : createNextVersion build key template material now s = .ok version s') :
    s'.census = { s.census with versions := s.census.versions + 1 } := by
  obtain ⟨n, hn, hk⟩ := parse_createNextVersion h
  obtain ⟨-, -, -, -, -, h⟩ := createNextVersion_eq_ok_iff.mp h
  refine congr (congrArg₂ _ ?_ ?_) ?_
  · exact card_names_congr (fun _ => mem_ringNames_iff) (fun _ => mem_ringNames_iff)
      (findRing?_createVersion h)
  · exact card_names_congr (fun _ => hs.mem_keyNames_iff) (fun _ => hs'.mem_keyNames_iff)
      (findCryptoKey?_createVersion h)
  · exact card_names_insert (fun _ => hs.mem_versionNames_iff)
      (fun _ => hs'.mem_versionNames_iff) (findVersion?_eq_none_of_createVersion h hn hk)
      (findVersion?_createVersion h hn hk)

end Writes

section Growth

theorem Grows.findRing? (h : s.Grows s') {ring : KeyRing} (hr : s.findRing? name = some ring) :
    s'.findRing? name = some ring := by
  obtain ⟨record, hf, rfl⟩ := Option.map_eq_some_iff.mp hr
  obtain ⟨record', hf', he⟩ := h.rings name record hf
  rw [Store.findRing?, hf', Option.map_some, he]

theorem Grows.ringNames_subset (h : s.Grows s') : s.ringNames ⊆ s'.ringNames := by
  intro n hn
  obtain ⟨ring, hr⟩ := mem_ringNames_iff.mp hn
  exact mem_ringNames_iff.mpr ⟨ring, h.findRing? hr⟩

theorem Grows.keyNames_subset (h : s.Grows s') (hs : s.WellFormed) (hs' : s'.WellFormed) :
    s.keyNames ⊆ s'.keyNames := by
  intro n hn
  obtain ⟨key, hk⟩ := hs.mem_keyNames_iff.mp hn
  obtain ⟨r, hf, -⟩ := Option.map_eq_some_iff.mp hk
  obtain ⟨r', hf', -⟩ := h.keys n r hf
  exact hs'.mem_keyNames_iff.mpr ⟨r'.key, Option.map_eq_some_iff.mpr ⟨r', hf', rfl⟩⟩

theorem Grows.versionNames_subset (h : s.Grows s') (hs : s.WellFormed) (hs' : s'.WellFormed) :
    s.versionNames ⊆ s'.versionNames := by
  intro n hn
  obtain ⟨v, hv⟩ := hs.mem_versionNames_iff.mp hn
  exact hs'.mem_versionNames_iff.mpr ⟨v, h.findVersion? hv⟩

end Growth

end KeyManagement.Store
