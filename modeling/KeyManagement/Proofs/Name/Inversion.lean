import KeyManagement.Proofs.Name.Identifier
import KeyManagement.Proofs.Outcome
import Mathlib.Data.List.DropRight

/-! # Names of all kinds

The four parsers together invert the formatter: a text is a name of at most one kind, and it
names at most one resource. The path of a name is what is read back from the text.
-/

namespace KeyManagement

def LocationName.ids (n : LocationName) : List String := [n.project, n.location]

def KeyRingName.ids (n : KeyRingName) : List String := n.parent.ids ++ [n.keyRing]

def CryptoKeyName.ids (n : CryptoKeyName) : List String := n.parent.ids ++ [n.cryptoKey]

/-- A name of one of the four kinds, whatever its components are. -/
inductive ResourceName
  | location (n : LocationName)
  | keyRing (n : KeyRingName)
  | cryptoKey (n : CryptoKeyName)
  | cryptoKeyVersion (n : CryptoKeyVersionName)
  deriving DecidableEq, Repr

namespace ResourceName

def kind : ResourceName → ResourceKind
  | .location _ => .location
  | .keyRing _ => .keyRing
  | .cryptoKey _ => .cryptoKey
  | .cryptoKeyVersion _ => .cryptoKeyVersion

def text : ResourceName → String
  | .location n => n.resourceName
  | .keyRing n => n.resourceName
  | .cryptoKey n => n.resourceName
  | .cryptoKeyVersion n => n.resourceName

def parse : ResourceKind → String → Except NameError ResourceName
  | .location, s => (LocationName.parse s).map .location
  | .keyRing, s => (KeyRingName.parse s).map .keyRing
  | .cryptoKey, s => (CryptoKeyName.parse s).map .cryptoKey
  | .cryptoKeyVersion, s => (CryptoKeyVersionName.parse s).map .cryptoKeyVersion

def parent? : ResourceName → Option ResourceName
  | .location _ => none
  | .keyRing n => some (.location n.parent)
  | .cryptoKey n => some (.keyRing n.parent)
  | .cryptoKeyVersion n => some (.cryptoKey n.parent)

/-- The project, the location, the key ring and the crypto key, as far as the name goes. -/
def ids : ResourceName → List String
  | .location n => n.ids
  | .keyRing n => n.ids
  | .cryptoKey n => n.ids
  | .cryptoKeyVersion n => n.parent.ids

def versionId? : ResourceName → Option String
  | .cryptoKeyVersion n => some n.version
  | _ => none

/-- All components are as the grammar has them. -/
def Grammatical (v : ResourceName) : Prop :=
  (∀ id ∈ v.ids, IsIdentifier id) ∧ ∀ id ∈ v.versionId?, IsDigits id

def path : ResourceName → List String
  | .location n => n.path
  | .keyRing n => n.path
  | .cryptoKey n => n.path
  | .cryptoKeyVersion n => n.path

variable {u v : ResourceName} {s : String} {kind kind' : ResourceKind}

theorem toList_text (v : ResourceName) : v.text.toList = joined v.path := by
  cases v with
  | location n => exact n.toList_resourceName
  | keyRing n => exact n.toList_resourceName
  | cryptoKey n => exact n.toList_resourceName
  | cryptoKeyVersion n => exact n.toList_resourceName

section Kinds

theorem kind_eq_location_iff : v.kind = .location ↔ ∃ n, location n = v := by
  cases v <;> simp [kind]

theorem kind_eq_keyRing_iff : v.kind = .keyRing ↔ ∃ n, keyRing n = v := by
  cases v <;> simp [kind]

theorem kind_eq_cryptoKey_iff : v.kind = .cryptoKey ↔ ∃ n, cryptoKey n = v := by
  cases v <;> simp [kind]

theorem kind_eq_cryptoKeyVersion_iff :
    v.kind = .cryptoKeyVersion ↔ ∃ n, cryptoKeyVersion n = v := by
  cases v <;> simp [kind]

theorem grammatical_location_iff {n : LocationName} : (location n).Grammatical ↔ n.Valid := by
  simp [Grammatical, ids, versionId?, LocationName.ids, LocationName.Valid, isId_iff]

theorem grammatical_keyRing_iff {n : KeyRingName} : (keyRing n).Grammatical ↔ n.Valid := by
  simp [Grammatical, ids, versionId?, KeyRingName.ids, LocationName.ids, KeyRingName.Valid,
    LocationName.Valid, isId_iff, and_assoc]

theorem grammatical_cryptoKey_iff {n : CryptoKeyName} : (cryptoKey n).Grammatical ↔ n.Valid := by
  simp [Grammatical, ids, versionId?, CryptoKeyName.ids, KeyRingName.ids, LocationName.ids,
    CryptoKeyName.Valid, KeyRingName.Valid, LocationName.Valid, isId_iff, and_assoc]

theorem grammatical_cryptoKeyVersion_iff {n : CryptoKeyVersionName} :
    (cryptoKeyVersion n).Grammatical ↔ n.Valid := by
  have hk : (cryptoKeyVersion n).Grammatical ↔
      (cryptoKey n.parent).Grammatical ∧ IsDigits n.version := by
    simp [Grammatical, ids, versionId?]
  rw [hk, grammatical_cryptoKey_iff, ← isVersionId_iff, CryptoKeyVersionName.Valid]

theorem map_parser_eq_ok_iff {α : Type} {parser : String → Except NameError α}
    {mk : α → ResourceName} {Valid : α → Prop}
    (hparser : ∀ {s n}, parser s = .ok n ↔ s = (mk n).text ∧ Valid n)
    (hvalid : ∀ {n}, (mk n).Grammatical ↔ Valid n) (hkind : v.kind = kind ↔ ∃ n, mk n = v) :
    (parser s).map mk = .ok v ↔ v.kind = kind ∧ s = v.text ∧ v.Grammatical := by
  rw [map_result_eq_ok_iff, hkind]
  constructor
  · rintro ⟨n, hn, rfl⟩
    obtain ⟨hs, hv⟩ := hparser.mp hn
    exact ⟨⟨n, rfl⟩, hs, hvalid.mpr hv⟩
  · rintro ⟨⟨n, rfl⟩, hs, hv⟩
    exact ⟨n, hparser.mpr ⟨hs, hvalid.mp hv⟩, rfl⟩

/-- Each parser accepts exactly what the formatter makes of grammatical components. -/
theorem parse_eq_ok_iff : parse kind s = .ok v ↔ v.kind = kind ∧ s = v.text ∧ v.Grammatical := by
  cases kind with
  | location =>
    exact map_parser_eq_ok_iff LocationName.parse_eq_ok_iff grammatical_location_iff
      kind_eq_location_iff
  | keyRing =>
    exact map_parser_eq_ok_iff KeyRingName.parse_eq_ok_iff grammatical_keyRing_iff
      kind_eq_keyRing_iff
  | cryptoKey =>
    exact map_parser_eq_ok_iff CryptoKeyName.parse_eq_ok_iff grammatical_cryptoKey_iff
      kind_eq_cryptoKey_iff
  | cryptoKeyVersion =>
    exact map_parser_eq_ok_iff CryptoKeyVersionName.parse_eq_ok_iff
      grammatical_cryptoKeyVersion_iff kind_eq_cryptoKeyVersion_iff

end Kinds

section Paths

/-- The number of segments in the names of a kind. -/
def segmentCount : ResourceKind → Nat
  | .location => 4
  | .keyRing => 6
  | .cryptoKey => 8
  | .cryptoKeyVersion => 10

theorem segmentCount_injective : Function.Injective segmentCount := by
  intro kind kind' h
  cases kind <;> cases kind' <;> simp_all [segmentCount]

theorem length_path (v : ResourceName) : v.path.length = segmentCount v.kind := by
  cases v <;> rfl

theorem path_injective : Function.Injective path := by
  intro u v h
  have hk : u.kind = v.kind :=
    segmentCount_injective (by rw [← length_path, ← length_path, h])
  cases u with
  | location n =>
    obtain ⟨m, rfl⟩ := kind_eq_location_iff.mp hk.symm
    exact congrArg _ (LocationName.path_injective h)
  | keyRing n =>
    obtain ⟨m, rfl⟩ := kind_eq_keyRing_iff.mp hk.symm
    exact congrArg _ (KeyRingName.path_injective h)
  | cryptoKey n =>
    obtain ⟨m, rfl⟩ := kind_eq_cryptoKey_iff.mp hk.symm
    exact congrArg _ (CryptoKeyName.path_injective h)
  | cryptoKeyVersion n =>
    obtain ⟨m, rfl⟩ := kind_eq_cryptoKeyVersion_iff.mp hk.symm
    exact congrArg _ (CryptoKeyVersionName.path_injective h)

theorem slash_not_mem_path (h : v.Grammatical) : ∀ p ∈ v.path, '/' ∉ p.toList := by
  cases v with
  | location n => exact LocationName.slash_not_mem_path (grammatical_location_iff.mp h)
  | keyRing n => exact KeyRingName.slash_not_mem_path (grammatical_keyRing_iff.mp h)
  | cryptoKey n => exact CryptoKeyName.slash_not_mem_path (grammatical_cryptoKey_iff.mp h)
  | cryptoKeyVersion n =>
    exact CryptoKeyVersionName.slash_not_mem_path (grammatical_cryptoKeyVersion_iff.mp h)

theorem segments_text (h : v.Grammatical) : segments v.text = v.path := by
  refine (segments_eq_iff ?_ (slash_not_mem_path h) v.toList_text).mpr rfl
  exact List.ne_nil_of_length_pos (by cases v <;> simp [length_path, kind, segmentCount])

/-- A grammatical name shares its text with no grammatical name of any kind. -/
theorem text_inj (hu : u.Grammatical) (hv : v.Grammatical) (h : u.text = v.text) : u = v :=
  path_injective (by rw [← segments_text hu, h, segments_text hv])

/-- Components that are not grammatical do not come to the text of a grammatical name of the
same kind: a slash in a component would be one too many. -/
theorem text_inj_of_kind (hk : v.kind = u.kind) (hu : u.Grammatical) (h : v.text = u.text) :
    v = u := by
  have hl : v.path.length = u.path.length := by rw [length_path, length_path, hk]
  have hj : joined v.path = joined u.path := by rw [← toList_text, ← toList_text, h]
  exact path_injective (joined_inj hl (slash_not_mem_path hu) hj)

theorem parse_text_eq_ok_iff : parse v.kind v.text = .ok u ↔ u = v ∧ v.Grammatical := by
  rw [parse_eq_ok_iff]
  constructor
  · rintro ⟨hk, ht, hu⟩
    obtain rfl := text_inj_of_kind hk.symm hu ht
    exact ⟨rfl, hu⟩
  · rintro ⟨rfl, hv⟩
    exact ⟨rfl, rfl, hv⟩

theorem path_parent {parent : ResourceName} (h : v.parent? = some parent) :
    parent.path = v.path.rdrop 2 := by
  cases v with
  | location n => contradiction
  | keyRing n => cases h; rfl
  | cryptoKey n => cases h; rfl
  | cryptoKeyVersion n => cases h; rfl

theorem splitOn_text (h : v.Grammatical) :
    v.text.toList.splitOn '/' = v.path.map String.toList := by
  rw [← segments_text h, segments, List.map_map]
  simp [Function.comp_def]

theorem toList_text_parent {parent : ResourceName} (hv : v.Grammatical)
    (h : v.parent? = some parent) :
    parent.text.toList = ['/'].intercalate ((v.text.toList.splitOn '/').rdrop 2) := by
  rw [toList_text, path_parent h, joined, splitOn_text hv]
  simp only [List.rdrop, List.map_take, List.length_map]

end Paths

/-- A parser gives a name exactly if the text is what the formatter makes of it and all its
components are grammatical. So only the name itself is read back from its text, a text is the
name of at most one resource, of one kind, and the name of its parent begins it. -/
theorem parsers_invert_formatter :
    (∀ kind s v, parse kind s = .ok v ↔ v.kind = kind ∧ s = v.text ∧ v.Grammatical) ∧
    (∀ v u, parse v.kind v.text = .ok u ↔ u = v ∧ v.Grammatical) ∧
    (∀ u v : ResourceName, u.Grammatical → v.Grammatical → u.text = v.text → u = v) ∧
    (∀ s kind kind' u v, parse kind s = .ok u → parse kind' s = .ok v → kind = kind') ∧
    (∀ kind s v parent, parse kind s = .ok v → v.parent? = some parent →
      parent.text.toList = ['/'].intercalate ((s.toList.splitOn '/').rdrop 2)) := by
  refine ⟨fun _ _ _ => parse_eq_ok_iff, fun _ _ => parse_text_eq_ok_iff,
    fun _ _ => text_inj, ?_, ?_⟩
  · intro s kind kind' u v hu hv
    obtain ⟨rfl, rfl, hug⟩ := parse_eq_ok_iff.mp hu
    obtain ⟨rfl, ht, hvg⟩ := parse_eq_ok_iff.mp hv
    rw [text_inj hug hvg ht]
  · intro kind s v parent hv hp
    obtain ⟨-, rfl, hg⟩ := parse_eq_ok_iff.mp hv
    exact toList_text_parent hg hp

/-- A version whose identifiers read like collections. -/
def sampleVersion : CryptoKeyVersionName :=
  ⟨⟨⟨⟨"projects", "locations"⟩, "keyRings"⟩, "cryptoKeys"⟩, "007"⟩

theorem sample_parent :
    parse .cryptoKeyVersion (cryptoKeyVersion sampleVersion).text =
      .ok (cryptoKeyVersion sampleVersion) ∧
    (cryptoKey sampleVersion.parent).text.toList =
      ['/'].intercalate (((cryptoKeyVersion sampleVersion).text.toList.splitOn '/').rdrop 2) := by
  have hvalid : sampleVersion.Valid := ⟨⟨⟨⟨rfl, rfl⟩, rfl⟩, rfl⟩, rfl⟩
  have hparse := (parsers_invert_formatter.2.1 (cryptoKeyVersion sampleVersion) _).mpr
    ⟨rfl, grammatical_cryptoKeyVersion_iff.mpr hvalid⟩
  exact ⟨hparse, parsers_invert_formatter.2.2.2.2 _ _ _ _ hparse rfl⟩

end ResourceName

end KeyManagement
