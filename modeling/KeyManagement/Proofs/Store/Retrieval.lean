import KeyManagement.Proofs.Store.Command

/-! # Finding again what was filed

Reads after a create are equations: what was created is found if it was filed below its own
parent, and otherwise every read is as before. As long as every command names the right parent,
no two records carry one name, and a name that is taken is refused.
-/

namespace KeyManagement.Store

variable {s s' : Store}

/-- The version record is filed under a name, in the record of a crypto key below a key ring. -/
def HoldsVersion (s : Store) (ring key name : String) (v : VersionRecord) : Prop :=
  ∃ r, s.findKeyIn? ring key = some r ∧ r.versions.find? name = some v

/-- A crypto key carries the name, wherever it is filed. -/
def TakenByKey (s : Store) (name : String) : Prop :=
  ∃ ring place r, s.findKeyIn? ring place = some r ∧ r.key.name = name

/-- A version carries the name, wherever it is filed. -/
def TakenByVersion (s : Store) (name : String) : Prop :=
  ∃ ring key place v, s.HoldsVersion ring key place v ∧ v.version.name = name

/-- What the reads give after something was created. -/
structure ReadsBack (s : Store) : Prop where
  keyRing : ∀ ring s', createKeyRing ring s = .ok () s' → ∀ name,
    s'.getKeyRing name = if name = ring.name then .ok ring else s.getKeyRing name
  cryptoKey : ∀ ring key primary material s',
    createCryptoKey ring key primary material s = .ok () s' → ∀ name, s'.getCryptoKey name =
      if name = key.name ∧ Contains ring key.name then .ok { key with primary := some primary }
      else s.getCryptoKey name
  firstVersion : ∀ ring key primary material s',
    createCryptoKey ring key primary material s = .ok () s' → ∀ name, s'.getVersion name =
      if name = primary.name ∧ Contains ring key.name ∧ Owns key.name primary.name then
        .ok (primary, material)
      else s.getVersion name
  version : ∀ key version material s', createVersion key version material s = .ok () s' →
    ∀ name, s'.getVersion name =
      if name = version.name ∧ Owns key version.name then .ok (version, material)
      else s.getVersion name

/-- No name is carried by two records, and a create is refused exactly for a name that is taken
or a parent that is missing. -/
structure Unambiguous (s : Store) : Prop where
  keys : ∀ ring name r ring' name' r', s.findKeyIn? ring name = some r →
    s.findKeyIn? ring' name' = some r' → r.key.name = r'.key.name → ring = ring' ∧ name = name'
  versions : ∀ ring key name v ring' key' name' v', s.HoldsVersion ring key name v →
    s.HoldsVersion ring' key' name' v' → v.version.name = v'.version.name →
    ring = ring' ∧ key = key' ∧ name = name'
  keyRing_refused : ∀ old ring, s.getKeyRing ring.name = .ok old →
    createKeyRing ring s = .error (.failed (.alreadyExists .keyRing ring.name)) s
  keyRing_accepted_iff : ∀ ring, (∃ s', createKeyRing ring s = .ok () s') ↔
    ¬ ∃ old, s.getKeyRing ring.name = .ok old
  cryptoKey_refused : ∀ ring key primary material, Contains ring key.name →
    s.TakenByKey key.name →
    createCryptoKey ring key primary material s =
      .error (.failed (.alreadyExists .cryptoKey key.name)) s
  cryptoKey_accepted_iff : ∀ ring key primary material, Contains ring key.name →
    ((∃ s', createCryptoKey ring key primary material s = .ok () s') ↔
      (∃ parent, s.getKeyRing ring = .ok parent) ∧ ¬ s.TakenByKey key.name)
  version_refused : ∀ key version material, Owns key version.name →
    s.TakenByVersion version.name →
    createVersion key version material s =
      .error (.failed (.alreadyExists .cryptoKeyVersion version.name)) s
  version_accepted_iff : ∀ key version material, Owns key version.name →
    ((∃ s', createVersion key version material s = .ok () s') ↔
      (∃ parent, s.getCryptoKey key = .ok parent) ∧ ¬ s.TakenByVersion version.name)

section Reads

theorem getKeyRing_eq (s : Store) (name : String) :
    s.getKeyRing name = (s.findRing? name).elim (.error (.notFound .keyRing name)) .ok := by
  unfold getKeyRing findRing findRing?
  cases s.rings.find? name <;> rfl

theorem getCryptoKey_eq (s : Store) (name : String) :
    s.getCryptoKey name =
      (s.findKey? name).elim (.error (.notFound .cryptoKey name)) fun r => .ok r.key := by
  unfold getCryptoKey findKey
  cases s.findKey? name <;> rfl

/-- Every store reads back what it accepts, if that is below its own parent. -/
theorem readsBack (s : Store) : s.ReadsBack where
  keyRing ring s' h name := by
    rw [getKeyRing_eq, findRing?_createKeyRing h, getKeyRing_eq]
    split
    · rfl
    · rfl
  cryptoKey ring key primary material s' h name := by
    rw [getCryptoKey_eq, findKey?_filed h, getCryptoKey_eq]
    split
    · rfl
    · rfl
  firstVersion ring key primary material s' h name := by
    rw [getVersion_eq, findVersion?_filedKey h, getVersion_eq]
    split
    · rfl
    · rfl
  version key version material s' h name := by
    rw [getVersion_eq, findVersion?_filed h, getVersion_eq]
    split
    · rfl
    · rfl

end Reads

section Orderly

/-- Whatever the command files, it files below its own parent. -/
def Command.Orderly : Command → Prop
  | .createCryptoKey ring key primary _ => Contains ring key.name ∧ Owns key.name primary.name
  | .createVersion key version _ => Owns key version.name
  | .createKeyRing _ | .createNextVersion .. | .setPrimary .. => True

instance : DecidablePred Command.Orderly
  | .createCryptoKey ring key primary _ =>
    inferInstanceAs (Decidable (Contains ring key.name ∧ Owns key.name primary.name))
  | .createVersion key version _ => inferInstanceAs (Decidable (Owns key version.name))
  | .createKeyRing _ | .createNextVersion .. | .setPrimary .. => .isTrue trivial

theorem Command.Orderly.owns {c : Command} {key version : String} (h : c.Orderly)
    (hf : c.Files s key version) : Owns key version := by
  rcases hf.names_or_owns with hn | ho
  · cases hn with
    | first => exact h.2
    | explicit => exact h
  · exact ho

/-- The record of a crypto key is below its own key ring, and its versions are its own. -/
structure Placed (ring name : String) (r : KeyRecord) : Prop where
  contained : Contains ring name
  owned : ∀ v rec, r.versions.find? v = some rec → Owns name v

theorem placed_after {commands : List Command} (h : ∀ c ∈ commands, c.Orderly) :
    ∀ ring name r, (after commands).findKeyIn? ring name = some r → Placed ring name r := by
  refine every_record_after (fun s c ring name o r hc ht ih => ?_) h
  cases ht with
  | keeps => exact ih r rfl
  | creates he hn =>
    subst he hn
    refine ⟨hc.1, fun v rec hv => ?_⟩
    obtain ⟨rfl, rfl⟩ := eq_of_find?_newKeyRecord hv
    exact hc.2
  | @adds old version material hnone hf =>
    refine ⟨(ih old rfl).contained, fun v rec hv => ?_⟩
    rcases Keyed.find?_insert_cases hv with ⟨rfl, rfl⟩ | hv
    · exact hc.owns hf
    · exact (ih old rfl).owned v rec hv
  | designates old found => exact ⟨(ih old rfl).contained, (ih old rfl).owned⟩

end Orderly

section Refusals

theorem createKeyRing_eq_alreadyExists {old ring : KeyRing}
    (h : s.getKeyRing ring.name = .ok old) :
    createKeyRing ring s = .error (.failed (.alreadyExists .keyRing ring.name)) s := by
  obtain ⟨record, hr, -⟩ := Option.map_eq_some_iff.mp (getKeyRing_eq_ok_iff.mp h)
  simp [createKeyRing, hr]

theorem createCryptoKey_eq_alreadyExists {ring : String} {key : CryptoKey} {r : KeyRecord}
    (h : s.findKeyIn? ring key.name = some r) (primary : CryptoKeyVersion)
    (material : KeyMaterial) :
    createCryptoKey ring key primary material s =
      .error (.failed (.alreadyExists .cryptoKey key.name)) s := by
  obtain ⟨record, hr, hk⟩ := Option.bind_eq_some_iff.mp h
  simp [createCryptoKey, findRing_eq_ok_iff.mpr hr, hk]

theorem createVersion_eq_alreadyExists {key : String} {version : CryptoKeyVersion} {r : KeyRecord}
    {v : VersionRecord} (h : s.findKey? key = some r) (hv : r.versions.find? version.name = some v)
    (material : KeyMaterial) :
    createVersion key version material s =
      .error (.failed (.alreadyExists .cryptoKeyVersion version.name)) s := by
  simp [createVersion, findKey_eq_ok_iff.mpr h, hv]

theorem exists_createKeyRing_iff {ring : KeyRing} :
    (∃ s', createKeyRing ring s = .ok () s') ↔ ¬ ∃ old, s.getKeyRing ring.name = .ok old := by
  simp [createKeyRing_eq_ok_iff, getKeyRing_eq_ok_iff, findRing?, ← Option.ne_none_iff_exists']

theorem exists_createCryptoKey_iff {ring : String} {key : CryptoKey} {primary : CryptoKeyVersion}
    {material : KeyMaterial} : (∃ s', createCryptoKey ring key primary material s = .ok () s') ↔
      (∃ parent, s.getKeyRing ring = .ok parent) ∧ s.findKeyIn? ring key.name = none := by
  simp only [createCryptoKey_eq_ok_iff, getKeyRing_eq_ok_iff, findRing?, findKeyIn?]
  cases s.rings.find? ring <;> simp

theorem exists_createVersion_iff {key : String} {version : CryptoKeyVersion}
    {material : KeyMaterial} : (∃ s', createVersion key version material s = .ok () s') ↔
      (∃ parent, s.getCryptoKey key = .ok parent) ∧
        ∀ r, s.findKey? key = some r → r.versions.find? version.name = none := by
  simp only [createVersion_eq_ok_iff, getCryptoKey_eq_ok_iff]
  cases s.findKey? key <;> simp

end Refusals

section Unambiguous

/-- The name of a record tells where it is: under that name, below the parent that it spells. -/
structure Located (s : Store) : Prop where
  key : ∀ ring name r, s.findKeyIn? ring name = some r → r.key.name = name ∧ Contains ring name
  version : ∀ ring key name v, s.HoldsVersion ring key name v →
    v.version.name = name ∧ Owns key name ∧ Contains ring key

theorem located_after {commands : List Command} (h : ∀ c ∈ commands, c.Orderly) :
    (after commands).Located where
  key ring name r hr :=
    ⟨(filed_after commands ring name r hr).1, (placed_after h ring name r hr).contained⟩
  version ring key name v hv := by
    obtain ⟨r, hr, hv⟩ := hv
    have hp := placed_after h ring key r hr
    exact ⟨(filed_after commands ring key r hr).2 name v hv, hp.owned name v hv, hp.contained⟩

namespace Located

variable (hs : s.Located)

include hs

theorem takenByKey_iff {ring name : String} (hc : Contains ring name) :
    s.TakenByKey name ↔ ∃ r, s.findKeyIn? ring name = some r := by
  constructor
  · rintro ⟨ring', place, r, hr, rfl⟩
    obtain ⟨rfl, hc'⟩ := hs.key ring' place r hr
    exact ⟨r, hc.unique hc' ▸ hr⟩
  · rintro ⟨r, hr⟩
    exact ⟨ring, name, r, hr, (hs.key ring name r hr).1⟩

theorem takenByVersion_iff {key name : String} (ho : Owns key name) :
    s.TakenByVersion name ↔ ∃ r v, s.findKey? key = some r ∧ r.versions.find? name = some v := by
  constructor
  · rintro ⟨ring, key', place, v, ⟨r, hr, hv⟩, rfl⟩
    obtain ⟨rfl, ho', hc⟩ := hs.version ring key' place v ⟨r, hr, hv⟩
    obtain rfl := ho.unique ho'
    exact ⟨r, v, by rw [findKey?_eq_findKeyIn? hc, hr], hv⟩
  · rintro ⟨r, v, hr, hv⟩
    obtain ⟨ring, hc⟩ := exists_contains hr
    rw [findKey?_eq_findKeyIn? hc] at hr
    have hh : s.HoldsVersion ring key name v := ⟨r, hr, hv⟩
    exact ⟨ring, key, name, v, hh, (hs.version ring key name v hh).1⟩

theorem unambiguous : s.Unambiguous where
  keys ring name r ring' name' r' hr hr' he := by
    obtain ⟨rfl, hc⟩ := hs.key ring name r hr
    obtain ⟨rfl, hc'⟩ := hs.key ring' name' r' hr'
    exact ⟨hc.unique (he ▸ hc'), he⟩
  versions ring key name v ring' key' name' v' hv hv' he := by
    obtain ⟨rfl, ho, hc⟩ := hs.version ring key name v hv
    obtain ⟨rfl, ho', hc'⟩ := hs.version ring' key' name' v' hv'
    obtain rfl := ho.unique (he ▸ ho')
    exact ⟨hc.unique hc', rfl, he⟩
  keyRing_refused old ring := createKeyRing_eq_alreadyExists
  keyRing_accepted_iff ring := exists_createKeyRing_iff
  cryptoKey_refused ring key primary material hc ht := by
    obtain ⟨r, hr⟩ := (hs.takenByKey_iff hc).mp ht
    exact createCryptoKey_eq_alreadyExists hr primary material
  cryptoKey_accepted_iff ring key primary material hc := by
    rw [exists_createCryptoKey_iff, hs.takenByKey_iff hc, ← Option.ne_none_iff_exists', not_not]
  version_refused key version material ho ht := by
    obtain ⟨r, v, hr, hv⟩ := (hs.takenByVersion_iff ho).mp ht
    exact createVersion_eq_alreadyExists hr hv material
  version_accepted_iff key version material ho := by
    simp [exists_createVersion_iff, hs.takenByVersion_iff ho, Option.eq_none_iff_forall_ne_some]

end Located

end Unambiguous

/-- If every command files below the right parent, then all that is accepted is found again, now
and after any further commands, under a name that nothing else carries. -/
theorem retrieval {commands : List Command} (h : ∀ c ∈ commands, c.Orderly) :
    (after commands).ReadsBack ∧ (after commands).Unambiguous ∧
      ∀ later, (after commands).Grows (after (commands ++ later)) :=
  ⟨readsBack _, (located_after h).unambiguous, after_grows commands⟩

end KeyManagement.Store

namespace KeyManagement.Sample

open Store

def wellPlaced : List Command :=
  [createRing "r", createKey (ringName "r") (keyName "r" "k"),
    createVersion (keyName "r" "k") (versionNameOf (keyName "r" "k") "7")]

theorem sample_retrieval : (∀ c ∈ wellPlaced, c.Orderly) ∧ (after wellPlaced).ReadsBack ∧
    (after wellPlaced).Unambiguous ∧
    ∀ later, (after wellPlaced).Grows (after (wellPlaced ++ later)) :=
  ⟨by decide +kernel, retrieval (by decide +kernel)⟩

/-- Two key rings, to the second of which a crypto key of the first one is added. -/
def twoRings : List Command := [createRing "r", createRing "r2"]

def misplacedKey : Command := createKey (ringName "r2") (keyName "r" "k")

/-- The misplaced crypto key is accepted but not found, nor is its version, and a second one of
its name is accepted as well. -/
theorem misplaced_key_lost :
    (answerOf (misplacedKey.perform (after twoRings))).isOk = true ∧
      (after (twoRings ++ [misplacedKey])).getCryptoKey (keyName "r" "k") =
        .error (.notFound .cryptoKey (keyName "r" "k")) ∧
      (after (twoRings ++ [misplacedKey])).getVersion (versionNameOf (keyName "r" "k") "1") =
        .error (.notFound .cryptoKeyVersion (versionNameOf (keyName "r" "k") "1")) ∧
      (answerOf ((createKey (ringName "r") (keyName "r" "k")).perform
        (after (twoRings ++ [misplacedKey])))).isOk = true := by
  decide +kernel

end KeyManagement.Sample
