import KeyManagement.Proofs.Store.Retrieval
import Mathlib.Order.Bounds.Basic

/-! # The number of the next version

A version name may spell a number of any length, but only numbers below the limit count. The next
version is numbered one past the highest of those, so that it is past all numbers of its crypto
key if and only if all of them are below the limit. One past the last number of all, the sum
overflows or wraps around.
-/

namespace KeyManagement

/-- The number that a well-formed version name spells, whether it is below the limit or not. -/
def spelledNumber? (name : String) : Option Nat :=
  (CryptoKeyVersionName.parse name).toOption.map fun n => Decimal.value n.version.toList

/-- One of the versions in the record is named by the number. -/
def KeyRecord.Numbers (r : KeyRecord) (i : Nat) : Prop :=
  ∃ v rec, r.versions.find? v = some rec ∧ spelledNumber? v = some i

/-- The name is that of the version to come next in the record of a crypto key. -/
structure KeyRecord.IsNext (r : KeyRecord) (key version : String) (m : Nat) : Prop where
  own : Store.Owns key version
  spelled : spelledNumber? version = some m
  fits : m < versionNumberLimit
  least : IsLeast {m | 0 < m ∧ ∀ i < versionNumberLimit, r.Numbers i → i < m} m
  /-- It is past numbers that do not fit only if there are none. -/
  past_all_iff : (∀ i, r.Numbers i → i < m) ↔ ∀ i, r.Numbers i → i < versionNumberLimit

section Numbers

theorem versionNumber?_eq_filter (name : String) :
    versionNumber? name = (spelledNumber? name).filter (· < versionNumberLimit) := by
  unfold versionNumber? spelledNumber?
  cases hn : CryptoKeyVersionName.parse name with
  | error e => rfl
  | ok n =>
    obtain ⟨-, hv⟩ := CryptoKeyVersionName.parse_eq_ok_iff.mp hn
    exact CryptoKeyVersionName.number?_eq hv

theorem versionNumber?_eq_some_iff {name : String} {i : Nat} :
    versionNumber? name = some i ↔ spelledNumber? name = some i ∧ i < versionNumberLimit := by
  simp [versionNumber?_eq_filter, Option.filter_eq_some_iff]

theorem spelledNumber?_version {k : CryptoKeyName} (hk : k.Valid) (i : Nat) :
    spelledNumber? (versionNameOf k.resourceName (Decimal.render i)) = some i := by
  rw [spelledNumber?, ← k.resourceName_version,
    CryptoKeyVersionName.parse_resourceName (k.version_valid hk i)]
  exact congrArg some ((congrArg Decimal.value (Decimal.toList_render i)).trans
    (Decimal.value_toDigits i))

theorem foldl_max_le_iff {l : List Nat} {a b : Nat} :
    l.foldl max a ≤ b ↔ a ≤ b ∧ ∀ x ∈ l, x ≤ b := by
  induction l generalizing a with
  | nil => simp
  | cons x l ih => simp [ih, and_assoc]

theorem highestNumber_le_iff {names : List String} {b : Nat} :
    highestNumber names ≤ b ↔
      ∀ name ∈ names, ∀ i < versionNumberLimit, spelledNumber? name = some i → i ≤ b := by
  simp only [highestNumber, foldl_max_le_iff, List.mem_filterMap, versionNumber?_eq_some_iff]
  constructor
  · rintro ⟨-, h⟩ name hn i hi hs
    exact h i ⟨name, hn, hs, hi⟩
  · intro h
    refine ⟨Nat.zero_le b, ?_⟩
    rintro i ⟨name, hn, hs, hi⟩
    exact h name hn i hi hs

namespace Build

theorem successor?_of_lt {n : Nat} (h : n + 1 < versionNumberLimit) (build : Build) :
    build.successor? n = some (n + 1) := by
  cases build with
  | checked => rw [successor?, if_pos h]
  | wrapping => rw [successor?, Nat.mod_eq_of_lt h]

theorem successor?_checked_last : checked.successor? (versionNumberLimit - 1) = none := by
  decide

theorem successor?_wrapping_last : wrapping.successor? (versionNumberLimit - 1) = some 0 := by
  decide

end Build

theorem highestNumber_lt (names : List String) : highestNumber names < versionNumberLimit := by
  have hle : highestNumber names ≤ versionNumberLimit - 1 :=
    highestNumber_le_iff.mpr fun _ _ i hi _ => Nat.le_sub_one_of_lt hi
  exact Nat.lt_of_le_sub_one (by decide) hle

end Numbers

namespace Store

variable {s : Store} {key : String} {r : KeyRecord}

theorem filed_of_findKey?_after {commands : List Command}
    (h : (after commands).findKey? key = some r) :
    ∀ v rec, r.versions.find? v = some rec → rec.version.name = v := by
  obtain ⟨ring, hc⟩ := exists_contains h
  rw [findKey?_eq_findKeyIn? hc] at h
  exact (filed_after commands ring key r h).2

section Filed

variable (hf : ∀ v rec, r.versions.find? v = some rec → rec.version.name = v)

include hf

theorem highestNumber_names_le_iff {b : Nat} :
    highestNumber (r.versions.values.map (·.version.name)) ≤ b ↔
      ∀ i < versionNumberLimit, r.Numbers i → i ≤ b := by
  rw [highestNumber_le_iff]
  simp only [KeyRecord.mem_names_iff hf]
  constructor
  · rintro h i hi ⟨v, rec, hv, hs⟩
    exact h v ⟨rec, hv⟩ i hi hs
  · rintro h v ⟨rec, hv⟩ i hi hs
    exact h i hi ⟨v, rec, hv, hs⟩

/-- The next number is the least one past those that count. -/
theorem isLeast_next : IsLeast {m | 0 < m ∧ ∀ i < versionNumberLimit, r.Numbers i → i < m}
    (highestNumber (r.versions.values.map (·.version.name)) + 1) := by
  constructor
  · refine ⟨Nat.succ_pos _, fun i hi hn => Nat.lt_succ_of_le ?_⟩
    exact (highestNumber_names_le_iff hf).mp (Nat.le_refl _) i hi hn
  · rintro m ⟨hm, h⟩
    have hle := (highestNumber_names_le_iff (b := m - 1) hf).mpr fun i hi hn =>
      Nat.le_sub_one_of_lt (h i hi hn)
    omega

theorem highestNumber_names_eq_last_iff :
    highestNumber (r.versions.values.map (·.version.name)) = versionNumberLimit - 1 ↔
      r.Numbers (versionNumberLimit - 1) := by
  have h2 : 2 ≤ versionNumberLimit := by decide
  have hlt := highestNumber_lt (r.versions.values.map (·.version.name))
  have hbelow := highestNumber_names_le_iff (b := versionNumberLimit - 2) hf
  constructor
  · intro h
    have hnot : ¬ ∀ i < versionNumberLimit, r.Numbers i → i ≤ versionNumberLimit - 2 := by
      rw [← hbelow]
      omega
    push Not at hnot
    obtain ⟨i, hi, hn, hge⟩ := hnot
    obtain rfl : i = versionNumberLimit - 1 := by omega
    exact hn
  · intro hn
    have hle := (highestNumber_names_le_iff hf).mp (Nat.le_refl _) _ (by omega) hn
    omega

end Filed

section Next

variable {commands : List Command} (h : (after commands).findKey? key = some r) (build : Build)
  (template : VersionTemplate) (material : KeyMaterial) (now : Timestamp)

include h

theorem exists_isNext (hlast : ¬ r.Numbers (versionNumberLimit - 1)) : ∃ version s' m,
    createNextVersion build key template material now (after commands) = .ok version s' ∧
      r.IsNext key version.name m := by
  have hf := filed_of_findKey?_after h
  obtain ⟨k, -, hk, -, -⟩ := findKey?_eq_some_iff.mp h
  obtain ⟨rfl, hv⟩ := CryptoKeyName.parse_eq_ok_iff.mp hk
  have hlt := highestNumber_lt (r.versions.values.map (·.version.name))
  have hm : highestNumber (r.versions.values.map (·.version.name)) + 1 < versionNumberLimit := by
    rw [← highestNumber_names_eq_last_iff hf] at hlast
    omega
  have hn : nextVersionNumber? build (r.versions.values.map (·.version.name)) = some _ :=
    build.successor?_of_lt hm
  have hl := isLeast_next hf
  generalize highestNumber (r.versions.values.map (·.version.name)) + 1 = m at hn hm hl
  have hs := spelledNumber?_version hv m
  -- Otherwise the number would be one of those that it is past.
  have hfree : r.versions.find? (versionNameOf k.resourceName (Decimal.render m)) = none := by
    rw [Option.eq_none_iff_forall_ne_some]
    intro rec hr
    exact (hl.1.2 m hm ⟨_, rec, hr, hs⟩).false
  have hc : createVersion k.resourceName
      (.enabled (versionNameOf k.resourceName (Decimal.render m)) template now) material
      (after commands) = .ok () _ := createVersion_eq_ok_iff.mpr ⟨r, h, hfree, rfl⟩
  have hok := createNextVersion_eq_ok_iff.mpr ⟨r, m, h, hn, rfl, hc⟩
  refine ⟨_, _, m, hok, parse_createNextVersion hok, hs, hm, hl, ?_⟩
  constructor
  · exact fun hall i hi => (hall i hi).trans hm
  · exact fun hall i hi => hl.1.2 i (hall i hi) hi

theorem createNextVersion_overflow (hlast : r.Numbers (versionNumberLimit - 1)) :
    createNextVersion .checked key template material now (after commands) =
      .error .overflow (after commands) := by
  rw [← highestNumber_names_eq_last_iff (filed_of_findKey?_after h)] at hlast
  refine bind_eq_error_of_ok (look_eq_ok_iff.mpr ⟨findKey_eq_ok_iff.mpr h, rfl⟩) ?_
  refine bind_eq_of_error (nextNumber_eq_error_iff.mpr ⟨?_, rfl, rfl⟩)
  rw [nextVersionNumber?, hlast, Build.successor?_checked_last]

/-- A sum that wraps around goes on with the number 0, whatever the key holds besides. -/
theorem createNextVersion_wraps (hlast : r.Numbers (versionNumberLimit - 1)) :
    createNextVersion .wrapping key template material now (after commands) =
      (do
        createVersion key (.enabled (versionNameOf key "0") template now) material
        return CryptoKeyVersion.enabled (versionNameOf key "0") template now) (after commands) := by
  rw [← highestNumber_names_eq_last_iff (filed_of_findKey?_after h)] at hlast
  have hk : look (·.findKey key) (after commands) = .ok r (after commands) :=
    look_eq_ok_iff.mpr ⟨findKey_eq_ok_iff.mpr h, rfl⟩
  have hn : nextNumber .wrapping r (after commands) = .ok 0 (after commands) := by
    refine nextNumber_eq_ok_iff.mpr ⟨?_, rfl⟩
    rw [nextVersionNumber?, hlast, Build.successor?_wrapping_last]
  rw [createNextVersion, bind_eq_of_ok hk, bind_eq_of_ok hn, createVersion, bind_assoc,
    bind_eq_of_ok hk, bind_assoc]
  rfl

/-- After any commands, another version of a crypto key gets the least number past all those that
fit, unless the last number is taken. Then a checked build gives no answer and leaves the store
as it was, and one that wraps around files the version 0, or refuses it if it is there. -/
theorem next_number :
    (¬ r.Numbers (versionNumberLimit - 1) → ∃ version s' m,
      createNextVersion build key template material now (after commands) = .ok version s' ∧
        r.IsNext key version.name m) ∧
    (r.Numbers (versionNumberLimit - 1) →
      createNextVersion .checked key template material now (after commands) =
        .error .overflow (after commands) ∧
      let zero := CryptoKeyVersion.enabled (versionNameOf key "0") template now
      spelledNumber? zero.name = some 0 ∧
      (r.versions.find? zero.name = none → ∃ s',
        createNextVersion .wrapping key template material now (after commands) = .ok zero s' ∧
          s'.findVersion? zero.name = some ⟨zero, material⟩) ∧
      (∀ old, r.versions.find? zero.name = some old →
        createNextVersion .wrapping key template material now (after commands) =
          .error (.failed (.alreadyExists .cryptoKeyVersion zero.name)) (after commands))) := by
  refine ⟨exists_isNext h build template material now, fun hlast => ?_⟩
  refine ⟨createNextVersion_overflow h template material now hlast, ?_⟩
  have hwraps := createNextVersion_wraps h template material now hlast
  obtain ⟨k, -, hk, -, -⟩ := findKey?_eq_some_iff.mp h
  obtain ⟨rfl, hv⟩ := CryptoKeyName.parse_eq_ok_iff.mp hk
  refine ⟨spelledNumber?_version hv 0, fun hfree => ?_, fun old hold => ?_⟩
  · have hc : createVersion k.resourceName
        (.enabled (versionNameOf k.resourceName "0") template now) material (after commands) =
          .ok () _ := createVersion_eq_ok_iff.mpr ⟨r, h, hfree, rfl⟩
    have hok := hwraps.trans (bind_eq_of_ok hc)
    exact ⟨_, hok, by rw [findVersion?_filed hc, if_pos ⟨rfl, parse_createNextVersion hok⟩]⟩
  · exact hwraps.trans (bind_eq_of_error (createVersion_eq_alreadyExists h hold material))

end Next

end Store

end KeyManagement

namespace KeyManagement.Sample

open Store

/-- A crypto key with the version 1 and a version of the given number. -/
def numbered (number : String) : List Command :=
  [createRing "r", createKey (ringName "r") (keyName "r" "k"),
    createVersion (keyName "r" "k") (versionNameOf (keyName "r" "k") number)]

/-- The name of the version that is created next. -/
def nextName (build : Build) (commands : List Command) : Except (Stop StoreError) String :=
  (answerOf (createNextVersion build (keyName "r" "k") {} ⟨[2]⟩ instant (after commands))).map
    (·.name)

/-- The last number that counts. -/
def last : String := "18446744073709551615"

/-- The highest number in use, and the version that is named by zero. -/
def highestAndZeroth (r : KeyRecord) : Nat × Option VersionRecord :=
  (highestNumber (r.versions.values.map (·.version.name)),
    r.versions.find? (versionNameOf (keyName "r" "k") "0"))

theorem exists_findKey?_numbered (number : String) (n : Nat)
    (h : ((after (numbered number)).findKey? (keyName "r" "k")).map highestAndZeroth =
      some (n, none)) :
    ∃ r, (after (numbered number)).findKey? (keyName "r" "k") = some r ∧
      (r.Numbers (versionNumberLimit - 1) ↔ n = versionNumberLimit - 1) ∧
      r.versions.find? (versionNameOf (keyName "r" "k") "0") = none := by
  obtain ⟨r, hr, hn⟩ := Option.map_eq_some_iff.mp h
  obtain ⟨rfl, hzero⟩ := Prod.mk.inj hn
  exact ⟨r, hr, (highestNumber_names_eq_last_iff (filed_of_findKey?_after hr)).symm, hzero⟩

theorem sample_next_number :
    (∃ r version s' m, (after (numbered "007")).findKey? (keyName "r" "k") = some r ∧
      createNextVersion .checked (keyName "r" "k") {} ⟨[2]⟩ instant (after (numbered "007")) =
        .ok version s' ∧ r.IsNext (keyName "r" "k") version.name m) ∧
    createNextVersion .checked (keyName "r" "k") {} ⟨[2]⟩ instant (after (numbered last)) =
      .error .overflow (after (numbered last)) ∧
    ∃ version s',
      createNextVersion .wrapping (keyName "r" "k") {} ⟨[2]⟩ instant (after (numbered last)) =
        .ok version s' ∧ spelledNumber? version.name = some 0 := by
  obtain ⟨r, hr, hiff, -⟩ := exists_findKey?_numbered "007" 7 (by decide +kernel)
  obtain ⟨r', hr', hiff', hnone⟩ := exists_findKey?_numbered last (versionNumberLimit - 1)
    (by decide +kernel)
  have hfree : ¬ r.Numbers (versionNumberLimit - 1) := fun h => absurd (hiff.mp h) (by decide)
  have hnext := next_number hr .checked {} ⟨[2]⟩ instant
  have hlast := next_number hr' .checked {} ⟨[2]⟩ instant
  obtain ⟨version, s', m, hok, hm⟩ := hnext.1 hfree
  obtain ⟨hoverflow, hzero, hwraps, -⟩ := hlast.2 (hiff'.mpr rfl)
  obtain ⟨s'', hok', -⟩ := hwraps hnone
  exact ⟨⟨r, version, s', m, hr, hok, hm⟩, hoverflow, _, s'', hok', hzero⟩

/-- A number above the last one does not count, so that the next one is below it, and above the
last one the sum overflows. -/
theorem wide_number_overlooked :
    (∃ v, (after (numbered "18446744073709551616")).findVersion?
        (versionNameOf (keyName "r" "k") "18446744073709551616") = some v) ∧
      spelledNumber? (versionNameOf (keyName "r" "k") "18446744073709551616") =
        some versionNumberLimit ∧
      nextName .checked (numbered "18446744073709551616") =
        .ok (versionNameOf (keyName "r" "k") "2") ∧
      spelledNumber? (versionNameOf (keyName "r" "k") "2") = some 2 ∧
      nextName .checked (numbered last) = .error .overflow ∧
      nextName .wrapping (numbered last) = .ok (versionNameOf (keyName "r" "k") "0") := by
  refine ⟨Option.isSome_iff_exists.mp ?_, ?_, ?_, ?_, ?_, ?_⟩ <;> decide +kernel

end KeyManagement.Sample
