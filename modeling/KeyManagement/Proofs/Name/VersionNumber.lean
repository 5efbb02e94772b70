import KeyManagement.Proofs.Name.Inversion
import KeyManagement.Resource.Number
import Mathlib.Data.Nat.Digits.Defs

/-! # Numbers in version names

The number of a version is what its last segment denotes in base ten, if that fits into 64 bits:
zeros in front change nothing, and what does not fit is no number. The names that are written for
numbers are read back as these numbers, so that no two numbers share a name.
-/

namespace KeyManagement

namespace Decimal

/-- What digits denote in base ten, where the last one counts the units. -/
def denoted (digits : List Char) : Nat :=
  Nat.ofDigits 10 (digits.reverse.map fun c => c.toNat - '0'.toNat)

theorem denoted_eq_value (digits : List Char) : denoted digits = value digits := by
  induction digits using List.reverseRecOn with
  | nil => rfl
  | append_singleton digits c ih =>
    rw [value_append_singleton, ← ih, denoted, List.reverse_concat, List.map_cons,
      Nat.ofDigits_cons, Nat.add_comm, Nat.mul_comm]
    rfl

/-- A numeral behind some zeros. -/
def withZeros (zeros n : Nat) : String := String.ofList (List.replicate zeros '0') ++ toString n

theorem value_withZeros (zeros n : Nat) : value (withZeros zeros n).toList = n := by
  rw [withZeros, String.toList_append, String.toList_ofList, value_replicate_append,
    Nat.toString_eq_repr, Nat.toList_repr, value_toDigits]

end Decimal

theorem versionNumberLimit_eq : versionNumberLimit = 2 ^ 64 := rfl

theorem isVersionId_withZeros (zeros n : Nat) : isVersionId (Decimal.withZeros zeros n) = true := by
  obtain ⟨-, hd⟩ := Bool.and_eq_true_iff.mp (isVersionId_render n)
  have hn : toString n = Decimal.render n := rfl
  rw [isVersionId, Decimal.withZeros, hn, String.toList_append, List.all_append, hd]
  simp [Decimal.render_ne_empty]

namespace CryptoKeyVersionName

variable {s : String} {v : CryptoKeyVersionName} {n : Nat}

theorem number?_eq_filter (h : v.Valid) :
    v.number? = (some (Decimal.denoted v.version.toList)).filter (· < 2 ^ 64) := by
  rw [number?_eq h, Decimal.denoted_eq_value, versionNumberLimit_eq]

theorem number?_eq_some_iff (h : v.Valid) :
    v.number? = some n ↔ Decimal.denoted v.version.toList = n ∧ n < 2 ^ 64 := by
  simp only [number?_eq_filter h, Option.filter_eq_some_iff, Option.some.injEq, decide_eq_true_eq]

theorem number?_eq_none_iff (h : v.Valid) :
    v.number? = none ↔ 2 ^ 64 ≤ Decimal.denoted v.version.toList := by
  simp only [number?_eq_filter h, Option.filter_eq_none_iff, Option.some.injEq, forall_eq',
    decide_eq_true_eq, not_lt]

theorem getLast?_splitOn (h : v.Valid) :
    (v.resourceName.toList.splitOn '/').getLast? = some v.version.toList := by
  have hs : v.resourceName.toList.splitOn '/' = v.path.map String.toList :=
    ResourceName.splitOn_text (v := .cryptoKeyVersion v)
      (ResourceName.grammatical_cryptoKeyVersion_iff.mpr h)
  rw [hs, path, List.map_append]
  simp

theorem versionNumber?_eq (h : parse s = .ok v) : versionNumber? s = v.number? := by
  rw [versionNumber?, h]
  rfl

end CryptoKeyVersionName

namespace CryptoKeyName

variable {k : CryptoKeyName}

theorem resourceName_version_injective (k : CryptoKeyName) :
    Function.Injective fun n : UInt64 => (k.version n.toNat).resourceName := by
  intro m n h
  exact UInt64.toNat_inj.mp (Decimal.render_injective (versionNameOf_injective k.resourceName h))

/-- A numeral names a version behind any zeros, and its number is the same, if it fits. -/
theorem exists_parse_withZeros (hk : k.Valid) (zeros n : Nat) :
    ∃ v, CryptoKeyVersionName.parse
        (versionNameOf k.resourceName (Decimal.withZeros zeros n)) = .ok v ∧
      v.number? = if n < 2 ^ 64 then some n else none := by
  have hv : CryptoKeyVersionName.Valid ⟨k, Decimal.withZeros zeros n⟩ :=
    ⟨hk, isVersionId_withZeros zeros n⟩
  have hp := CryptoKeyVersionName.parse_resourceName hv
  have hn := CryptoKeyVersionName.number?_eq_filter hv
  rw [Decimal.denoted_eq_value, Decimal.value_withZeros, Option.filter_some] at hn
  simp only [decide_eq_true_eq] at hn
  rw [CryptoKeyVersionName.resourceName] at hp
  exact ⟨_, hp, hn⟩

end CryptoKeyName

open CryptoKeyVersionName (parse) in
/-- Versions and their numbers correspond: the name that is written for a number is read back as
that number, and what is read from any name is what its digits denote, if that fits. -/
theorem version_numbers_correspond :
    (∀ k : CryptoKeyName, (ResourceName.cryptoKey k).Grammatical →
      (∀ n : UInt64,
        (k.version n.toNat).resourceName = versionNameOf k.resourceName (toString n) ∧
        parse (k.version n.toNat).resourceName = .ok (k.version n.toNat) ∧
        (k.version n.toNat).number? = some n.toNat) ∧
      Function.Injective (fun n : UInt64 => (k.version n.toNat).resourceName) ∧
      ∀ zeros n, ∃ v, parse (versionNameOf k.resourceName (Decimal.withZeros zeros n)) = .ok v ∧
        v.number? = if n < 2 ^ 64 then some n else none) ∧
    ∀ s v, parse s = .ok v → versionNumber? s = v.number? ∧
      ∃ digits, (s.toList.splitOn '/').getLast? = some digits ∧
        (∀ n, v.number? = some n ↔ Decimal.denoted digits = n ∧ n < 2 ^ 64) ∧
        (v.number? = none ↔ 2 ^ 64 ≤ Decimal.denoted digits) := by
  constructor
  · intro k hk
    have hv : k.Valid := ResourceName.grammatical_cryptoKey_iff.mp hk
    refine ⟨fun n => ⟨rfl, ?_, ?_⟩, k.resourceName_version_injective,
      CryptoKeyName.exists_parse_withZeros hv⟩
    · exact CryptoKeyVersionName.parse_resourceName (k.version_valid hv _)
    · exact k.number?_version (versionNumberLimit_eq ▸ n.toNat_lt)
  · intro s v h
    obtain ⟨rfl, hv⟩ := CryptoKeyVersionName.parse_eq_ok_iff.mp h
    exact ⟨CryptoKeyVersionName.versionNumber?_eq h, _, CryptoKeyVersionName.getLast?_splitOn hv,
      fun _ => CryptoKeyVersionName.number?_eq_some_iff hv,
      CryptoKeyVersionName.number?_eq_none_iff hv⟩

end KeyManagement

namespace KeyManagement.Sample

/-- The least number that does not fit, behind zeros. -/
def wideVersion : CryptoKeyVersionName :=
  { ResourceName.sampleVersion with version := "0018446744073709551616" }

theorem sample_version_numbers :
    (ResourceName.cryptoKey wideVersion.parent).Grammatical ∧
    (wideVersion.parent.version (2 ^ 64 - 1)).number? = some (2 ^ 64 - 1) ∧
    CryptoKeyVersionName.parse wideVersion.resourceName = .ok wideVersion ∧
    versionNumber? wideVersion.resourceName = none := by
  have hv : wideVersion.Valid := ⟨⟨⟨⟨rfl, rfl⟩, rfl⟩, rfl⟩, rfl⟩
  have hk := ResourceName.grammatical_cryptoKey_iff.mpr hv.1
  have hp := CryptoKeyVersionName.parse_resourceName hv
  obtain ⟨he, digits, hd, -, hnone⟩ := version_numbers_correspond.2 _ _ hp
  obtain rfl := Option.some.inj (hd.symm.trans (CryptoKeyVersionName.getLast?_splitOn hv))
  exact ⟨hk, ((version_numbers_correspond.1 _ hk).1 0xffffffffffffffff).2.2, hp,
    he.trans (hnone.mpr (by decide +kernel))⟩

end KeyManagement.Sample
