import KeyManagement.Proofs.Name.Grammar
import KeyManagement.Resource.Number
import Mathlib.Data.List.Perm.Basic

/-! # Consecutive version numbers

Where the versions of a crypto key are numbered from 1 to n, in whatever order, the next
number is n + 1.
-/

namespace KeyManagement

/-- The names of the versions 1 to n of a crypto key. -/
def firstVersions (key : String) (n : Nat) : List String :=
  (List.range n).map fun i => versionNameOf key (Decimal.render (i + 1))

theorem mem_firstVersions {key name : String} {n : Nat} :
    name ∈ firstVersions key n ↔
      ∃ i, 1 ≤ i ∧ i ≤ n ∧ name = versionNameOf key (Decimal.render i) := by
  simp only [firstVersions, List.mem_map, List.mem_range]
  constructor
  · rintro ⟨i, hi, rfl⟩
    exact ⟨i + 1, by omega, hi, rfl⟩
  · rintro ⟨i, hi, hn, rfl⟩
    exact ⟨i - 1, by omega, by rw [Nat.sub_add_cancel hi]⟩

theorem firstVersions_succ (key : String) (n : Nat) :
    firstVersions key (n + 1) =
      firstVersions key n ++ [versionNameOf key (Decimal.render (n + 1))] := by
  simp [firstVersions, List.range_succ]

theorem version_not_mem_firstVersions (key : String) (n : Nat) :
    versionNameOf key (Decimal.render (n + 1)) ∉ firstVersions key n := by
  intro h
  obtain ⟨i, -, hi, he⟩ := mem_firstVersions.mp h
  have := Decimal.render_injective (versionNameOf_injective key he)
  omega

theorem versionNumber?_version {k : CryptoKeyName} (hk : k.Valid) {i : Nat}
    (h : i < versionNumberLimit) :
    versionNumber? (versionNameOf k.resourceName (Decimal.render i)) = some i := by
  rw [versionNumber?, ← k.resourceName_version,
    CryptoKeyVersionName.parse_resourceName (k.version_valid hk i)]
  exact k.number?_version h

theorem filterMap_firstVersions {k : CryptoKeyName} (hk : k.Valid) {n : Nat}
    (h : n < versionNumberLimit) :
    (firstVersions k.resourceName n).filterMap versionNumber? = (List.range n).map (· + 1) := by
  induction n with
  | zero => rfl
  | succ n ih =>
    rw [firstVersions_succ, List.filterMap_append, ih (by omega), List.range_succ,
      List.map_append]
    simp [versionNumber?_version hk h]

theorem foldl_max_range (n : Nat) : ((List.range n).map (· + 1)).foldl max 0 = n := by
  induction n with
  | zero => rfl
  | succ n ih => simp [List.range_succ, ih]

theorem highestNumber_perm {names names' : List String} (h : names.Perm names') :
    highestNumber names = highestNumber names' :=
  (h.filterMap versionNumber?).foldl_eq 0

theorem nextVersionNumber?_firstVersions {k : CryptoKeyName} (hk : k.Valid) {n : Nat}
    {names : List String} (h : names.Perm (firstVersions k.resourceName n))
    (hn : n < versionNumberLimit) :
    nextVersionNumber? .checked names =
      if n + 1 < versionNumberLimit then some (n + 1) else none := by
  have hh : highestNumber names = n := by
    rw [highestNumber_perm h, highestNumber, filterMap_firstVersions hk hn, foldl_max_range]
  rw [nextVersionNumber?, hh, Build.successor?]

end KeyManagement
