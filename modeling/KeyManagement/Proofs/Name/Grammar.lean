import KeyManagement.Name.Parser
import KeyManagement.Proofs.Text.Decimal
import Mathlib.Algebra.GroupWithZero.Nat

/-! # The grammar of resource names

A parser accepts exactly the names that are composed of valid identifiers, and gives the
identifiers back. So two valid names are equal when they are written alike.
-/

namespace KeyManagement

/-- The segments with slashes between them. -/
def joined (parts : List String) : List Char := ['/'].intercalate (parts.map String.toList)

@[simp] theorem joined_singleton (p : String) : joined [p] = p.toList := by
  simp [joined]

theorem joined_cons_cons (p q : String) (parts : List String) :
    joined (p :: q :: parts) = p.toList ++ '/' :: joined (q :: parts) := by
  simp [joined, List.intercalate]

theorem joined_segments (name : String) : joined (segments name) = name.toList := by
  have he : (segments name).map String.toList = name.toList.splitOn '/' := by
    simp [segments, Function.comp_def]
  rw [joined, he, List.intercalate_splitOn]

theorem segments_eq_iff {s name : String} {parts : List String} (hne : parts ≠ [])
    (hs : ∀ p ∈ parts, '/' ∉ p.toList) (hn : name.toList = joined parts) :
    segments s = parts ↔ s = name := by
  constructor
  · intro h
    have hj := joined_segments s
    rw [h, ← hn] at hj
    exact (String.toList_injective hj).symm
  · rintro rfl
    have hl : ∀ l ∈ parts.map String.toList, '/' ∉ l := by simpa using hs
    rw [segments, hn, joined, List.splitOn_intercalate '/' hl (by simpa using hne)]
    simp [Function.comp_def]

theorem count_slash_joined (p : String) (parts : List String) :
    (joined (p :: parts)).count '/' =
      parts.length + ((p :: parts).map fun q => q.toList.count '/').sum := by
  induction parts generalizing p with
  | nil => simp
  | cons q parts ih =>
    rw [joined_cons_cons, List.count_append, List.count_cons_self, ih]
    simp only [List.map_cons, List.sum_cons, List.length_cons]
    omega

/-- Segments that join to the same text are the same if there are as many of them: a slash
within one of them would be one more. -/
theorem joined_inj {parts parts' : List String} (hl : parts.length = parts'.length)
    (hs : ∀ p ∈ parts', '/' ∉ p.toList) (h : joined parts = joined parts') : parts = parts' := by
  cases parts' with
  | nil => simpa using hl
  | cons p' rest' =>
    obtain ⟨p, rest, rfl⟩ := List.exists_cons_of_length_eq_add_one hl
    have hz : ((p' :: rest').map fun q => q.toList.count '/').sum = 0 := by
      simpa only [List.sum_eq_zero_iff_forall_eq_nat, List.forall_mem_map, List.count_eq_zero]
        using hs
    have hc := congrArg (List.count '/') h
    rw [count_slash_joined, count_slash_joined, hz] at hc
    have hp : ((p :: rest).map fun q => q.toList.count '/').sum = 0 := by
      simp only [List.length_cons] at hl
      omega
    have hs' : ∀ q ∈ p :: rest, '/' ∉ q.toList := by
      simpa only [List.sum_eq_zero_iff_forall_eq_nat, List.forall_mem_map, List.count_eq_zero]
        using hp
    have hr := (segments_eq_iff (s := String.ofList (joined (p :: rest))) (by simp) hs'
      (by simp)).mpr rfl
    have hr' := (segments_eq_iff (s := String.ofList (joined (p :: rest))) (by simp) hs
      (by simp [h])).mpr rfl
    exact hr.symm.trans hr'

theorem slash_not_mem_of_isId {s : String} (h : isId s = true) : '/' ∉ s.toList := by
  intro hm
  simp only [isId, Bool.and_eq_true, List.all_eq_true] at h
  exact absurd (h.1.2 _ hm) (by decide)

theorem slash_not_mem_of_isVersionId {s : String} (h : isVersionId s = true) :
    '/' ∉ s.toList := by
  intro hm
  simp only [isVersionId, Bool.and_eq_true, List.all_eq_true] at h
  exact absurd (h.2 _ hm) (by decide)

theorem isVersionId_render (n : Nat) : isVersionId (Decimal.render n) = true := by
  simp only [isVersionId, Bool.and_eq_true, List.all_eq_true]
  exact ⟨by simp [Decimal.render_ne_empty n], fun _ hc => Decimal.isDigit_of_mem_render hc⟩

theorem not_isId_empty : isId "" = false := rfl

theorem checkCollection_eq_none_iff {expected found : String} {position : Nat} :
    checkCollection expected position found = none ↔ found = expected := by
  simp [checkCollection]

theorem checkId_eq_none_iff {field : IdField} {s : String} :
    checkId field s = none ↔ isId s = true := by
  unfold checkId
  split
  · next h =>
    obtain rfl : s = "" := by simpa using h
    simp [not_isId_empty]
  · simp

theorem checkVersionId_eq_none_iff {s : String} :
    checkVersionId s = none ↔ isVersionId s = true := by
  unfold checkVersionId
  split
  · next h => simp [isVersionId, h]
  · simp

theorem acceptUnless_eq_ok_iff {α : Type} {kind : ResourceKind} {name : String}
    {checks : List (Option NameFault)} {value v : α} :
    acceptUnless kind name checks value = .ok v ↔ (∀ c ∈ checks, c = none) ∧ value = v := by
  unfold acceptUnless
  split
  · next fault h =>
    obtain ⟨c, hc, he⟩ := List.exists_of_findSome?_eq_some h
    simp only [reduceCtorEq, false_iff, not_and]
    intro hn
    rw [hn c hc] at he
    contradiction
  · next h => simpa using fun _ => List.findSome?_eq_none_iff.mp h

namespace LocationName

def Valid (n : LocationName) : Prop := isId n.project = true ∧ isId n.location = true

def path (n : LocationName) : List String := ["projects", n.project, "locations", n.location]

theorem toList_resourceName (n : LocationName) : n.resourceName.toList = joined n.path := by
  simp [resourceName, path, joined_cons_cons]

theorem path_injective : Function.Injective path := by
  rintro ⟨p, l⟩ ⟨p', l'⟩ h
  simpa [path] using h

theorem slash_not_mem_path {n : LocationName} (h : n.Valid) : ∀ p ∈ n.path, '/' ∉ p.toList := by
  simp [path, slash_not_mem_of_isId h.1, slash_not_mem_of_isId h.2]

theorem parse_eq_ok_iff {s : String} {n : LocationName} :
    parse s = .ok n ↔ s = n.resourceName ∧ n.Valid := by
  have hp : parse s = .ok n ↔ segments s = n.path ∧ n.Valid := by
    unfold parse
    split
    · next h =>
      simp only [acceptUnless_eq_ok_iff, h, path, Valid, List.forall_mem_cons,
        checkCollection_eq_none_iff, checkId_eq_none_iff, List.cons.injEq]
      constructor
      · rintro ⟨hc, rfl⟩
        simpa [and_assoc] using hc
      · rintro ⟨⟨rfl, rfl, rfl, rfl, -⟩, hv⟩
        simpa using hv
    · next h =>
      simp only [reduceCtorEq, false_iff, not_and]
      exact fun hs => absurd hs (h _ _ _ _)
  rw [hp]
  exact and_congr_left fun hv =>
    segments_eq_iff (by simp [path]) (slash_not_mem_path hv) n.toList_resourceName

theorem resourceName_eq_iff {n m : LocationName} (h : m.Valid) :
    n.resourceName = m.resourceName ↔ n = m := by
  constructor
  · intro he
    have hj : joined n.path = joined m.path := by
      rw [← toList_resourceName, he, toList_resourceName]
    exact path_injective (joined_inj rfl (slash_not_mem_path h) hj)
  · exact congrArg _

theorem parse_resourceName_eq_ok_iff {n m : LocationName} :
    parse n.resourceName = .ok m ↔ n = m ∧ m.Valid := by
  rw [parse_eq_ok_iff]
  exact and_congr_left resourceName_eq_iff

@[simp] theorem parse_resourceName {n : LocationName} (h : n.Valid) :
    parse n.resourceName = .ok n :=
  parse_resourceName_eq_ok_iff.mpr ⟨rfl, h⟩

end LocationName

namespace KeyRingName

def Valid (n : KeyRingName) : Prop := n.parent.Valid ∧ isId n.keyRing = true

def path (n : KeyRingName) : List String := n.parent.path ++ ["keyRings", n.keyRing]

theorem toList_resourceName (n : KeyRingName) : n.resourceName.toList = joined n.path := by
  simp [resourceName, path, LocationName.path, n.parent.toList_resourceName, joined_cons_cons]

theorem path_injective : Function.Injective path := by
  rintro ⟨n, r⟩ ⟨n', r'⟩ h
  obtain ⟨hn, hr⟩ := List.append_inj h rfl
  simpa using And.intro (LocationName.path_injective hn) hr

theorem slash_not_mem_path {n : KeyRingName} (h : n.Valid) : ∀ p ∈ n.path, '/' ∉ p.toList := by
  simpa [path, or_imp, forall_and, slash_not_mem_of_isId h.2] using
    LocationName.slash_not_mem_path h.1

theorem parse_eq_ok_iff {s : String} {n : KeyRingName} :
    parse s = .ok n ↔ s = n.resourceName ∧ n.Valid := by
  have hp : parse s = .ok n ↔ segments s = n.path ∧ n.Valid := by
    unfold parse
    split
    · next h =>
      simp only [acceptUnless_eq_ok_iff, h, path, LocationName.path, Valid, LocationName.Valid,
        List.cons_append, List.nil_append, List.forall_mem_cons, checkCollection_eq_none_iff,
        checkId_eq_none_iff, List.cons.injEq]
      constructor
      · rintro ⟨hc, rfl⟩
        simpa [and_assoc] using hc
      · rintro ⟨⟨rfl, rfl, rfl, rfl, rfl, rfl, -⟩, hv⟩
        simpa [and_assoc] using hv
    · next h =>
      simp only [reduceCtorEq, false_iff, not_and]
      exact fun hs => absurd hs (h _ _ _ _ _ _)
  rw [hp]
  exact and_congr_left fun hv =>
    segments_eq_iff (by simp [path]) (slash_not_mem_path hv) n.toList_resourceName

theorem resourceName_eq_iff {n m : KeyRingName} (h : m.Valid) :
    n.resourceName = m.resourceName ↔ n = m := by
  constructor
  · intro he
    have hj : joined n.path = joined m.path := by
      rw [← toList_resourceName, he, toList_resourceName]
    exact path_injective (joined_inj rfl (slash_not_mem_path h) hj)
  · exact congrArg _

theorem parse_resourceName_eq_ok_iff {n m : KeyRingName} :
    parse n.resourceName = .ok m ↔ n = m ∧ m.Valid := by
  rw [parse_eq_ok_iff]
  exact and_congr_left resourceName_eq_iff

@[simp] theorem parse_resourceName {n : KeyRingName} (h : n.Valid) :
    parse n.resourceName = .ok n :=
  parse_resourceName_eq_ok_iff.mpr ⟨rfl, h⟩

/-- The key ring names that begin like those of a location are those of the location: an
identifier that merely begins like another one does not go on with a slash. -/
theorem isPrefix_resourceName_iff {n : LocationName} {r : KeyRingName} (h : r.Valid) :
    (n.resourceName ++ "/keyRings/").toList <+: r.resourceName.toList ↔ r.parent = n := by
  constructor
  · rintro ⟨id, hid⟩
    have he : (n.ring (String.ofList id)).resourceName = r.resourceName := by
      apply String.toList_injective
      rw [← hid, resourceName, String.toList_append]
      exact congrArg _ String.toList_ofList
    rw [← (resourceName_eq_iff h).mp he]
    rfl
  · rintro rfl
    exact ⟨r.keyRing.toList, String.toList_append.symm⟩

end KeyRingName

namespace CryptoKeyName

def Valid (n : CryptoKeyName) : Prop := n.parent.Valid ∧ isId n.cryptoKey = true

def path (n : CryptoKeyName) : List String := n.parent.path ++ ["cryptoKeys", n.cryptoKey]

theorem toList_resourceName (n : CryptoKeyName) : n.resourceName.toList = joined n.path := by
  simp [resourceName, path, KeyRingName.path, LocationName.path, n.parent.toList_resourceName,
    joined_cons_cons]

theorem path_injective : Function.Injective path := by
  rintro ⟨n, k⟩ ⟨n', k'⟩ h
  obtain ⟨hn, hk⟩ := List.append_inj h rfl
  simpa using And.intro (KeyRingName.path_injective hn) hk

theorem slash_not_mem_path {n : CryptoKeyName} (h : n.Valid) :
    ∀ p ∈ n.path, '/' ∉ p.toList := by
  simpa [path, or_imp, forall_and, slash_not_mem_of_isId h.2] using
    KeyRingName.slash_not_mem_path h.1

theorem parse_eq_ok_iff {s : String} {n : CryptoKeyName} :
    parse s = .ok n ↔ s = n.resourceName ∧ n.Valid := by
  have hp : parse s = .ok n ↔ segments s = n.path ∧ n.Valid := by
    unfold parse
    split
    · next h =>
      simp only [acceptUnless_eq_ok_iff, h, path, KeyRingName.path, LocationName.path, Valid,
        KeyRingName.Valid, LocationName.Valid, List.cons_append, List.nil_append,
        List.forall_mem_cons, checkCollection_eq_none_iff, checkId_eq_none_iff, List.cons.injEq]
      constructor
      · rintro ⟨hc, rfl⟩
        simpa [and_assoc] using hc
      · rintro ⟨⟨rfl, rfl, rfl, rfl, rfl, rfl, rfl, rfl, -⟩, hv⟩
        simpa [and_assoc] using hv
    · next h =>
      simp only [reduceCtorEq, false_iff, not_and]
      exact fun hs => absurd hs (h _ _ _ _ _ _ _ _)
  rw [hp]
  exact and_congr_left fun hv =>
    segments_eq_iff (by simp [path]) (slash_not_mem_path hv) n.toList_resourceName

theorem resourceName_eq_iff {n m : CryptoKeyName} (h : m.Valid) :
    n.resourceName = m.resourceName ↔ n = m := by
  constructor
  · intro he
    have hj : joined n.path = joined m.path := by
      rw [← toList_resourceName, he, toList_resourceName]
    exact path_injective (joined_inj rfl (slash_not_mem_path h) hj)
  · exact congrArg _

theorem parse_resourceName_eq_ok_iff {n m : CryptoKeyName} :
    parse n.resourceName = .ok m ↔ n = m ∧ m.Valid := by
  rw [parse_eq_ok_iff]
  exact and_congr_left resourceName_eq_iff

@[simp] theorem parse_resourceName {n : CryptoKeyName} (h : n.Valid) :
    parse n.resourceName = .ok n :=
  parse_resourceName_eq_ok_iff.mpr ⟨rfl, h⟩

end CryptoKeyName

namespace CryptoKeyVersionName

def Valid (n : CryptoKeyVersionName) : Prop := n.parent.Valid ∧ isVersionId n.version = true

def path (n : CryptoKeyVersionName) : List String :=
  n.parent.path ++ ["cryptoKeyVersions", n.version]

theorem toList_resourceName (n : CryptoKeyVersionName) :
    n.resourceName.toList = joined n.path := by
  simp [resourceName, versionNameOf, path, CryptoKeyName.path, KeyRingName.path,
    LocationName.path, n.parent.toList_resourceName, joined_cons_cons]

theorem path_injective : Function.Injective path := by
  rintro ⟨n, v⟩ ⟨n', v'⟩ h
  obtain ⟨hn, hv⟩ := List.append_inj h rfl
  simpa using And.intro (CryptoKeyName.path_injective hn) hv

theorem slash_not_mem_path {n : CryptoKeyVersionName} (h : n.Valid) :
    ∀ p ∈ n.path, '/' ∉ p.toList := by
  simpa [path, or_imp, forall_and, slash_not_mem_of_isVersionId h.2] using
    CryptoKeyName.slash_not_mem_path h.1

theorem parse_eq_ok_iff {s : String} {n : CryptoKeyVersionName} :
    parse s = .ok n ↔ s = n.resourceName ∧ n.Valid := by
  have hp : parse s = .ok n ↔ segments s = n.path ∧ n.Valid := by
    unfold parse
    split
    · next h =>
      simp only [acceptUnless_eq_ok_iff, h, path, CryptoKeyName.path, KeyRingName.path,
        LocationName.path, Valid, CryptoKeyName.Valid, KeyRingName.Valid, LocationName.Valid,
        List.cons_append, List.nil_append, List.forall_mem_cons, checkCollection_eq_none_iff,
        checkId_eq_none_iff, checkVersionId_eq_none_iff, List.cons.injEq]
      constructor
      · rintro ⟨hc, rfl⟩
        simpa [and_assoc] using hc
      · rintro ⟨⟨rfl, rfl, rfl, rfl, rfl, rfl, rfl, rfl, rfl, rfl, -⟩, hv⟩
        simpa [and_assoc] using hv
    · next h =>
      simp only [reduceCtorEq, false_iff, not_and]
      exact fun hs => absurd hs (h _ _ _ _ _ _ _ _ _ _)
  rw [hp]
  exact and_congr_left fun hv =>
    segments_eq_iff (by simp [path]) (slash_not_mem_path hv) n.toList_resourceName

theorem resourceName_eq_iff {n m : CryptoKeyVersionName} (h : m.Valid) :
    n.resourceName = m.resourceName ↔ n = m := by
  constructor
  · intro he
    have hj : joined n.path = joined m.path := by
      rw [← toList_resourceName, he, toList_resourceName]
    exact path_injective (joined_inj rfl (slash_not_mem_path h) hj)
  · exact congrArg _

theorem parse_resourceName_eq_ok_iff {n m : CryptoKeyVersionName} :
    parse n.resourceName = .ok m ↔ n = m ∧ m.Valid := by
  rw [parse_eq_ok_iff]
  exact and_congr_left resourceName_eq_iff

@[simp] theorem parse_resourceName {n : CryptoKeyVersionName} (h : n.Valid) :
    parse n.resourceName = .ok n :=
  parse_resourceName_eq_ok_iff.mpr ⟨rfl, h⟩

theorem number?_eq {n : CryptoKeyVersionName} (h : n.Valid) :
    n.number? = (some (Decimal.value n.version.toList)).filter (· < versionNumberLimit) := by
  have hp : Decimal.parse? n.version = some (Decimal.value n.version.toList) := if_pos h.2
  rw [number?, hp]

end CryptoKeyVersionName

theorem versionNameOf_injective (key : String) : Function.Injective (versionNameOf key) := by
  intro a b h
  have hl := congrArg String.toList h
  simp only [versionNameOf, String.toList_append, List.append_cancel_left_eq] at hl
  exact String.toList_injective hl

namespace CryptoKeyName

theorem resourceName_version (n : CryptoKeyName) (i : Nat) :
    (n.version i).resourceName = versionNameOf n.resourceName (Decimal.render i) := rfl

theorem version_valid {n : CryptoKeyName} (h : n.Valid) (i : Nat) : (n.version i).Valid :=
  ⟨h, isVersionId_render i⟩

theorem number?_version (n : CryptoKeyName) {i : Nat} (h : i < versionNumberLimit) :
    (n.version i).number? = some i := by
  simp [version, CryptoKeyVersionName.number?, h]

end CryptoKeyName

end KeyManagement
