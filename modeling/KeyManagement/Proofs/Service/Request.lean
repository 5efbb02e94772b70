import KeyManagement.Proofs.Name.Grammar
import KeyManagement.Proofs.Outcome
import KeyManagement.Service.Basic

/-! # Requests apart from their surroundings

What operations check of a request needs neither the store nor the world. A request is refused
for the first fault that is found in it.
-/

namespace KeyManagement.Service

variable {parent id : String} {spec : Option CryptoKeySpec}

section Checks

@[simp] theorem require_eq_ok_iff {field : RequestField} {value : String} {u : Unit} :
    require field value = .ok u ↔ value ≠ "" := by
  simp [require]

@[simp] theorem rejectPageToken_eq_ok_iff {token : String} {u : Unit} :
    rejectPageToken token = .ok u ↔ token = "" := by
  simp [rejectPageToken]

theorem ok_of_elim_eq_ok {α ε : Type} {o : Option α} {e : ε} {a : α} :
    o.elim (.error e) Except.ok = .ok a ↔ o = some a := by
  cases o <;> simp

theorem verifyChecksum_eq_ok_iff {data : Bytes} {supplied : Option Int} {verified : Bool} :
    verifyChecksum data supplied = .ok verified ↔
      ((supplied = none ∨ supplied = some 0) ∧ verified = false) ∨
      (supplied = some (Checksum.toWire (Checksum.crc32c data)) ∧ supplied ≠ some 0 ∧
        verified = true) := by
  unfold verifyChecksum Checksum.verify
  cases supplied with
  | none => simp [eq_comm]
  | some crc =>
    simp only [reduceCtorEq, false_or, Option.some.injEq, ne_eq]
    split
    · next h => simp [h, eq_comm]
    · next h =>
      split
      · next hc => simp [h, ← hc, eq_comm]
      · next hc => simp [h, hc]

end Checks

@[simp] theorem createdKey_name (n : CryptoKeyName) (labels : Labels)
    (primary : CryptoKeyVersion) (now : Timestamp) :
    (createdKey n labels primary now).name = n.resourceName := rfl

section Accepted

theorem ringRequest_eq_ok_iff {n : KeyRingName} : ringRequest parent id = .ok n ↔
    ∃ location, LocationName.parse parent = .ok location ∧ id ≠ "" ∧
      (location.ring id).Valid ∧ n = location.ring id := by
  simp only [ringRequest, result_bind_eq_ok_iff, mapError_eq_ok_iff, require_eq_ok_iff,
    discard_result_eq_ok_iff, KeyRingName.parse_resourceName_eq_ok_iff]
  constructor
  · rintro ⟨location, hl, -, hi, -, ⟨_, rfl, hn⟩, ⟨⟩⟩
    exact ⟨location, hl, hi, hn, rfl⟩
  · rintro ⟨location, hl, hi, hn, rfl⟩
    exact ⟨location, hl, (), hi, ⟨⟩, ⟨_, rfl, hn⟩, rfl⟩

theorem keyRequest_eq_ok_iff {n : CryptoKeyName} {labels : Labels} :
    keyRequest parent id spec = .ok (n, labels) ↔ ∃ ring spec',
      KeyRingName.parse parent = .ok ring ∧ id ≠ "" ∧ spec = some spec' ∧
      spec'.purpose = .encryptDecrypt ∧ (ring.key id).Valid ∧ n = ring.key id ∧
      labels = spec'.labels := by
  simp only [keyRequest, result_bind_eq_ok_iff, mapError_eq_ok_iff, require_eq_ok_iff,
    ok_of_elim_eq_ok]
  constructor
  · rintro ⟨ring, hr, -, hi, spec', hs, h⟩
    split at h
    · contradiction
    · next hp =>
      simp only [result_bind_eq_ok_iff, discard_result_eq_ok_iff, mapError_eq_ok_iff,
        CryptoKeyName.parse_resourceName_eq_ok_iff] at h
      obtain ⟨-, ⟨_, rfl, hn⟩, ⟨⟩⟩ := h
      exact ⟨ring, spec', hr, hi, hs, not_not.mp hp, hn, rfl, rfl⟩
  · rintro ⟨ring, spec', hr, hi, hs, hp, hn, rfl, rfl⟩
    refine ⟨ring, hr, (), hi, spec', hs, ?_⟩
    rw [if_neg (not_not.mpr hp)]
    simp only [result_bind_eq_ok_iff, discard_result_eq_ok_iff, mapError_eq_ok_iff,
      CryptoKeyName.parse_resourceName_eq_ok_iff]
    exact ⟨⟨⟩, ⟨_, rfl, hn⟩, rfl⟩

theorem valid_of_keyRequest {n : CryptoKeyName} {labels : Labels}
    (h : keyRequest parent id spec = .ok (n, labels)) : n.Valid := by
  obtain ⟨_, _, -, -, -, -, hn, rfl, -⟩ := keyRequest_eq_ok_iff.mp h
  exact hn

theorem ne_empty_of_isId {id : String} (h : isId id = true) : id ≠ "" := by
  rintro rfl
  simp [not_isId_empty] at h

theorem ringRequest_resourceName {n m : KeyRingName} :
    ringRequest n.parent.resourceName n.keyRing = .ok m ↔ m = n ∧ n.Valid := by
  simp only [ringRequest_eq_ok_iff, LocationName.parse_resourceName_eq_ok_iff]
  constructor
  · rintro ⟨_, ⟨rfl, -⟩, -, hn, rfl⟩
    exact ⟨rfl, hn⟩
  · rintro ⟨rfl, hn⟩
    exact ⟨_, ⟨rfl, hn.1⟩, ne_empty_of_isId hn.2, hn, rfl⟩

theorem keyRequest_resourceName {n m : CryptoKeyName} {labels labels' : Labels} :
    keyRequest n.parent.resourceName n.cryptoKey (some { purpose := .encryptDecrypt, labels }) =
      .ok (m, labels') ↔ m = n ∧ labels' = labels ∧ n.Valid := by
  simp only [keyRequest_eq_ok_iff, KeyRingName.parse_resourceName_eq_ok_iff]
  constructor
  · rintro ⟨_, _, ⟨rfl, -⟩, -, ⟨⟩, -, hn, rfl, rfl⟩
    exact ⟨rfl, rfl, hn⟩
  · rintro ⟨rfl, rfl, hn⟩
    exact ⟨_, _, ⟨rfl, hn.1⟩, ne_empty_of_isId hn.2, rfl, rfl, hn, rfl, rfl⟩

end Accepted

section Rejected

theorem require_eq_error_iff {field : RequestField} {value : String} {e : ServiceError} :
    require field value = .error e ↔ value = "" ∧ .missing field = e := by
  by_cases h : value = "" <;> simp [require, h]

theorem elim_eq_error_iff {α ε : Type} {o : Option α} {e e' : ε} :
    o.elim (.error e) Except.ok = .error e' ↔ o = none ∧ e = e' := by
  cases o <;> simp

theorem code_of_ringRequest {e : ServiceError} (h : ringRequest parent id = .error e) :
    e.code = .invalidArgument := by
  simp only [ringRequest, result_bind_eq_error_iff, mapError_eq_error_iff, require_eq_error_iff,
    discard_result_eq_error_iff] at h
  obtain ⟨_, -, rfl⟩ | ⟨_, -, ⟨-, rfl⟩ | ⟨_, -, ⟨_, -, rfl⟩ | ⟨_, -, h⟩⟩⟩ := h
  · rfl
  · rfl
  · rfl
  · contradiction

theorem code_of_keyRequest {e : ServiceError} (h : keyRequest parent id spec = .error e) :
    e.code = .invalidArgument := by
  simp only [keyRequest, result_bind_eq_error_iff, mapError_eq_error_iff, require_eq_error_iff,
    elim_eq_error_iff] at h
  obtain ⟨_, -, rfl⟩ | ⟨ring, -, ⟨-, rfl⟩ | ⟨_, -, ⟨-, rfl⟩ | ⟨spec', -, h⟩⟩⟩ := h
  · rfl
  · rfl
  · rfl
  · split at h
    · cases h
      rfl
    · simp only [result_bind_eq_error_iff, mapError_eq_error_iff,
        discard_result_eq_error_iff] at h
      obtain ⟨_, -, rfl⟩ | ⟨_, -, h⟩ := h
      · rfl
      · contradiction

end Rejected

end KeyManagement.Service
