import KeyManagement.Cipher.Gcm
import Mathlib.Data.List.Basic

/-! # Unsealing

The keystream depends on the length of the data only, so that it cancels when it is added a
second time. Unsealing is therefore the inverse of sealing: no sealed data open but those
that sealing the plaintext gives.
-/

namespace KeyManagement.Gcm

variable {encrypt : Block → Block} {counter : Block} {nonce aad plaintext sealed data : Bytes}

@[simp] theorem length_keystream (blocks : Nat) :
    (keystream encrypt counter blocks).length = blocks * Block.size := by
  induction blocks generalizing counter with
  | zero => simp [keystream]
  | succ n ih =>
    rw [keystream, List.length_append, ih, Block.toBytes, Bytes.length_ofNat, Nat.succ_mul,
      Nat.add_comm]

theorem length_le_keystream (data : Bytes) : data.length ≤
    (keystream encrypt counter ((data.length + Block.size - 1) / Block.size)).length := by
  rw [length_keystream, Block.size]
  omega

@[simp] theorem length_applyKeystream (data : Bytes) :
    (applyKeystream encrypt counter data).length = data.length := by
  rw [applyKeystream, List.length_zipWith]
  exact Nat.min_eq_left (length_le_keystream data)

theorem zipWith_xor_zipWith_xor {data stream : Bytes} (h : data.length ≤ stream.length) :
    List.zipWith (· ^^^ ·) (List.zipWith (· ^^^ ·) data stream) stream = data := by
  induction data generalizing stream with
  | nil => rfl
  | cons b data ih =>
    cases stream with
    | nil => simp at h
    | cons x stream =>
      have hb : b ^^^ x ^^^ x = b := by
        rw [UInt8.xor_assoc, UInt8.xor_self, UInt8.xor_zero]
      rw [List.zipWith_cons_cons, List.zipWith_cons_cons, hb, ih (Nat.le_of_succ_le_succ h)]

@[simp] theorem applyKeystream_applyKeystream (data : Bytes) :
    applyKeystream encrypt counter (applyKeystream encrypt counter data) = data := by
  unfold applyKeystream
  rw [List.length_zipWith, Nat.min_eq_left (length_le_keystream data)]
  exact zipWith_xor_zipWith_xor (length_le_keystream data)

@[simp] theorem length_tag : (tag encrypt nonce aad data).length = tagSize := by
  rw [tag, Block.toBytes, Bytes.length_ofNat]
  rfl

theorem seal?_eq_some_iff : seal? encrypt nonce aad plaintext = some sealed ↔
    plaintext.length ≤ maxSize ∧ aad.length ≤ maxSize ∧
    sealed = applyKeystream encrypt (increment (initialCounter nonce)) plaintext ++
      tag encrypt nonce aad
        (applyKeystream encrypt (increment (initialCounter nonce)) plaintext) := by
  unfold seal?
  split
  · next h =>
    simp only [reduceCtorEq, false_iff, not_and]
    intro hp ha
    simp only [Bool.or_eq_true, decide_eq_true_eq] at h
    omega
  · next h =>
    simp only [Bool.or_eq_true, decide_eq_true_eq, not_or, Nat.not_lt] at h
    simp [h.1, h.2, eq_comm]

theorem unseal?_eq_some_iff : unseal? encrypt nonce aad sealed = some plaintext ↔
    plaintext.length ≤ maxSize + tagSize ∧ aad.length ≤ maxSize ∧
    sealed = applyKeystream encrypt (increment (initialCounter nonce)) plaintext ++
      tag encrypt nonce aad
        (applyKeystream encrypt (increment (initialCounter nonce)) plaintext) := by
  unfold unseal?
  dsimp only
  constructor
  · intro h
    split at h
    · cases h
    · next hsize =>
      simp only [Bool.or_eq_true, decide_eq_true_eq, not_or, Nat.not_lt] at hsize
      split at h
      · next htag =>
        cases h
        rw [length_applyKeystream, List.length_take, applyKeystream_applyKeystream, ← htag,
          List.take_append_drop]
        exact ⟨by omega, hsize.2, rfl⟩
      · cases h
  · rintro ⟨hp, ha, rfl⟩
    have hsize : (applyKeystream encrypt (increment (initialCounter nonce)) plaintext ++
        tag encrypt nonce aad (applyKeystream encrypt (increment (initialCounter nonce))
          plaintext)).length - tagSize =
        (applyKeystream encrypt (increment (initialCounter nonce)) plaintext).length := by
      rw [List.length_append, length_tag, Nat.add_sub_cancel]
    rw [hsize, List.take_left, List.drop_left, if_neg, if_pos rfl, applyKeystream_applyKeystream]
    simp only [Bool.or_eq_true, decide_eq_true_eq, not_or, Nat.not_lt, List.length_append,
      length_tag, length_applyKeystream]
    exact ⟨⟨Nat.le_add_left _ _, hp⟩, ha⟩

/-- Sealed data open to a plaintext exactly if they are that plaintext sealed. Unsealing
admits a little more than sealing does, hence the bound on the size. -/
theorem unseal?_eq_some_iff_seal? (h : plaintext.length ≤ maxSize) :
    unseal? encrypt nonce aad sealed = some plaintext ↔
      seal? encrypt nonce aad plaintext = some sealed := by
  rw [unseal?_eq_some_iff, seal?_eq_some_iff]
  constructor
  · rintro ⟨-, ha, hs⟩
    exact ⟨h, ha, hs⟩
  · rintro ⟨-, ha, hs⟩
    exact ⟨Nat.le_add_right_of_le h, ha, hs⟩

end KeyManagement.Gcm
