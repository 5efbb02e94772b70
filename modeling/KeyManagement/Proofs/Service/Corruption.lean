import KeyManagement.Proofs.Checksum
import KeyManagement.Proofs.Service.Encryption

/-! # Corrupted requests

A checksum is compared with what arrived. If a burst of errors hit a field after its checksum had
been computed, the comparison fails, and so does the operation. The checksum zero is an exception:
it stands for an absent one.
-/

namespace KeyManagement

namespace Checksum

/-- The data were hit by a burst after the supplied checksum had been computed, which does not
stand for an absent one. -/
def Corrupted (received : Bytes) (supplied : Option Int) : Prop :=
  ∃ sent, crc32c sent ≠ 0 ∧ Burst sent received ∧ supplied = some (toWire (crc32c sent))

variable {received received' : Bytes} {supplied supplied' : Option Int}

theorem Corrupted.not_accepted (h : Corrupted received supplied) :
    ¬ Accepted received supplied := by
  obtain ⟨sent, h0, hb, rfl⟩ := h
  rintro (hnone | hzero | hright)
  · contradiction
  · exact h0 (toWire_injective (Option.some.inj hzero))
  · exact hb.crc32c_ne (toWire_injective (Option.some.inj hright)).symm

theorem not_both_accepted (h : Corrupted received supplied ∨ Corrupted received' supplied') :
    ¬ (Accepted received supplied ∧ Accepted received' supplied') := by
  rintro ⟨hfirst, hsecond⟩
  rcases h with h | h
  · exact h.not_accepted hfirst
  · exact h.not_accepted hsecond

end Checksum

namespace Service

open Checksum

variable {σ : Type} {env : Environment σ} {ctx : Context} {st : State Store σ}

section Refusals

variable {key : CryptoKey}

theorem encrypt_without_primary (hl : env.Live ctx st.world) {request : EncryptRequest}
    (hk : st.store.getCryptoKey request.name = .ok key) (hp : key.primary = none) :
    encrypt env ctx request st = .error (.failed (.noPrimary request.name)) st := by
  refine error_behind_key hl hk ?_
  rw [hp]
  exact bind_eq_of_error (demand_eq_error_iff.mpr ⟨⟨_, rfl, rfl⟩, rfl⟩)

theorem decrypt_mismatch (hl : env.Live ctx st.world) {request : DecryptRequest}
    (hk : st.store.getCryptoKey request.name = .ok key)
    (hc : ¬ (Accepted request.ciphertext request.ciphertextCrc ∧
      Accepted request.aad request.aadCrc)) :
    decrypt env ctx request st = .error (.failed .checksumMismatch) st := by
  refine error_behind_key hl hk ?_
  simp only [discard_bind]
  exact error_of_not_accepted hc

end Refusals

/-- A burst of errors is found by every checksum but zero. Under a live context an existing crypto
key rejects each request of which one field was hit by a burst after its checksum had been
computed; only the lack of a primary is noticed before, which no reachable store shows. -/
theorem burst_rejected (env : Environment σ) :
    (∀ sent received, crc32c sent ≠ 0 → Burst sent received →
      verifyChecksum received (some (toWire (crc32c sent))) = .error .checksumMismatch ∧
        ServiceError.checksumMismatch.code = .invalidArgument) ∧
    ∀ ctx (st : State Store σ) name key, env.Live ctx st.world →
      st.store.getCryptoKey name = .ok key →
      (∀ request : EncryptRequest, request.name = name →
        (Corrupted request.plaintext request.plaintextCrc ∨
          Corrupted request.aad request.aadCrc) →
        perform env ctx (.encrypt request) st =
            .error (.failed (key.primary.elim (.noPrimary name) fun _ => .checksumMismatch)) st ∧
          (Reachable env st →
            perform env ctx (.encrypt request) st = .error (.failed .checksumMismatch) st)) ∧
      ∀ request : DecryptRequest, request.name = name →
        (Corrupted request.ciphertext request.ciphertextCrc ∨
          Corrupted request.aad request.aadCrc) →
        perform env ctx (.decrypt request) st = .error (.failed .checksumMismatch) st := by
  constructor
  · intro sent received h0 hb
    have hcorrupted : Corrupted received (some (toWire (crc32c sent))) := ⟨sent, h0, hb, rfl⟩
    exact ⟨verifyChecksum_of_not_accepted hcorrupted.not_accepted, rfl⟩
  · intro ctx st name key hl hk
    constructor
    · rintro request rfl hc
      have hnot := not_both_accepted hc
      constructor
      · cases hp : key.primary with
        | none => exact map_eq_error_iff.mpr (encrypt_without_primary hl hk hp)
        | some primary =>
          exact map_eq_error_iff.mpr (encrypt_mismatch_of_primary hl hk hp hnot)
      · intro hst
        obtain ⟨record, hr, -⟩ := Store.getCryptoKey_eq_ok_iff.mp hk
        exact map_eq_error_iff.mpr (encrypt_mismatch hl hst.wellFormed hr hnot)
    · rintro request rfl hc
      exact map_eq_error_iff.mpr (decrypt_mismatch hl hk (not_both_accepted hc))

end Service

end KeyManagement

namespace KeyManagement.Service

open Checksum Sample in
/-- The last byte of the plaintext was changed on the way. -/
theorem sample_burst_rejected :
    verifyChecksum [1, 2, 4] (some (toWire (crc32c [1, 2, 3]))) = .error .checksumMismatch ∧
    perform env ctx (.encrypt {
        name := key "k"
        plaintext := [1, 2, 4]
        plaintextCrc := some (toWire (crc32c [1, 2, 3])) }) created =
      .error (.failed .checksumMismatch) created := by
  have h0 : crc32c [1, 2, 3] ≠ 0 := by decide +kernel
  have hb : Burst [1, 2, 3] [1, 2, 4] := by
    refine ⟨rfl, by decide, 0, fun i hi => ⟨Nat.zero_le i, ?_⟩⟩
    by_contra hge
    refine hi ?_
    rw [List.getElem?_eq_none (by simp; omega), List.getElem?_eq_none (by simp; omega)]
  obtain ⟨record, hr⟩ := exists_findKey?_created (.inl rfl)
  obtain ⟨hv, hop⟩ := burst_rejected env
  refine ⟨(hv _ _ h0 hb).1, ?_⟩
  exact ((hop ctx created _ _ rfl (Store.getCryptoKey_eq_ok_iff.mpr ⟨record, hr, rfl⟩)).1 _ rfl
    (.inl ⟨_, h0, hb, rfl⟩)).2 reachable_created

end KeyManagement.Service
