import KeyManagement.Http.Server
import KeyManagement.Proofs.Outcome

/-! # Payloads

What a body is read as. The resource name in an operation is never taken from the body.
-/

namespace KeyManagement.Http

section Bodies

variable {α : Type} {read : Json → Option α} {body : Bytes} {a : α} {name : String} {j : Json}

theorem decodeBody_eq_ok_some_iff : decodeBody read body = .ok (some a) ↔
    body.all isBlankByte = false ∧ ∃ j, Json.parse? body = some j ∧ read j = some a := by
  unfold decodeBody readBody
  cases body.all isBlankByte with
  | true => simp
  | false =>
    cases hp : (Json.parse? body).bind read with
    | none =>
      simp only [Bool.false_eq_true, if_false, refuse, reduceCtorEq, true_and, false_iff]
      rintro ⟨j, hj, ha⟩
      rw [hj, Option.bind_some, ha] at hp
      contradiction
    | some b => simp [← Option.bind_eq_some_iff, hp]

theorem name_of_encryptOfJson? {r : EncryptRequest} (h : encryptOfJson? name j = some r) :
    r.name = name := by
  unfold encryptOfJson? at h
  obtain ⟨fields, hf, h⟩ := Option.bind_eq_some_iff.mp h
  split at h
  · simp only [Option.bind_eq_bind, Option.bind_eq_some_iff] at h
    obtain ⟨_, -, _, -, _, -, _, -, ⟨⟩⟩ := h
    rfl
  · contradiction

theorem name_of_decryptOfJson? {r : DecryptRequest} (h : decryptOfJson? name j = some r) :
    r.name = name := by
  unfold decryptOfJson? at h
  obtain ⟨fields, hf, h⟩ := Option.bind_eq_some_iff.mp h
  split at h
  · simp only [Option.bind_eq_bind, Option.bind_eq_some_iff] at h
    obtain ⟨_, -, _, -, _, -, _, -, ⟨⟩⟩ := h
    rfl
  · contradiction

theorem name_of_decodeBody_encrypt {request : Option EncryptRequest}
    (h : decodeBody (encryptOfJson? name) body = .ok request) :
    (request.getD { name }).name = name := by
  cases request with
  | none => rfl
  | some r =>
    obtain ⟨-, j, -, hr⟩ := decodeBody_eq_ok_some_iff.mp h
    exact name_of_encryptOfJson? hr

theorem name_of_decodeBody_decrypt {request : Option DecryptRequest}
    (h : decodeBody (decryptOfJson? name) body = .ok request) :
    (request.getD { name }).name = name := by
  cases request with
  | none => rfl
  | some r =>
    obtain ⟨-, j, -, hr⟩ := decodeBody_eq_ok_some_iff.mp h
    exact name_of_decryptOfJson? hr

end Bodies

end KeyManagement.Http
