import KeyManagement.Checksum
import KeyManagement.Envelope
import KeyManagement.Status

/-! # Service errors

Why an operation was refused or failed, and the status that its caller is given.
-/

namespace KeyManagement

/-- The fields of a request that can be at fault. -/
inductive RequestField
  | name
  | parent
  | keyRingId
  | cryptoKeyId
  | cryptoKey
  | cryptoKeyVersionId
  deriving DecidableEq, Repr

def RequestField.label : RequestField → String
  | .name => "name"
  | .parent => "parent"
  | .keyRingId => "key_ring_id"
  | .cryptoKeyId => "crypto_key_id"
  | .cryptoKey => "crypto_key"
  | .cryptoKeyVersionId => "crypto_key_version_id"

inductive ServiceError
  | context (e : ContextError)
  | invalidName (field : RequestField) (e : NameError)
  | missing (field : RequestField)
  | pagination
  | unsupportedPurpose
  | checksumMismatch
  | payload (e : Envelope.UnwrapError)
  | payloadName (e : NameError)
  | noPrimary (key : String)
  | foreignCiphertext (key : String)
  | store (e : StoreError)
  | primaryUnavailable (e : StoreError)
  | engine (call : EngineCall) (e : EngineError)
  | nameTooLong (e : Envelope.NameTooLong)
  deriving DecidableEq, Repr

namespace ServiceError

def status : ServiceError → Status
  | .context e => e.status
  | .invalidName field e => ⟨.invalidArgument, "invalid " ++ field.label ++ ": " ++ e.message⟩
  | .missing field => ⟨.invalidArgument, field.label ++ " is required"⟩
  | .pagination => ⟨.unimplemented, "pagination is not supported"⟩
  | .unsupportedPurpose => ⟨.invalidArgument, "only ENCRYPT_DECRYPT purpose is supported"⟩
  | .checksumMismatch => ⟨.invalidArgument, "checksum mismatch"⟩
  | .payload e => ⟨.invalidArgument, "invalid ciphertext payload: " ++ e.message⟩
  | .payloadName e => ⟨.invalidArgument, "invalid ciphertext payload: " ++ e.message⟩
  | .noPrimary key =>
    ⟨.failedPrecondition, "crypto key " ++ Text.quoted key ++ " has no primary version"⟩
  | .foreignCiphertext key =>
    ⟨.failedPrecondition,
      "ciphertext was encrypted with a different crypto key than " ++ Text.quoted key⟩
  | .store e => e.status
  | .primaryUnavailable e => ⟨.internal, "primary version unavailable: " ++ e.message⟩
  | .engine _ (.context e) => e.status
  | .engine call e => ⟨.internal, call.failure ++ ": " ++ e.message⟩
  | .nameTooLong e => ⟨.internal, EngineCall.encrypt.failure ++ ": " ++ e.message⟩

def code (e : ServiceError) : Code := e.status.code

def message (e : ServiceError) : String := e.status.message

end ServiceError

end KeyManagement
