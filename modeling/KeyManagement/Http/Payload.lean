import KeyManagement.Json.Reader
import KeyManagement.Resource.Codec
import KeyManagement.Service.Operation
import KeyManagement.Text.Base64

/-! # Request and response payloads

Bytes travel as base64 texts and checksums as integers. A body that is blank stands for an
absent one.
-/

namespace KeyManagement.Http

def bytesOfJson? (j : Json) : Option Bytes := j.text?.bind Base64.decode?

def jsonOfBytes (b : Bytes) : Json := .text (Base64.encode b)

/-- An integer of 64 bits with a sign. -/
def integerOfJson? : Json → Option Int
  | .integer n => if -0x8000000000000000 ≤ n ∧ n < 0x8000000000000000 then some n else none
  | _ => none

def encryptOfJson? (name : String) (j : Json) : Option EncryptRequest := do
  match ← j.fields? ["plaintext", "additionalAuthenticatedData", "plaintextCrc32c",
      "additionalAuthenticatedDataCrc32c"] with
  | [plaintext, aad, plaintextCrc, aadCrc] =>
    return {
      name
      plaintext := ← Json.optional [] bytesOfJson? plaintext
      aad := ← Json.optional [] bytesOfJson? aad
      plaintextCrc := ← Json.optional none (Json.option? integerOfJson?) plaintextCrc
      aadCrc := ← Json.optional none (Json.option? integerOfJson?) aadCrc }
  | _ => none

def decryptOfJson? (name : String) (j : Json) : Option DecryptRequest := do
  match ← j.fields? ["ciphertext", "additionalAuthenticatedData", "ciphertextCrc32c",
      "additionalAuthenticatedDataCrc32c"] with
  | [ciphertext, aad, ciphertextCrc, aadCrc] =>
    return {
      name
      ciphertext := ← Json.optional [] bytesOfJson? ciphertext
      aad := ← Json.optional [] bytesOfJson? aad
      ciphertextCrc := ← Json.optional none (Json.option? integerOfJson?) ciphertextCrc
      aadCrc := ← Json.optional none (Json.option? integerOfJson?) aadCrc }
  | _ => none

/-- The version identifier of a request to change the primary version. -/
def versionIdOfJson? (j : Json) : Option String := do
  match ← j.fields? ["cryptoKeyVersionId"] with
  | [id] => Json.optional "" Json.text? id
  | _ => none

def isBlankByte (b : UInt8) : Bool := [0x20, 0x09, 0x0a, 0x0c, 0x0d].contains b

/-- The value of a body, nothing for a blank body, and an error for a malformed one. -/
def readBody {α : Type} (read : Json → Option α) (body : Bytes) : Except Unit (Option α) :=
  if body.all isBlankByte then .ok none
  else match (Json.parse? body).bind read with
    | some value => .ok (some value)
    | none => .error ()

def encryptedJson (r : EncryptResponse) : Json :=
  .record [
    ("name", .text r.name),
    ("ciphertext", jsonOfBytes r.ciphertext),
    ("ciphertextCrc32c", .integer r.ciphertextCrc),
    ("verifiedPlaintextCrc32c", .bool r.verifiedPlaintext),
    ("verifiedAdditionalAuthenticatedDataCrc32c", .bool r.verifiedAad)]

def decryptedJson (r : DecryptResponse) : Json :=
  .record [
    ("plaintext", jsonOfBytes r.plaintext),
    ("plaintextCrc32c", .integer r.plaintextCrc),
    ("usedPrimary", .bool r.usedPrimary)]

def responseJson : KeyManagement.Response → Json
  | .keyRing r => r.toJson
  | .keyRings rs => KeyRingListing.toJson ⟨rs⟩
  | .cryptoKey k => k.toJson
  | .cryptoKeys ks => CryptoKeyListing.toJson ⟨ks⟩
  | .version v => v.toJson
  | .versions vs => VersionListing.toJson ⟨vs⟩
  | .encrypted r => encryptedJson r
  | .decrypted r => decryptedJson r

end KeyManagement.Http
