import KeyManagement.Engine.Material
import KeyManagement.Resource.Basic

/-! # Operations

The twelve requests that the service answers, and its answers.
-/

namespace KeyManagement

structure EncryptRequest where
  name : String
  plaintext : Bytes := []
  aad : Bytes := []
  plaintextCrc : Option Int := none
  aadCrc : Option Int := none
  deriving DecidableEq, Repr

/-- The version that sealed the data, the envelope and its checksum, and which of the
supplied checksums were verified. -/
structure EncryptResponse where
  name : String
  ciphertext : Bytes
  ciphertextCrc : Int
  verifiedPlaintext : Bool
  verifiedAad : Bool
  deriving DecidableEq, Repr

structure DecryptRequest where
  name : String
  ciphertext : Bytes := []
  aad : Bytes := []
  ciphertextCrc : Option Int := none
  aadCrc : Option Int := none
  deriving DecidableEq, Repr

structure DecryptResponse where
  plaintext : Bytes
  plaintextCrc : Int
  usedPrimary : Bool
  deriving DecidableEq, Repr

inductive Operation
  | createKeyRing (parent id : String)
  | getKeyRing (name : String)
  | listKeyRings (parent pageToken : String)
  | createCryptoKey (parent id : String) (spec : Option CryptoKeySpec)
  | getCryptoKey (name : String)
  | listCryptoKeys (parent pageToken : String)
  | createVersion (parent : String)
  | getVersion (name : String)
  | listVersions (parent pageToken : String)
  | updatePrimary (name versionId : String)
  | encrypt (request : EncryptRequest)
  | decrypt (request : DecryptRequest)
  deriving DecidableEq, Repr

inductive Response
  | keyRing (ring : KeyRing)
  | keyRings (rings : List KeyRing)
  | cryptoKey (key : CryptoKey)
  | cryptoKeys (keys : List CryptoKey)
  | version (version : CryptoKeyVersion)
  | versions (versions : List CryptoKeyVersion)
  | encrypted (response : EncryptResponse)
  | decrypted (response : DecryptResponse)
  deriving DecidableEq, Repr

end KeyManagement
