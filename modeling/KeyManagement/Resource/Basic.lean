import KeyManagement.Store.Keyed
import KeyManagement.Time.Timestamp

/-! # Resources

Key rings group crypto keys, and a crypto key holds versions, one of which may be its
primary. Key material is not part of any of these records.
-/

namespace KeyManagement

/-- What a crypto key may be used for. -/
inductive Purpose
  | unspecified
  | encryptDecrypt
  | asymmetricSign
  | asymmetricDecrypt
  | rawEncryptDecrypt
  | mac
  deriving DecidableEq, Repr

inductive VersionState
  | unspecified
  | enabled
  deriving DecidableEq, Repr

inductive Algorithm
  | unspecified
  | googleSymmetricEncryption
  deriving DecidableEq, Repr

inductive ProtectionLevel
  | unspecified
  | software
  deriving DecidableEq, Repr

structure KeyRing where
  name : String
  createTime : Timestamp
  deriving DecidableEq, Repr

/-- Settings of the versions created under a crypto key. -/
structure VersionTemplate where
  protectionLevel : ProtectionLevel := .software
  algorithm : Algorithm := .googleSymmetricEncryption
  deriving DecidableEq, Repr

structure CryptoKeyVersion where
  name : String
  state : VersionState
  algorithm : Algorithm
  protectionLevel : ProtectionLevel
  createTime : Timestamp
  deriving DecidableEq, Repr

abbrev Labels := Keyed String

/-- A crypto key, with a copy of its primary version from when it was designated. -/
structure CryptoKey where
  name : String
  createTime : Timestamp
  labels : Labels
  purpose : Purpose
  versionTemplate : VersionTemplate
  primary : Option CryptoKeyVersion
  deriving DecidableEq, Repr

/-- What a caller asks of a new crypto key. -/
structure CryptoKeySpec where
  purpose : Purpose := .unspecified
  labels : Labels := .empty
  deriving DecidableEq, Repr

/-- A new version, enabled, as the template says. -/
def CryptoKeyVersion.enabled (name : String) (template : VersionTemplate) (now : Timestamp) :
    CryptoKeyVersion where
  name
  state := .enabled
  algorithm := template.algorithm
  protectionLevel := template.protectionLevel
  createTime := now

end KeyManagement
