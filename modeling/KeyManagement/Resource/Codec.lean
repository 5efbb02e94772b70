import KeyManagement.Json.Record
import KeyManagement.Resource.Basic
import KeyManagement.Time.Reader

/-! # Resources in JSON

Enumerated values are written as upper-case names, times in universal time. Labels are left
out of a crypto key when there are none, and so is its primary when it is absent.
-/

namespace KeyManagement

namespace Purpose

def all : List Purpose :=
  [.unspecified, .encryptDecrypt, .asymmetricSign, .asymmetricDecrypt, .rawEncryptDecrypt, .mac]

def name : Purpose → String
  | .unspecified => "CRYPTO_KEY_PURPOSE_UNSPECIFIED"
  | .encryptDecrypt => "ENCRYPT_DECRYPT"
  | .asymmetricSign => "ASYMMETRIC_SIGN"
  | .asymmetricDecrypt => "ASYMMETRIC_DECRYPT"
  | .rawEncryptDecrypt => "RAW_ENCRYPT_DECRYPT"
  | .mac => "MAC"

def toJson (p : Purpose) : Json := .text p.name

def ofJson? : Json → Option Purpose := Json.enum? all name

end Purpose

namespace VersionState

def all : List VersionState := [.unspecified, .enabled]

def name : VersionState → String
  | .unspecified => "CRYPTO_KEY_VERSION_STATE_UNSPECIFIED"
  | .enabled => "ENABLED"

def toJson (s : VersionState) : Json := .text s.name

def ofJson? : Json → Option VersionState := Json.enum? all name

end VersionState

namespace Algorithm

def all : List Algorithm := [.unspecified, .googleSymmetricEncryption]

def name : Algorithm → String
  | .unspecified => "CRYPTO_KEY_VERSION_ALGORITHM_UNSPECIFIED"
  | .googleSymmetricEncryption => "GOOGLE_SYMMETRIC_ENCRYPTION"

def toJson (a : Algorithm) : Json := .text a.name

def ofJson? : Json → Option Algorithm := Json.enum? all name

end Algorithm

namespace ProtectionLevel

def all : List ProtectionLevel := [.unspecified, .software]

def name : ProtectionLevel → String
  | .unspecified => "PROTECTION_LEVEL_UNSPECIFIED"
  | .software => "SOFTWARE"

def toJson (l : ProtectionLevel) : Json := .text l.name

def ofJson? : Json → Option ProtectionLevel := Json.enum? all name

end ProtectionLevel

namespace Timestamp

def toJson (t : Timestamp) : Json := .text t.render

def ofJson? (j : Json) : Option Timestamp := j.text?.bind parse?

end Timestamp

namespace Labels

def toJson (labels : Labels) : Json :=
  .record (labels.entries.map fun (name, value) => (name, .text value))

def ofJson? : Json → Option Labels := Json.texts?

end Labels

namespace KeyRing

def toJson (r : KeyRing) : Json :=
  .record [("name", .text r.name), ("createTime", r.createTime.toJson)]

def ofJson? (j : Json) : Option KeyRing := do
  match ← j.fields? ["name", "createTime"] with
  | [name, createTime] =>
    return {
      name := ← Json.required Json.text? name
      createTime := ← Json.required Timestamp.ofJson? createTime }
  | _ => none

end KeyRing

namespace VersionTemplate

def toJson (t : VersionTemplate) : Json :=
  .record [("protectionLevel", t.protectionLevel.toJson), ("algorithm", t.algorithm.toJson)]

def ofJson? (j : Json) : Option VersionTemplate := do
  match ← j.fields? ["protectionLevel", "algorithm"] with
  | [protectionLevel, algorithm] =>
    return {
      protectionLevel := ← Json.required ProtectionLevel.ofJson? protectionLevel
      algorithm := ← Json.required Algorithm.ofJson? algorithm }
  | _ => none

end VersionTemplate

namespace CryptoKeyVersion

def toJson (v : CryptoKeyVersion) : Json :=
  .record [("name", .text v.name), ("state", v.state.toJson), ("algorithm", v.algorithm.toJson),
    ("protectionLevel", v.protectionLevel.toJson), ("createTime", v.createTime.toJson)]

def ofJson? (j : Json) : Option CryptoKeyVersion := do
  match ← j.fields? ["name", "state", "algorithm", "protectionLevel", "createTime"] with
  | [name, state, algorithm, protectionLevel, createTime] =>
    return {
      name := ← Json.required Json.text? name
      state := ← Json.required VersionState.ofJson? state
      algorithm := ← Json.required Algorithm.ofJson? algorithm
      protectionLevel := ← Json.required ProtectionLevel.ofJson? protectionLevel
      createTime := ← Json.required Timestamp.ofJson? createTime }
  | _ => none

end CryptoKeyVersion

namespace CryptoKey

def toJson (k : CryptoKey) : Json :=
  .record (
    [("name", .text k.name), ("createTime", k.createTime.toJson)] ++
    (if k.labels.isEmpty then [] else [("labels", k.labels.toJson)]) ++
    [("purpose", k.purpose.toJson), ("versionTemplate", k.versionTemplate.toJson)] ++
    k.primary.toList.map fun v => ("primary", v.toJson))

def ofJson? (j : Json) : Option CryptoKey := do
  match ← j.fields? ["name", "createTime", "labels", "purpose", "versionTemplate", "primary"] with
  | [name, createTime, labels, purpose, versionTemplate, primary] =>
    return {
      name := ← Json.required Json.text? name
      createTime := ← Json.required Timestamp.ofJson? createTime
      labels := ← Json.optional .empty Labels.ofJson? labels
      purpose := ← Json.required Purpose.ofJson? purpose
      versionTemplate := ← Json.required VersionTemplate.ofJson? versionTemplate
      primary := ← Json.optional none (Json.option? CryptoKeyVersion.ofJson?) primary }
  | _ => none

end CryptoKey

namespace CryptoKeySpec

def toJson (s : CryptoKeySpec) : Json :=
  .record [("purpose", s.purpose.toJson), ("labels", s.labels.toJson)]

def ofJson? (j : Json) : Option CryptoKeySpec := do
  match ← j.fields? ["purpose", "labels"] with
  | [purpose, labels] =>
    return {
      purpose := ← Json.optional .unspecified Purpose.ofJson? purpose
      labels := ← Json.optional .empty Labels.ofJson? labels }
  | _ => none

end CryptoKeySpec

/-- A record with one field that lists resources. -/
structure Listing (α : Type) where
  items : List α
  deriving DecidableEq, Repr

namespace Listing

variable {α : Type}

def toJson (field : String) (item : α → Json) (l : Listing α) : Json :=
  .record [(field, .array (l.items.map item))]

def ofJson? (field : String) (item : Json → Option α) (j : Json) : Option (Listing α) := do
  match ← j.fields? [field] with
  | [items] => return ⟨← Json.required (Json.list? item) items⟩
  | _ => none

end Listing

abbrev KeyRingListing := Listing KeyRing
abbrev CryptoKeyListing := Listing CryptoKey
abbrev VersionListing := Listing CryptoKeyVersion

def KeyRingListing.toJson : KeyRingListing → Json := Listing.toJson "keyRings" KeyRing.toJson

def KeyRingListing.ofJson? : Json → Option KeyRingListing :=
  Listing.ofJson? "keyRings" KeyRing.ofJson?

def CryptoKeyListing.toJson : CryptoKeyListing → Json :=
  Listing.toJson "cryptoKeys" CryptoKey.toJson

def CryptoKeyListing.ofJson? : Json → Option CryptoKeyListing :=
  Listing.ofJson? "cryptoKeys" CryptoKey.ofJson?

def VersionListing.toJson : VersionListing → Json :=
  Listing.toJson "cryptoKeyVersions" CryptoKeyVersion.toJson

def VersionListing.ofJson? : Json → Option VersionListing :=
  Listing.ofJson? "cryptoKeyVersions" CryptoKeyVersion.ofJson?

end KeyManagement
