import KeyManagement.Engine.Material
import KeyManagement.Outcome
import KeyManagement.Resource.Number
import KeyManagement.Store.Error

/-! # The store

Key rings filed by name, each with its crypto keys filed by name, each with its versions
and their material filed by name. A key is looked up under the key ring that its own name
spells, and a version under the crypto key that its own name spells. Writes change the
store in place, and so each of them has to make its checks before its change.
-/

namespace KeyManagement

structure VersionRecord where
  version : CryptoKeyVersion
  material : KeyMaterial
  deriving DecidableEq, Repr

structure KeyRecord where
  key : CryptoKey
  versions : Keyed VersionRecord
  deriving DecidableEq, Repr

structure RingRecord where
  ring : KeyRing
  keys : Keyed KeyRecord
  deriving DecidableEq, Repr

structure Store where
  rings : Keyed RingRecord
  deriving DecidableEq, Repr

/-- An access to a store. Whatever it comes to, it may have changed the store. -/
abbrev Access (S α : Type) := EStateM (Stop StoreError) S α

namespace Store

def empty : Store := ⟨.empty⟩

section Reads

def findRing (s : Store) (name : String) : Except StoreError RingRecord :=
  match s.rings.find? name with
  | some record => .ok record
  | none => .error (.notFound .keyRing name)

/-- The record of a crypto key, under the key ring that its name spells. -/
def findKey? (s : Store) (name : String) : Option KeyRecord := do
  let parsed ← (CryptoKeyName.parse name).toOption
  let ring ← s.rings.find? parsed.parent.resourceName
  ring.keys.find? name

def findKey (s : Store) (name : String) : Except StoreError KeyRecord :=
  match s.findKey? name with
  | some record => .ok record
  | none => .error (.notFound .cryptoKey name)

def getKeyRing (s : Store) (name : String) : Except StoreError KeyRing :=
  (s.findRing name).map (·.ring)

/-- The key rings of a location, which is not itself stored and so is never missing. -/
def listKeyRings (s : Store) (parent : String) : List KeyRing :=
  (s.rings.scan (parent ++ "/keyRings/")).map (·.ring)

def getCryptoKey (s : Store) (name : String) : Except StoreError CryptoKey :=
  (s.findKey name).map (·.key)

def listCryptoKeys (s : Store) (parent : String) : Except StoreError (List CryptoKey) :=
  (s.findRing parent).map fun record => record.keys.values.map (·.key)

def getVersion (s : Store) (name : String) :
    Except StoreError (CryptoKeyVersion × KeyMaterial) :=
  let found : Option VersionRecord := do
    let parsed ← (CryptoKeyVersionName.parse name).toOption
    let record ← s.findKey? parsed.parent.resourceName
    record.versions.find? name
  match found with
  | some record => .ok (record.version, record.material)
  | none => .error (.notFound .cryptoKeyVersion name)

def listVersions (s : Store) (parent : String) : Except StoreError (List CryptoKeyVersion) :=
  (s.findKey parent).map fun record => record.versions.values.map (·.version)

/-- Looks something up in the store as it is. -/
def look {α : Type} (f : Store → Except StoreError α) : Access Store α := do
  ofResultAs .failed (f (← get))

end Reads

section Writes

/-- Puts a record in the place of the crypto key with the given name. -/
def replaceKey (s : Store) (name : String) (record : KeyRecord) : Store :=
  match CryptoKeyName.parse name with
  | .error _ => s
  | .ok parsed =>
    ⟨s.rings.modify parsed.parent.resourceName fun ring =>
      { ring with keys := ring.keys.insert name record }⟩

/-- Fails if there is something under the name already. -/
def vacant {α : Type} (resource : ResourceKind) (filed : Keyed α) (name : String) :
    Access Store Unit :=
  if filed.contains name then throw (.failed (.alreadyExists resource name)) else pure ()

def createKeyRing (ring : KeyRing) : Access Store Unit := do
  vacant .keyRing (← get).rings ring.name
  modify fun s => ⟨s.rings.insert ring.name ⟨ring, .empty⟩⟩

/-- Files a crypto key under a key ring, with its first version as its primary. -/
def createCryptoKey (ring : String) (key : CryptoKey) (primary : CryptoKeyVersion)
    (material : KeyMaterial) : Access Store Unit := do
  let record ← look (·.findRing ring)
  vacant .cryptoKey record.keys key.name
  let filed : KeyRecord :=
    { key := { key with primary := some primary }
      versions := Keyed.empty.insert primary.name ⟨primary, material⟩ }
  modify fun s => ⟨s.rings.insert ring { record with keys := record.keys.insert key.name filed }⟩

/-- Files a version under the name that it carries. -/
def createVersion (key : String) (version : CryptoKeyVersion) (material : KeyMaterial) :
    Access Store Unit := do
  let record ← look (·.findKey key)
  vacant .cryptoKeyVersion record.versions version.name
  modify (·.replaceKey key
    { record with versions := record.versions.insert version.name ⟨version, material⟩ })

/-- The number of the version to come next in a record. -/
def nextNumber (build : Build) (record : KeyRecord) : Access Store Nat :=
  match nextVersionNumber? build (record.versions.values.map (·.version.name)) with
  | some number => pure number
  | none => throw .overflow

/-- Files an enabled version under the next number. -/
def createNextVersion (build : Build) (key : String) (template : VersionTemplate)
    (material : KeyMaterial) (now : Timestamp) : Access Store CryptoKeyVersion := do
  let record ← look (·.findKey key)
  let number ← nextNumber build record
  let version := CryptoKeyVersion.enabled (versionNameOf key (Decimal.render number)) template now
  vacant .cryptoKeyVersion record.versions version.name
  modify (·.replaceKey key
    { record with versions := record.versions.insert version.name ⟨version, material⟩ })
  return version

/-- Designates one of the versions filed under a crypto key as its primary. -/
def setPrimary (key version : String) : Access Store CryptoKey := do
  let record ← look (·.findKey key)
  match record.versions.find? version with
  | none => throw (.failed (.notFound .cryptoKeyVersion version))
  | some found =>
    let updated := { record.key with primary := some found.version }
    modify (·.replaceKey key { record with key := updated })
    return updated

end Writes

end Store

end KeyManagement
