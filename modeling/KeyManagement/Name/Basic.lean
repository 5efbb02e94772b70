import KeyManagement.Text.Decimal
import KeyManagement.Text.Quoted

/-! # Resource names

A resource name spells the path of collections and identifiers that leads to a resource.
The name of each kind extends the name of its parent by one collection and one identifier.
-/

namespace KeyManagement

inductive ResourceKind
  | location
  | keyRing
  | cryptoKey
  | cryptoKeyVersion
  deriving DecidableEq, Repr

def ResourceKind.label : ResourceKind → String
  | .location => "location"
  | .keyRing => "key ring"
  | .cryptoKey => "crypto key"
  | .cryptoKeyVersion => "crypto key version"

structure LocationName where
  project : String
  location : String
  deriving DecidableEq, Repr

structure KeyRingName where
  parent : LocationName
  keyRing : String
  deriving DecidableEq, Repr

structure CryptoKeyName where
  parent : KeyRingName
  cryptoKey : String
  deriving DecidableEq, Repr

structure CryptoKeyVersionName where
  parent : CryptoKeyName
  version : String
  deriving DecidableEq, Repr

namespace LocationName

def resourceName (n : LocationName) : String :=
  "projects/" ++ n.project ++ "/locations/" ++ n.location

def ring (n : LocationName) (id : String) : KeyRingName := ⟨n, id⟩

end LocationName

namespace KeyRingName

def resourceName (n : KeyRingName) : String :=
  n.parent.resourceName ++ "/keyRings/" ++ n.keyRing

def key (n : KeyRingName) (id : String) : CryptoKeyName := ⟨n, id⟩

end KeyRingName

namespace CryptoKeyName

def resourceName (n : CryptoKeyName) : String :=
  n.parent.resourceName ++ "/cryptoKeys/" ++ n.cryptoKey

/-- The name of the version with the given number, a canonical numeral. -/
def version (n : CryptoKeyName) (number : Nat) : CryptoKeyVersionName :=
  ⟨n, Decimal.render number⟩

end CryptoKeyName

/-- Appends a version identifier to a key's resource name, whatever the two texts hold. -/
def versionNameOf (key id : String) : String := key ++ "/cryptoKeyVersions/" ++ id

/-- Version numbers are 64-bit. -/
def versionNumberLimit : Nat := 0x10000000000000000

namespace CryptoKeyVersionName

def resourceName (n : CryptoKeyVersionName) : String :=
  versionNameOf n.parent.resourceName n.version

/-- The number that the version segment denotes, if it fits in 64 bits. -/
def number? (n : CryptoKeyVersionName) : Option Nat :=
  (Decimal.parse? n.version).filter (· < versionNumberLimit)

end CryptoKeyVersionName

end KeyManagement
