import KeyManagement.Name.Basic

/-! # Reading resource names

A name is cut at its slashes. The number of segments is checked first, then the
collections from left to right, then the identifiers from left to right, and the first
fault found is reported.
-/

namespace KeyManagement

inductive IdField
  | project
  | location
  | keyRing
  | cryptoKey
  deriving DecidableEq, Repr

def IdField.label : IdField → String
  | .project => "project"
  | .location => "location"
  | .keyRing => "key_ring"
  | .cryptoKey => "crypto_key"

inductive NameFault
  | segmentCount (expected found : Nat)
  | collection (expected : String) (position : Nat) (found : String)
  | emptyId (field : IdField)
  | malformedId (field : IdField)
  | emptyVersion
  | malformedVersion
  deriving DecidableEq, Repr

/-- The longest identifier, in bytes. -/
def maxIdSize : Nat := 63

open Text in
def NameFault.message : NameFault → String
  | .segmentCount expected found =>
    "expected " ++ Decimal.render expected ++ " path segments, got " ++ Decimal.render found
  | .collection expected position found =>
    "expected " ++ quoted expected ++ " at segment " ++ Decimal.render position ++ ", got " ++
      quoted found
  | .emptyId field => field.label ++ " must be non-empty"
  | .malformedId field =>
    field.label ++ " must match [a-zA-Z0-9_-]\x7b1," ++ Decimal.render maxIdSize ++ "\x7d"
  | .emptyVersion => "version must be non-empty"
  | .malformedVersion => "version must match [0-9]+"

/-- A text that is not a resource name of the wanted kind. -/
structure NameError where
  kind : ResourceKind
  name : String
  fault : NameFault
  deriving DecidableEq, Repr

namespace NameError

def describe (kind name reason : String) : String :=
  "invalid " ++ kind ++ " name " ++ Text.quoted name ++ ": " ++ reason

def message (e : NameError) : String := describe e.kind.label e.name e.fault.message

end NameError

def segments (name : String) : List String :=
  (name.toList.splitOn '/').map String.ofList

def isIdChar (c : Char) : Bool := c.isAlphanum || c == '_' || c == '-'

/-- Identifiers hold 1 to 63 ASCII letters, digits, underscores and hyphens. -/
def isId (s : String) : Bool :=
  !s.isEmpty && s.toList.all isIdChar && s.utf8ByteSize ≤ maxIdSize

/-- Version identifiers hold one or more ASCII digits. -/
def isVersionId (s : String) : Bool := !s.isEmpty && s.toList.all Char.isDigit

def checkCollection (expected : String) (position : Nat) (found : String) : Option NameFault :=
  if found = expected then none else some (.collection expected position found)

def checkId (field : IdField) (s : String) : Option NameFault :=
  if s.isEmpty then some (.emptyId field)
  else if isId s then none
  else some (.malformedId field)

def checkVersionId (s : String) : Option NameFault :=
  if s.isEmpty then some .emptyVersion
  else if isVersionId s then none
  else some .malformedVersion

/-- The value, unless one of the checks found a fault. -/
def acceptUnless {α : Type} (kind : ResourceKind) (name : String)
    (checks : List (Option NameFault)) (value : α) : Except NameError α :=
  match checks.findSome? id with
  | some fault => .error ⟨kind, name, fault⟩
  | none => .ok value

def LocationName.parse (name : String) : Except NameError LocationName :=
  match segments name with
  | [c₁, project, c₂, location] =>
    acceptUnless .location name
      [checkCollection "projects" 1 c₁, checkCollection "locations" 3 c₂,
        checkId .project project, checkId .location location]
      ⟨project, location⟩
  | parts => .error ⟨.location, name, .segmentCount 4 parts.length⟩

def KeyRingName.parse (name : String) : Except NameError KeyRingName :=
  match segments name with
  | [c₁, project, c₂, location, c₃, keyRing] =>
    acceptUnless .keyRing name
      [checkCollection "projects" 1 c₁, checkCollection "locations" 3 c₂,
        checkCollection "keyRings" 5 c₃,
        checkId .project project, checkId .location location, checkId .keyRing keyRing]
      ⟨⟨project, location⟩, keyRing⟩
  | parts => .error ⟨.keyRing, name, .segmentCount 6 parts.length⟩

def CryptoKeyName.parse (name : String) : Except NameError CryptoKeyName :=
  match segments name with
  | [c₁, project, c₂, location, c₃, keyRing, c₄, cryptoKey] =>
    acceptUnless .cryptoKey name
      [checkCollection "projects" 1 c₁, checkCollection "locations" 3 c₂,
        checkCollection "keyRings" 5 c₃, checkCollection "cryptoKeys" 7 c₄,
        checkId .project project, checkId .location location, checkId .keyRing keyRing,
        checkId .cryptoKey cryptoKey]
      ⟨⟨⟨project, location⟩, keyRing⟩, cryptoKey⟩
  | parts => .error ⟨.cryptoKey, name, .segmentCount 8 parts.length⟩

def CryptoKeyVersionName.parse (name : String) : Except NameError CryptoKeyVersionName :=
  match segments name with
  | [c₁, project, c₂, location, c₃, keyRing, c₄, cryptoKey, c₅, version] =>
    acceptUnless .cryptoKeyVersion name
      [checkCollection "projects" 1 c₁, checkCollection "locations" 3 c₂,
        checkCollection "keyRings" 5 c₃, checkCollection "cryptoKeys" 7 c₄,
        checkCollection "cryptoKeyVersions" 9 c₅,
        checkId .project project, checkId .location location, checkId .keyRing keyRing,
        checkId .cryptoKey cryptoKey, checkVersionId version]
      ⟨⟨⟨⟨project, location⟩, keyRing⟩, cryptoKey⟩, version⟩
  | parts => .error ⟨.cryptoKeyVersion, name, .segmentCount 10 parts.length⟩

end KeyManagement
