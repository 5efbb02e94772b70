import KeyManagement.Name.Basic
import KeyManagement.Text.Percent

/-! # Routes

A path is cut at its slashes before anything is decoded. Collections stand as they are, and
what stands in the place of an identifier is decoded on its own; only the last segment of a
path must not be empty. A route holds the resource name that its path spells, whether or
not its identifiers are valid.
-/

namespace KeyManagement.Http

inductive Route
  | health
  | keyRings (location : LocationName)
  | keyRing (name : KeyRingName)
  | cryptoKeys (ring : KeyRingName)
  | cryptoKey (name : CryptoKeyName)
  | versions (key : CryptoKeyName)
  | version (name : CryptoKeyVersionName)
  deriving DecidableEq, Repr

namespace Route

def nonempty (s : String) (r : Route) : Option Route := if s.isEmpty then none else some r

/-- The route of the segments below a location. -/
def below? (location : LocationName) : List String → Option Route
  | ["keyRings"] => some (.keyRings location)
  | ["keyRings", r] => nonempty r (.keyRing (location.ring r))
  | ["keyRings", r, "cryptoKeys"] => some (.cryptoKeys (location.ring r))
  | ["keyRings", r, "cryptoKeys", k] => nonempty k (.cryptoKey ((location.ring r).key k))
  | ["keyRings", r, "cryptoKeys", k, "cryptoKeyVersions"] =>
    some (.versions ((location.ring r).key k))
  | ["keyRings", r, "cryptoKeys", k, "cryptoKeyVersions", v] =>
    nonempty v (.version ⟨(location.ring r).key k, v⟩)
  | _ => none

def match? (path : String) : Option Route :=
  match (path.toList.splitOn '/').map String.ofList with
  | ["", "health"] => some .health
  | "" :: "v1" :: "projects" :: project :: "locations" :: location :: rest =>
    below? ⟨project, location⟩ rest
  | _ => none

/-- A parameter whose bytes are not a text, by its name. -/
abbrev Undecodable := String

def decodeParameter (name raw : String) : Except Undecodable String :=
  match Percent.decodeSegment? raw with
  | some s => .ok s
  | none => .error name

/-- Parameters are decoded from left to right. -/
def decodeLocation (n : LocationName) : Except Undecodable LocationName := do
  return ⟨← decodeParameter "project" n.project, ← decodeParameter "location" n.location⟩

def decodeKeyRing (n : KeyRingName) : Except Undecodable KeyRingName := do
  return ⟨← decodeLocation n.parent, ← decodeParameter "key_ring" n.keyRing⟩

def decodeCryptoKey (n : CryptoKeyName) : Except Undecodable CryptoKeyName := do
  return ⟨← decodeKeyRing n.parent, ← decodeParameter "crypto_key" n.cryptoKey⟩

def decodeVersion (n : CryptoKeyVersionName) : Except Undecodable CryptoKeyVersionName := do
  return ⟨← decodeCryptoKey n.parent, ← decodeParameter "version" n.version⟩

end Route

end KeyManagement.Http
