import KeyManagement.Resource.Basic
import KeyManagement.Yaml.Node

/-! # Seed documents

What a seed document declares: projects, their locations, the key rings in them and the
crypto keys in those, each level filed by identifier. Whatever is left out is empty.
-/

namespace KeyManagement.Seed

/-- A declared version. Versions are always created enabled and numbered by the service, so
that only the number of declarations counts. -/
structure VersionSeed where
  id : String := ""
  state : String := ""
  deriving DecidableEq, Repr

/-- A declared state that has no effect. -/
def VersionSeed.ignoredState? (v : VersionSeed) : Option String :=
  if v.state = "" ∨ v.state = "ENABLED" then none else some v.state

structure CryptoKeySeed where
  purpose : String := ""
  labels : Labels := .empty
  versions : List VersionSeed := []
  deriving DecidableEq, Repr

structure KeyRingSeed where
  cryptoKeys : Keyed CryptoKeySeed := .empty
  deriving DecidableEq, Repr

structure LocationSeed where
  keyRings : Keyed KeyRingSeed := .empty
  deriving DecidableEq, Repr

structure ProjectSeed where
  locations : Keyed LocationSeed := .empty
  deriving DecidableEq, Repr

structure Document where
  projects : Keyed ProjectSeed := .empty
  deriving DecidableEq, Repr

end KeyManagement.Seed
