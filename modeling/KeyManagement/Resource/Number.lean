import KeyManagement.Name.Parser
import KeyManagement.Resource.Basic

/-! # Version numbers

A version is numbered by the last segment of its name, if the name is well formed. The
next number is one past the highest, so that numbers are never used again.
-/

namespace KeyManagement

/-- The number in a version name, if the name is well formed and the number fits. -/
def versionNumber? (name : String) : Option Nat :=
  (CryptoKeyVersionName.parse name).toOption.bind CryptoKeyVersionName.number?

def highestNumber (names : List String) : Nat := (names.filterMap versionNumber?).foldl max 0

/-- How a program is built: with checks for overflow, or so that sums wrap around. -/
inductive Build
  | checked
  | wrapping
  deriving DecidableEq, Repr

/-- One past a number, unless that overflows and is noticed. -/
def Build.successor? : Build → Nat → Option Nat
  | .checked, n => if n + 1 < versionNumberLimit then some (n + 1) else none
  | .wrapping, n => some ((n + 1) % versionNumberLimit)

/-- One past the highest number in use. -/
def nextVersionNumber? (build : Build) (names : List String) : Option Nat :=
  build.successor? (highestNumber names)

end KeyManagement
