import KeyManagement.Seed.Document
import KeyManagement.Yaml.Reading

/-! # Reading seed documents

Any scalar is a text as it is written. An empty node stands for an empty collection or
record. Records skip what they do not know and must not repeat what they do; of a repeated
identifier the last declaration counts.
-/

namespace KeyManagement

namespace Yaml.Reading

variable {α : Type}

def text (n : Node) : Reading String := do
  match ← resolve n with
  | .scalar _ text => return text
  | _ => failure

/-- The pairs of a mapping, or none for an empty node. -/
def pairs (n : Node) : Reading (List (Node × Node)) := do
  match ← resolve n with
  | .mapping pairs => return pairs
  | .scalar true "" => return []
  | _ => failure

def items (n : Node) : Reading (List Node) := do
  match ← resolve n with
  | .sequence items => return items
  | .scalar true "" => return []
  | _ => failure

/-- The members of a mapping whose keys are all texts. -/
def members (n : Node) : Reading (List (String × Node)) := do
  (← pairs n).mapM fun (key, value) => do return (← text key, value)

def keyed (read : Node → Reading α) (n : Node) : Reading (Keyed α) := do
  return .ofList (← (← members n).mapM fun (key, value) => do return (key, ← read value))

/-- A field of a record, with a default for when it is left out. -/
def field (members : List (String × Node)) (name : String) (default : α)
    (read : Node → Reading α) : Reading α :=
  match members.filter fun m => m.1 == name with
  | [] => pure default
  | [m] => read m.2
  | _ => failure

end Yaml.Reading

namespace Seed

open Yaml
open Reading (text members items keyed field)

def VersionSeed.ofNode (n : Node) : Reading VersionSeed := do
  let members ← members n
  return { id := ← field members "id" "" text, state := ← field members "state" "" text }

def CryptoKeySeed.ofNode (n : Node) : Reading CryptoKeySeed := do
  let members ← members n
  return {
    purpose := ← field members "purpose" "" text
    labels := ← field members "labels" .empty (keyed text)
    versions := ← field members "versions" [] fun n => do
      (← items n).mapM VersionSeed.ofNode }

def KeyRingSeed.ofNode (n : Node) : Reading KeyRingSeed := do
  return ⟨← field (← members n) "cryptoKeys" .empty (keyed CryptoKeySeed.ofNode)⟩

def LocationSeed.ofNode (n : Node) : Reading LocationSeed := do
  return ⟨← field (← members n) "keyRings" .empty (keyed KeyRingSeed.ofNode)⟩

def ProjectSeed.ofNode (n : Node) : Reading ProjectSeed := do
  return ⟨← field (← members n) "locations" .empty (keyed LocationSeed.ofNode)⟩

def Document.ofNode (n : Node) : Reading Document := do
  return ⟨← field (← members n) "projects" .empty (keyed ProjectSeed.ofNode)⟩

def Document.parse? (text : String) : Option Document :=
  (Node.parse? text).bind (Reading.run? Document.ofNode)

end Seed

end KeyManagement
