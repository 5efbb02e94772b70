/-! # File names

The last part of a path, and its extension: what follows the last dot, if anything precedes
that dot. Empty parts and parts that are a single dot are skipped.
-/

namespace KeyManagement.FileName

/-- A path that ends by going up names no file. -/
def ofPath? (path : String) : Option (List Char) :=
  ((path.toList.splitOn '/').filter fun part => part ≠ [] ∧ part ≠ ['.']).getLast?.filter
    fun part => part ≠ ['.', '.']

def extension? (path : String) : Option String := do
  let name ← ofPath? path
  let extension := (name.reverse.takeWhile (· ≠ '.')).reverse
  if extension.length + 1 < name.length then some (String.ofList extension) else none

/-- Whether a path has the extension of a YAML document, in any case. -/
def isYaml (path : String) : Bool :=
  match extension? path with
  | some extension => extension.toLower = "yaml" || extension.toLower = "yml"
  | none => false

end KeyManagement.FileName
