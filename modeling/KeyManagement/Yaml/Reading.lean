import KeyManagement.Yaml.Node

/-! # Reading nodes

An alias stands for the last node in document order whose anchor has its number, which may
come later than the alias or enclose it. A reading follows an alias only where it looks at
what is there. How often it may do so is limited by the size of the document.
-/

namespace KeyManagement.Yaml

namespace Node

/-- The size of a node: one for a scalar or alias, two and the size of its members for a
collection. -/
def size : Node → Nat
  | .scalar _ _ | .alias _ => 1
  | .sequence items => 2 + itemsSize items
  | .mapping pairs => 2 + pairsSize pairs
  | .anchored _ node => node.size
where
  itemsSize : List Node → Nat
    | [] => 0
    | node :: rest => node.size + itemsSize rest
  pairsSize : List (Node × Node) → Nat
    | [] => 0
    | (key, value) :: rest => key.size + value.size + pairsSize rest

/-- The nodes with an anchor, by its number, in document order. -/
def anchorings : Node → List (Nat × Node)
  | .scalar _ _ | .alias _ => []
  | .sequence items => ofItems items
  | .mapping pairs => ofPairs pairs
  | .anchored number node => (number, node) :: node.anchorings
where
  ofItems : List Node → List (Nat × Node)
    | [] => []
    | node :: rest => node.anchorings ++ ofItems rest
  ofPairs : List (Node × Node) → List (Nat × Node)
    | [] => []
    | (key, value) :: rest => key.anchorings ++ (value.anchorings ++ ofPairs rest)

end Node

/-- A reading knows what the aliases stand for, and how many more of them it may follow. -/
abbrev Reading := ReaderT (List (Nat × Node)) (StateT Nat Option)

namespace Reading

variable {α : Type}

/-- A step that succeeds only with a value. -/
def ofOption : Option α → Reading α
  | some value => pure value
  | none => failure

/-- The node that an alias with the number stands for. -/
def follow (number : Nat) : Reading Node := do
  match ← get with
  | 0 => failure
  | n + 1 =>
    set n
    ofOption ((← read).lookup number)

/-- The scalar or collection that is meant by a node. -/
def resolve : Node → Reading Node
  | .alias number => follow number
  | .anchored _ node => pure node
  | node => pure node

/-- Reads a document by its root. For each unit of its size a hundred aliases may be
followed. -/
def run? (reading : Node → Reading α) (root : Node) : Option α :=
  (((reading root).run root.anchorings.reverse).run (100 * root.size)).map Prod.fst

end Reading

end KeyManagement.Yaml
