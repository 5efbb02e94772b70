import KeyManagement.Json.Token

/-! # Reading JSON

Values are built from tokens on a stack of the arrays and objects that are still open, so
nesting has no limit.
-/

namespace KeyManagement.Json

/-- An array or object that is still open, with what it holds so far in reverse. -/
inductive Frame
  | items (before : List Json)
  | member (before : List (Option String × Json)) (name : Option String)

inductive Expected
  | value
  | valueOrEnd
  | nameOrEnd
  | name (before : List (Option String × Json))
  | colon (before : List (Option String × Json)) (name : Option String)
  | separator (value : Json)

/-- What may come next, inside of which open arrays and objects. -/
structure Builder where
  expected : Expected := .value
  stack : List Frame := []

namespace Builder

/-- Ends the innermost open array or object after the given value. -/
def close (stack : List Frame) (value : Json) (array : Bool) : Option Builder :=
  match stack, array with
  | .items before :: stack, true => some ⟨.separator (.array (value :: before).reverse), stack⟩
  | .member before name :: stack, false =>
    some ⟨.separator (.object ((name, value) :: before).reverse), stack⟩
  | _, _ => none

def step (b : Builder) (t : Token) : Option Builder :=
  match b.expected, t with
  | .value, .scalar v | .valueOrEnd, .scalar v => some { b with expected := .separator v }
  | .value, .beginArray | .valueOrEnd, .beginArray => some ⟨.valueOrEnd, .items [] :: b.stack⟩
  | .value, .beginObject | .valueOrEnd, .beginObject => some { b with expected := .nameOrEnd }
  | .valueOrEnd, .endArray => some ⟨.separator (.array []), b.stack.tail⟩
  | .nameOrEnd, .scalar (.string name) => some { b with expected := .colon [] name }
  | .nameOrEnd, .endObject => some { b with expected := .separator (.object []) }
  | .name before, .scalar (.string name) => some { b with expected := .colon before name }
  | .colon before name, .colon => some ⟨.value, .member before name :: b.stack⟩
  | .separator v, .comma =>
    match b.stack with
    | .items before :: stack => some ⟨.value, .items (v :: before) :: stack⟩
    | .member before name :: stack => some ⟨.name ((name, v) :: before), stack⟩
    | [] => none
  | .separator v, .endArray => close b.stack v true
  | .separator v, .endObject => close b.stack v false
  | _, _ => none

end Builder

/-- The value that the tokens spell, if they spell exactly one. -/
def ofTokens? (tokens : List Token) : Option Json := do
  match ← tokens.foldlM Builder.step {} with
  | ⟨.separator v, []⟩ => some v
  | _ => none

def parse? (text : Bytes) : Option Json := (tokens? text).bind ofTokens?

end KeyManagement.Json
