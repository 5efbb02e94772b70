/-! # JSON values

An object keeps its members in the order in which they were written, repeated names
included. A string that is well formed but whose escapes or bytes are not a text can be
skipped, but not read.
-/

namespace KeyManagement

inductive Json
  | null
  | bool (value : Bool)
  | integer (value : Int)
  /-- A number that is not written as an integer. -/
  | real (literal : String)
  | string (text : Option String)
  | array (items : List Json)
  | object (members : List (Option String × Json))

namespace Json

instance : Inhabited Json := ⟨.null⟩

def text (s : String) : Json := .string (some s)

def record (members : List (String × Json)) : Json :=
  .object (members.map fun (name, value) => (some name, value))

end Json

end KeyManagement
