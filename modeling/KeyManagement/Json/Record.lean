import KeyManagement.Json.Basic
import KeyManagement.Store.Keyed

/-! # JSON records

A record has named fields in a fixed order. It is written as an object, and read from an
object or from an array that lists the fields in order. In an object unknown members are
skipped and known ones must not be repeated; in an array only the last fields may be
missing.
-/

namespace KeyManagement.Json

def text? : Json → Option String
  | .string s => s
  | _ => none

def list? {α : Type} (read : Json → Option α) : Json → Option (List α)
  | .array items => items.mapM read
  | _ => none

/-- The texts filed under the names of an object; of a repeated name the last one. -/
def texts? : Json → Option (Keyed String)
  | .object members =>
    Keyed.ofList <$> members.mapM fun (name, value) => do return (← name, ← value.text?)
  | _ => none

/-- A value, or nothing when it is null. -/
def option? {α : Type} (read : Json → Option α) : Json → Option (Option α)
  | .null => some none
  | v => (read v).map some

/-- One of several names, which may also be written as an object with the name and null. -/
def enum? {α : Type} (values : List α) (name : α → String) : Json → Option α
  | .string (some s) => values.find? fun v => name v == s
  | .object [(some s, .null)] => values.find? fun v => name v == s
  | _ => none

/-- The fields of a record that are present, in order. -/
abbrev Fields := List (Option Json)

/-- The only member with the given name, if there is one; nothing if there are more. -/
def member? (members : List (String × Json)) (name : String) : Option (Option Json) :=
  match members.filter fun m => m.1 == name with
  | [] => some none
  | [m] => some (some m.2)
  | _ => none

def fields? (names : List String) : Json → Option Fields
  | .object members => do
    let members ← members.mapM fun (name, value) => do return (← name, value)
    names.mapM (member? members)
  | .array items =>
    if items.length ≤ names.length then
      some (items.map some ++ List.replicate (names.length - items.length) none)
    else none
  | _ => none

/-- Takes the next field, which must be present. -/
def required {α : Type} (read : Json → Option α) (field : Option Json) : Option α :=
  field.bind read

/-- Takes a field that has a default when it is absent. -/
def optional {α : Type} (default : α) (read : Json → Option α) : Option Json → Option α
  | none => some default
  | some v => read v

end KeyManagement.Json
