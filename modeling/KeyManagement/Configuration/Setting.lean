import KeyManagement.Number.Literal

/-! # Settings

The value of a variable is taken for a flag, an integer or a real number if it is written
like one, and for a text otherwise. A setting that is wanted as another kind is converted.
-/

namespace KeyManagement

inductive Setting
  | flag (value : Bool)
  | integer (value : Int)
  | real (value : Binary64)
  | text (value : String)
  /-- A setting of which only parts are given; it converts to nothing. -/
  | parts
  deriving DecidableEq, Repr

namespace Setting

def flag? (s : String) : Option Bool :=
  match s.toLower with
  | "true" => some true
  | "false" => some false
  | _ => none

def ofText (s : String) : Setting :=
  match flag? s, Literal.int64? s, Literal.binary64? s with
  | some value, _, _ => .flag value
  | none, some value, _ => .integer value
  | none, none, some value => .real value
  | none, none, none => .text s

def renderInteger (n : Int) : String :=
  String.ofList (Binary64.sign (n < 0)) ++ Decimal.render n.natAbs

/-- The text of a setting, which for a number need not be the one it was read from. -/
def text? : Setting → Option String
  | .flag value => some (if value then "true" else "false")
  | .integer value => some (renderInteger value)
  | .real value => some value.render
  | .text value => some value
  | .parts => none

/-- A setting as a number below 2 ^ 64. A flag counts as one or zero, under any of its
names. -/
def natural? : Setting → Option UInt64
  | .flag value => some (if value then 1 else 0)
  | .integer value => if 0 ≤ value then some (.ofNat value.toNat) else none
  | .real value => some value.toUInt64
  | .text value =>
    match value.toLower with
    | "true" | "on" | "yes" => some 1
    | "false" | "off" | "no" => some 0
    | _ => none
  | .parts => none

end Setting

end KeyManagement
