import KeyManagement.Text.Decimal
import KeyManagement.Yaml.Tag

/-! # Directives

A line ahead of a document that begins with a percent sign: it gives the version of the
language, or what a handle stands for.
-/

namespace KeyManagement.Yaml

inductive Directive
  | version
  | handle (name : String)
  deriving DecidableEq, Repr

namespace Directive

/-- The handle that a directive declares. -/
def declared? : Directive → Option String
  | .handle name => some name
  | .version => none

/-- A number of one to nine digits. -/
def number? (s : List Char) : Option (Nat × List Char) :=
  let (digits, rest) := s.span Char.isDigit
  if digits.isEmpty || 9 < digits.length then none else some (Decimal.value digits, rest)

/-- Reads a version, which is 1.1 or 1.2. -/
def version? (s : List Char) : Option (Directive × List Char) := do
  let (major, s) ← number? s
  match s with
  | '.' :: s =>
    let (minor, s) ← number? s
    if major = 1 ∧ (minor = 1 ∨ minor = 2) then some (.version, s) else none
  | _ => none

/-- Reads a handle and, after blanks, what it stands for. -/
def definition? (s : List Char) : Option (Directive × List Char) := do
  let (name, s) ← handle? s
  if !s.head?.any isSpace then none
  else
    let s ← afterUri? true (s.dropWhile isSpace)
    if gapAhead s then some (.handle name, s) else none

/-- Where the line ends, if only blanks and a comment are left on it. -/
def lineEnd? (s : List Char) : Option (List Char) :=
  let s := s.dropWhile isSpace
  let s := if s.head? == some '#' then s.dropWhile fun c => !isBreak c else s
  if s.head?.all isBreak then some s else none

/-- The directive behind a percent sign, and where its line ends. -/
def parse? (s : List Char) : Option (Directive × List Char) := do
  let (name, s) := s.span isWordChar
  if !gapAhead s then none
  else
    let s := s.dropWhile isSpace
    let (directive, s) ← match String.ofList name with
      | "YAML" => version? s
      | "TAG" => definition? s
      | _ => none
    return (directive, ← lineEnd? s)

end Directive

end KeyManagement.Yaml
