import KeyManagement.Text.Alphanumeric
import KeyManagement.Text.Blank

/-! # Files of variables

Each line gives a variable a value: a name, an equals sign and a text, which may be quoted
and may refer to other variables. A quoted text may go on over several lines. A comment
starts with a number sign, at the start of a line or after a blank.
-/

namespace KeyManagement.EnvFile

/-- What a line break or a number sign is read as part of. -/
inductive Quoting
  | plain
  | afterBlank
  | escaped
  | single
  | singleEscaped
  | double
  | doubleEscaped
  deriving DecidableEq, Repr

namespace Quoting

def enter : Char → Option Quoting
  | '\\' => some .escaped
  | '\'' => some .single
  | '"' => some .double
  | _ => none

def next : Quoting → Char → Quoting
  | .plain, c =>
    if Text.isBlank c && c ≠ '\n' && c ≠ '\r' then .afterBlank else (enter c).getD .plain
  | .afterBlank, c => (enter c).getD .plain
  | .escaped, _ => .plain
  | .single, c => if c = '\'' then .plain else if c = '\\' then .singleEscaped else .single
  | .singleEscaped, _ => .single
  | .double, c => if c = '"' then .plain else if c = '\\' then .doubleEscaped else .double
  | .doubleEscaped, _ => .double

/-- The text of a line up to a comment, and the state behind it, if there is no comment. -/
def scan : Quoting → List Char → List Char × Option Quoting
  | q, [] => ([], some q)
  | q, c :: s =>
    if q = .afterBlank && c = '#' then ([], none)
    else
      let (text, state) := scan (q.next c) s
      (c :: text, state)

end Quoting

/-- The lines of a text, each with its line break. -/
def lines (s : List Char) : List (List Char) :=
  match (s.splitOn '\n').reverse with
  | [] => []
  | last :: others =>
    others.reverse.map (· ++ ['\n']) ++ (if last.isEmpty then [] else [last])

/-- Joins the lines of a quoted text, and cuts off comments. At the end, what is still
open is malformed. -/
def entries (q : Quoting) (pending : List Char) : List (List Char) → List (Option (List Char))
  | [] => if q = .plain then [] else [none]
  | line :: rest =>
    let joined := pending ++ line
    if (Text.skipBlanks joined).head? = some '#' then some [] :: entries .plain [] rest
    else
      match q.scan line with
      | (text, none) => some (pending ++ text) :: entries .plain [] rest
      | (_, some .plain) => some joined :: entries .plain [] rest
      | (_, some q) => entries q joined rest

def isNameStart (c : Char) : Bool := c.isAlpha || c == '_'

def isNameChar (c : Char) : Bool := c.isAlphanum || c == '_' || c == '.'

def name? (s : List Char) : Option (String × List Char) :=
  if s.head?.any isNameStart then
    let (name, rest) := s.span isNameChar
    some (String.ofList name, rest)
  else none

def equals? : List Char → Option (List Char)
  | '=' :: s => some s
  | _ => none

def unescape? : Char → Option Char
  | 'n' => some '\n'
  | '\\' => some '\\'
  | '\'' => some '\''
  | '"' => some '"'
  | '$' => some '$'
  | ' ' => some ' '
  | _ => none

/-- What the characters of a value are read as part of. -/
inductive ValueMode
  | text
  | escaped
  | single
  /-- The name of a variable behind a dollar sign: alphanumeric characters of any script. -/
  | reference (name : List Char)
  | braced (name : List Char)
  | ended
  deriving DecidableEq, Repr

/-- Reads a value, with the output so far, in or outside of double quotes. The character
that ends a reference is taken as it is. -/
def value? (resolve : List Char → List Char) :
    ValueMode → (inDouble : Bool) → (output : List Char) → List Char → Option (List Char)
  | .braced _, _, _, [] | .single, _, _, [] | _, true, _, [] => none
  | .reference name, false, output, [] => some (output ++ resolve name)
  | _, false, output, [] => some output
  | .ended, inDouble, output, c :: s =>
    if c = ' ' || c = '\t' then value? resolve .ended inDouble output s
    else if c = '#' then some output
    else none
  | .escaped, inDouble, output, c :: s => do
    value? resolve .text inDouble (output ++ [← unescape? c]) s
  | .single, inDouble, output, c :: s =>
    if c = '\'' then value? resolve .text inDouble output s
    else value? resolve .single inDouble (output ++ [c]) s
  | .reference name, inDouble, output, c :: s =>
    if Text.isAlphanumeric c then value? resolve (.reference (name ++ [c])) inDouble output s
    else if c = '\x7b' && name.isEmpty then value? resolve (.braced []) inDouble output s
    else if c = '$' then value? resolve (.reference []) inDouble (output ++ resolve name) s
    else value? resolve .text inDouble (output ++ resolve name ++ [c]) s
  | .braced name, inDouble, output, c :: s =>
    if c = '\x7d' then value? resolve .text inDouble (output ++ resolve name) s
    else value? resolve (.braced (name ++ [c])) inDouble output s
  | .text, inDouble, output, c :: s =>
    if c = '$' then value? resolve (.reference []) inDouble output s
    else if c = '\\' then value? resolve .escaped inDouble output s
    else if c = '"' then value? resolve .text (!inDouble) output s
    else if inDouble then value? resolve .text true (output ++ [c]) s
    else if c = '\'' then value? resolve .single false output s
    else if c = ' ' || c = '\t' then value? resolve .ended false output s
    else value? resolve .text false (output ++ [c]) s

/-- The name of a variable, and what follows its equals sign. The word `export` may precede
the name. -/
def target? (s : List Char) : Option (String × List Char) := do
  let (name, s) ← name? s
  let s := Text.skipBlanks s
  match equals? s with
  | some s => return (name, s)
  | none =>
    if name = "export" then
      let (name, s) ← name? s
      return (name, ← equals? (Text.skipBlanks s))
    else none

/-- The name and the value that an entry gives, or nothing if it is blank. -/
def assignment? (resolve : List Char → List Char) (entry : List Char) :
    Option (Option (String × String)) :=
  let s := Text.skipBlanks (entry.reverse.dropWhile Text.isBlank).reverse
  if s.isEmpty || s.head? = some '#' then some none
  else do
    let (name, s) ← target? s
    let s := Text.skipBlanks s
    if s.isEmpty || s.head? = some '#' then return some (name, "")
    return some (name, String.ofList (← value? resolve .text false [] s))

/-- Adds the variables of the entries up to the first malformed one. A variable that is
there already keeps its value. -/
def extend (vars : List (String × String)) :
    List (Option (List Char)) → List (String × String)
  | [] | none :: _ => vars
  | some entry :: rest =>
    let resolve := fun name => ((vars.lookup (String.ofList name)).getD "").toList
    match assignment? resolve entry with
    | none => vars
    | some none => extend vars rest
    | some (some (name, value)) =>
      if (vars.lookup name).isSome then extend vars rest
      else extend (vars ++ [(name, value)]) rest

/-- The variables together with those that a file gives. A byte order mark is skipped. -/
def load (vars : List (String × String)) (contents : String) : List (String × String) :=
  let s := contents.toList
  let s := if s.head? = some '\ufeff' then s.drop 1 else s
  extend vars (entries .plain [] (lines s))

end KeyManagement.EnvFile
