/-! # Request targets

What a request line asks for. It is a path with a query, either alone or behind a scheme
and an authority; or it is an authority alone, which has no path. A fragment is not part of
what is asked for.
-/

namespace KeyManagement.Http

structure Target where
  path : String
  query : String := ""
  deriving DecidableEq, Repr

namespace Target

/-- Cuts at the first question mark. -/
def ofPathAndQuery (s : List Char) : Target where
  path := String.ofList (s.takeWhile (· ≠ '?'))
  query := String.ofList ((s.dropWhile (· ≠ '?')).drop 1)

/-- What follows the scheme, if there is one. -/
def afterScheme? (s : List Char) : Option (List Char) :=
  match s.dropWhile (· ≠ ':') with
  | ':' :: '/' :: '/' :: rest => some rest
  | _ => none

/-- The target without its authority. A missing path is the root. -/
def ofAbsolute (afterScheme : List Char) : Target :=
  let t := ofPathAndQuery (afterScheme.dropWhile fun c => c ≠ '/' && c ≠ '?')
  if t.path.isEmpty then { t with path := "/" } else t

def parse (target : String) : Target :=
  let s := target.toList.takeWhile (· ≠ '#')
  if s.head? = some '/' || s = ['*'] then ofPathAndQuery s
  else
    match afterScheme? s with
    | some rest => ofAbsolute rest
    | none => { path := "" }

end Target

end KeyManagement.Http
