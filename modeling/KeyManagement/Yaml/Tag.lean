import KeyManagement.Text.Hexadecimal
import KeyManagement.Yaml.Cursor

/-! # Tags and their handles

A tag is a URI: in angle brackets, or after a handle that stands for its first part. What a
tag says never matters here, only that it is well formed and that its handle is known.
-/

namespace KeyManagement.Yaml

/-- The characters of names and of the words in handles. -/
def isWordChar (c : Char) : Bool := c.isAlphanum || c == '_' || c == '-'

/-- The characters of a URI other than escapes. Those that would end a flow entry stand in
some URIs only. -/
def isUriChar (withFlow : Bool) (c : Char) : Bool :=
  isWordChar c || ";/?:@&=+$.!~*'()".toList.contains c || (withFlow && ",[]".toList.contains c)

/-- How many octets of a character in UTF-8 follow its first one. -/
def followers? (first : Nat) : Option Nat :=
  if first < 0x80 then some 0
  else if 0xc0 ≤ first && first < 0xe0 then some 1
  else if 0xe0 ≤ first && first < 0xf0 then some 2
  else if 0xf0 ≤ first && first < 0xf8 then some 3
  else none

/-- How many octets are due after one more, if that one fits. -/
def dueAfter? (due octet : Nat) : Option Nat :=
  if due = 0 then followers? octet
  else if 0x80 ≤ octet && octet < 0xc0 then some (due - 1)
  else none

/-- What follows the characters of a URI. A percent sign and two hexadecimal digits are an
octet, and as long as octets are due nothing else may stand there. -/
def afterUriChars (withFlow : Bool) : (due : Nat) → List Char → Option (List Char)
  | due, '%' :: a :: b :: rest => do
    let due ← dueAfter? due (← Hexadecimal.value? [a, b])
    afterUriChars withFlow due rest
  | 0, c :: rest =>
    if isUriChar withFlow c then afterUriChars withFlow 0 rest
    else if c == '%' then none
    else some (c :: rest)
  | 0, [] => some []
  | _, _ => none

/-- What follows a URI, which is not empty. -/
def afterUri? (withFlow : Bool) (s : List Char) : Option (List Char) := do
  let after ← afterUriChars withFlow 0 s
  if after.length < s.length then some after else none

/-- The handle at the start of a text, and what follows it: an exclamation mark, with or
without a word and another one. -/
def handle? : List Char → Option (String × List Char)
  | '!' :: rest =>
    let (word, after) := rest.span isWordChar
    match after with
    | '!' :: after => some (String.ofList ('!' :: word ++ ['!']), after)
    | _ => some ("!", rest)
  | _ => none

/-- The handles that every document knows. -/
def isCommonHandle (handle : String) : Bool := handle == "!" || handle == "!!"

/-- The handle of the tag at the start of a text, unless it is in brackets, and what follows
the tag. Only after the shortest handle nothing needs to follow. -/
def tag? (s : List Char) : Option (Option String × List Char) :=
  match s with
  | '!' :: '<' :: uri => do
    match ← afterUri? true uri with
    | '>' :: after => some (none, after)
    | _ => none
  | _ => do
    let (handle, rest) ← handle? s
    let after ← if handle = "!" then afterUriChars false 0 rest else afterUri? false rest
    return (some handle, after)

end KeyManagement.Yaml
