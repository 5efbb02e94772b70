import KeyManagement.Bytes
import KeyManagement.Text.Decimal

/-! # Ciphertext envelopes

A payload carries the name of the version that sealed it: two bytes with the size of the
name, the name in UTF-8, then the sealed body.
-/

namespace KeyManagement.Envelope

/-- The longest name, in bytes, that the size field can state. -/
def maxNameSize : Nat := 65535

/-- A name of the given size does not fit. -/
structure NameTooLong where
  size : Nat
  deriving DecidableEq, Repr

def NameTooLong.message (e : NameTooLong) : String :=
  "version name of " ++ Decimal.render e.size ++ " bytes does not fit the length prefix"

inductive UnwrapError
  | tooShort
  | truncated
  | invalidName
  deriving DecidableEq, Repr

def UnwrapError.message : UnwrapError → String
  | .tooShort => "payload too short"
  | .truncated => "payload missing ciphertext body"
  | .invalidName => "version name is not valid UTF-8"

def wrap (name : String) (body : Bytes) : Except NameTooLong Bytes :=
  let nameBytes := Bytes.ofText name
  if nameBytes.length ≤ maxNameSize then
    .ok (Bytes.ofNat 2 nameBytes.length ++ nameBytes ++ body)
  else
    .error ⟨nameBytes.length⟩

def unwrap (payload : Bytes) : Except UnwrapError (String × Bytes) :=
  match payload with
  | hi :: lo :: rest =>
    let size := Bytes.toNat [hi, lo]
    if rest.length < size then .error .truncated
    else match Bytes.toText? (rest.take size) with
      | none => .error .invalidName
      | some name => .ok (name, rest.drop size)
  | _ => .error .tooShort

end KeyManagement.Envelope
