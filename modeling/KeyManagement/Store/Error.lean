import KeyManagement.Name.Basic

/-! # Store errors

A store refuses to read what it does not hold and to create what it holds already.
-/

namespace KeyManagement

inductive StoreError
  | notFound (resource : ResourceKind) (name : String)
  | alreadyExists (resource : ResourceKind) (name : String)
  deriving DecidableEq, Repr

namespace StoreError

def describeMissing (resource name : String) : String :=
  resource ++ " " ++ Text.quoted name ++ " not found"

def describePresent (resource name : String) : String :=
  resource ++ " " ++ Text.quoted name ++ " already exists"

def message : StoreError → String
  | .notFound resource name => describeMissing resource.label name
  | .alreadyExists resource name => describePresent resource.label name

end StoreError

end KeyManagement
