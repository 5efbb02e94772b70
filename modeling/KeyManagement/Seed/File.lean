import KeyManagement.Bytes
import KeyManagement.Seed.Apply
import KeyManagement.Seed.Reader
import KeyManagement.Text.FileName

/-! # Seed files

A seed file has the name of a YAML document and holds a seed document as UTF-8.
-/

namespace KeyManagement.Seed

inductive FileError
  | foreign (path : String)
  | unreadable (path : String)
  | malformed
  | notApplied (cause : ApplyError)
  deriving DecidableEq, Repr

def FileError.message : FileError → String
  | .foreign path => "seed file " ++ path ++ " must be a YAML document (.yaml or .yml)"
  | .unreadable path => "read seed file " ++ path ++ ": no readable text"
  | .malformed => "parse seed file: no seed document"
  | .notApplied cause => cause.message

/-- Reads the document of a seed file from the contents of the file, if there are any. -/
def Document.ofFile (path : String) (contents : Option Bytes) : Except FileError Document :=
  if !FileName.isYaml path then .error (.foreign path)
  else
    match contents.bind Bytes.toText? with
    | none => .error (.unreadable path)
    | some text =>
      match Document.parse? text with
      | none => .error .malformed
      | some document => .ok document

variable {S σ : Type} [KeyStore S] (env : Environment σ) (ctx : Context)

/-- Seeds everything that the document of a file declares. -/
def applyFile (path : String) (contents : Option Bytes) :
    EStateM (Stop FileError) (Service.State S σ) Summary := do
  let document ← ofResultAs .failed (Document.ofFile path contents)
  (apply env ctx document).adaptExcept (.map .notApplied)

end KeyManagement.Seed
