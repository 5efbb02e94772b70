import KeyManagement.Json.Writer
import KeyManagement.Status

/-! # HTTP messages

Requests with their target and body, and responses whose body is a JSON value or a plain
text. A failure is answered with an error object that holds the status code, the message
and the name of the code.
-/

namespace KeyManagement.Http

structure Request where
  method : String := "GET"
  target : String
  body : Bytes := []
  deriving DecidableEq, Repr

inductive Body
  | json (value : Json)
  | text (content : String)

structure Response where
  status : Nat
  body : Body

/-- The HTTP status of a code; 499 means that the request was given up. -/
def statusOf : Code → Nat
  | .invalidArgument | .failedPrecondition => 400
  | .notFound => 404
  | .alreadyExists => 409
  | .unimplemented => 501
  | .internal => 500
  | .cancelled => 499

def errorBody (s : Status) : Json :=
  .record [("error", .record [
    ("code", .integer (statusOf s.code)),
    ("message", .text s.message),
    ("status", .text s.code.name)])]

def Response.ofStatus (s : Status) : Response := ⟨statusOf s.code, .json (errorBody s)⟩

def Response.ok (value : Json) : Response := ⟨200, .json value⟩

/-- A request that is refused before it is read any further. -/
def Response.badRequest (reason : String) : Response := ⟨400, .text reason⟩

def Response.methodNotAllowed : Response := ⟨405, .text ""⟩

def Response.withoutBody (r : Response) : Response := { r with body := .text "" }

def Body.render : Body → String
  | .json value => value.render
  | .text content => content

end KeyManagement.Http
