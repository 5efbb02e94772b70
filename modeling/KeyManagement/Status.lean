import KeyManagement.Context.Basic
import KeyManagement.Engine.Basic
import KeyManagement.Name.Parser
import KeyManagement.Store.Error

/-! # Statuses

What a caller is told of a failure: a code that stays the same whatever the wording, and a
message. Errors of the parts have a status of their own.
-/

namespace KeyManagement

inductive Code
  | invalidArgument
  | notFound
  | alreadyExists
  | failedPrecondition
  | unimplemented
  | internal
  | cancelled
  deriving DecidableEq, Repr

namespace Code

def all : List Code :=
  [.invalidArgument, .notFound, .alreadyExists, .failedPrecondition, .unimplemented, .internal,
    .cancelled]

def name : Code → String
  | .invalidArgument => "INVALID_ARGUMENT"
  | .notFound => "NOT_FOUND"
  | .alreadyExists => "ALREADY_EXISTS"
  | .failedPrecondition => "FAILED_PRECONDITION"
  | .unimplemented => "UNIMPLEMENTED"
  | .internal => "INTERNAL"
  | .cancelled => "CANCELLED"

/-- How the code is called in front of a message. -/
def title : Code → String
  | .invalidArgument => "Invalid argument"
  | .notFound => "Not found"
  | .alreadyExists => "Already exists"
  | .failedPrecondition => "Failed precondition"
  | .unimplemented => "Unimplemented"
  | .internal => "Internal error"
  | .cancelled => "Cancelled"

end Code

structure Status where
  code : Code
  message : String
  deriving DecidableEq, Repr

def Status.describe (s : Status) : String := s.code.title ++ ": " ++ s.message

def NameError.status (e : NameError) : Status := ⟨.invalidArgument, e.message⟩

def ContextError.status (e : ContextError) : Status := ⟨.cancelled, e.message⟩

/-- An engine that was cancelled is not at fault. -/
def EngineError.status : EngineError → Status
  | .context e => e.status
  | e => ⟨.internal, e.message⟩

def StoreError.status : StoreError → Status
  | e@(.notFound ..) => ⟨.notFound, e.message⟩
  | e@(.alreadyExists ..) => ⟨.alreadyExists, e.message⟩

end KeyManagement
