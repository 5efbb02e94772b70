/-! # Outcomes

Pure results as steps of a computation that may also change a state. A computation that
stops early has an error for its answer, or no answer at all.
-/

namespace KeyManagement

variable {ε ε' σ α : Type}

/-- A step that leaves the state as it is. -/
def ofResult : Except ε α → EStateM ε σ α
  | .ok a => pure a
  | .error e => throw e

/-- A pure step whose error is reported as `f` says. -/
def ofResultAs (f : ε → ε') (r : Except ε α) : EStateM ε' σ α := ofResult (r.mapError f)

@[simp]
theorem ofResult_ok (a : α) (s : σ) : (ofResult (.ok a) : EStateM ε σ α) s = .ok a s := rfl

@[simp]
theorem ofResult_error (e : ε) (s : σ) :
    (ofResult (.error e) : EStateM ε σ α) s = .error e s := rfl

/-- Why a computation stops early: it fails, and answers with its error, or a number
overflows, and there is no answer. -/
inductive Stop (ε : Type)
  | failed (e : ε)
  | overflow
  deriving DecidableEq, Repr

def Stop.map (f : ε → ε') : Stop ε → Stop ε'
  | .failed e => .failed (f e)
  | .overflow => .overflow

end KeyManagement
