/-! # Request contexts

Every operation runs under a context that may be cancelled and may have a deadline. A
context holds the signals that cancel it: its own first, then those of its ancestors.
Copies share a signal, and a child has one of its own besides its parent's.
-/

namespace KeyManagement

/-- Milliseconds on a clock that never goes back. -/
abbrev Instant := Nat

/-- An instant counts its seconds in 63 bits. -/
def instantLimit : Nat := 0x8000000000000000 * 1000

/-- The instant after a delay, if it can be represented. -/
def Instant.after? (now : Instant) (delay : Nat) : Option Instant :=
  if now + delay < instantLimit then some (now + delay) else none

inductive ContextError
  | cancelled
  | deadlineExceeded
  deriving DecidableEq, Repr

def ContextError.message : ContextError → String
  | .cancelled => "operation was cancelled"
  | .deadlineExceeded => "operation deadline exceeded"

/-- The cancellation signals that exist, numbered from zero, and those that were raised. -/
structure Signals where
  count : Nat := 0
  raised : List Nat := []
  deriving DecidableEq, Repr

structure Context where
  signal : Nat
  ancestors : List Nat
  deadline : Option Instant
  deriving DecidableEq, Repr

namespace Context

/-- A context with a new signal and no deadline. -/
def background (signals : Signals) : Context × Signals :=
  (⟨signals.count, [], none⟩, { signals with count := signals.count + 1 })

/-- A context that is cancelled with its parent, but can also be cancelled on its own. -/
def child (parent : Context) (signals : Signals) : Context × Signals :=
  (⟨signals.count, parent.signal :: parent.ancestors, parent.deadline⟩,
    { signals with count := signals.count + 1 })

/-- Tightens the deadline; an earlier one is kept. -/
def withDeadline (c : Context) (deadline : Instant) : Context :=
  { c with deadline := some (c.deadline.elim deadline (min · deadline)) }

/-- Tightens the deadline to a delay from now, if that instant can be represented. -/
def withTimeout? (c : Context) (now : Instant) (delay : Nat) : Option Context :=
  (now.after? delay).map c.withDeadline

def cancel (c : Context) (signals : Signals) : Signals :=
  { signals with raised := c.signal :: signals.raised }

def isCancelled (c : Context) (signals : Signals) : Bool :=
  (c.signal :: c.ancestors).any signals.raised.contains

/-- Cancellation is reported before a deadline that has passed or is now. -/
def check (c : Context) (signals : Signals) (now : Instant) : Except ContextError Unit :=
  if c.isCancelled signals then .error .cancelled
  else if c.deadline.any (· ≤ now) then .error .deadlineExceeded
  else .ok ()

end Context

end KeyManagement
