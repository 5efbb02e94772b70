import KeyManagement.Service.Environment

/-! # The world

Signals, a clock, the time of day and a source of randomness: the state that request
contexts and engines work on.
-/

namespace KeyManagement

structure World (ε : Type) where
  signals : Signals := {}
  now : Instant := 0
  time : Timestamp
  /-- What the clock shows the next time, if that is another time. -/
  later : Option Timestamp := none
  entropy : ε

namespace World

variable {ε : Type}

def check (ctx : Context) : EStateM ContextError (World ε) Unit := fun w =>
  match ctx.check w.signals w.now with
  | .ok () => .ok () w
  | .error e => .error e w

def cancel (ctx : Context) (w : World ε) : World ε := { w with signals := ctx.cancel w.signals }

def background (w : World ε) : Context × World ε :=
  let (ctx, signals) := Context.background w.signals
  (ctx, { w with signals })

def child (parent : Context) (w : World ε) : Context × World ε :=
  let (ctx, signals) := parent.child w.signals
  (ctx, { w with signals })

def advance (delay : Nat) (w : World ε) : World ε := { w with now := w.now + delay }

/-- Sets the clocks. -/
def atTime (now : Instant) (time later : Timestamp) (w : World ε) : World ε :=
  { w with now, time, later := some later }

def requestContext? (root : Context) (timeout : Option Nat) (w : World ε) :
    Option (Context × World ε) :=
  let (ctx, w) := w.child root
  match timeout with
  | none => some (ctx, w)
  | some delay => (ctx.withTimeout? w.now delay).map fun ctx => (ctx, w)

def environment (engine : Engine (World ε)) : Environment (World ε) where
  check := check
  time w := w.time
  timeAgain w := w.later.getD w.time
  engine := engine
  requestContext? := requestContext?

end World

end KeyManagement
