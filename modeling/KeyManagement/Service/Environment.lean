import KeyManagement.Engine.Basic
import KeyManagement.Time.Timestamp

/-! # The environment of the service

What the service finds around it, besides the store: contexts and their clock, the time of
day, and a crypto engine. All of them read and change one state of the world.
-/

namespace KeyManagement

structure Environment (σ : Type) where
  check : Context → EStateM ContextError σ Unit
  time : σ → Timestamp
  /-- What the clock shows when it is read for the second time in one call. -/
  timeAgain : σ → Timestamp
  engine : Engine σ
  /-- A context for one request under a root, with a timeout if one is given; nothing if
  the deadline cannot be represented. -/
  requestContext? : (root : Context) → (timeout : Option Nat) → σ → Option (Context × σ)

end KeyManagement
