import KeyManagement.Configuration.Basic
import KeyManagement.Http.Intake
import KeyManagement.Seed.File
import KeyManagement.World

/-! # The emulator

An emulator is started from a configuration: the store that it names is seeded and then
served. Requests run under a root context that is cancelled when the emulator stops, so
that nothing can be done any more; what is stored stays.
-/

namespace KeyManagement

inductive StartError
  | configuration (fault : ConfigurationFault)
  | seed (cause : Seed.FileError)
  deriving DecidableEq, Repr

def StartError.message : StartError → String
  | .configuration fault => fault.message
  | .seed cause => "apply seed file: " ++ cause.message

structure Emulator (ε : Type) where
  env : Environment (World ε)
  /-- Where the configuration wants the emulator to listen. -/
  address : SocketAddress
  server : Http.Server
  state : Service.State Store (World ε)

namespace Emulator

variable {ε : Type}

def emptyStore : StoreKind → Store
  | .memory => .empty

/-- The store seeded with a file, under a context of its own that nothing cancels. -/
def seeded (env : Environment (World ε)) (path : String) (contents : Option Bytes)
    (st : Service.State Store (World ε)) :
    Except (Stop StartError) (Service.State Store (World ε)) :=
  let (ctx, world) := st.world.background
  match Seed.applyFile env ctx path contents { st with world } with
  | .ok _ st => .ok st
  | .error cause _ => .error (cause.map .seed)

/-- Starts an emulator, given the contents of its seed file if there are any. -/
def start (engine : Engine (World ε)) (c : Configuration) (contents : Option Bytes)
    (world : World ε) : Except (Stop StartError) (Emulator ε) :=
  match c.fault?, c.socketAddress?, c.storeKind? with
  | some fault, _, _ => .error (.failed (.configuration fault))
  | none, none, _ => .error (.failed (.configuration (.listenAddress c.listenAddress)))
  | none, _, none => .error (.failed (.configuration (.store c.store)))
  | none, some address, some kind => do
    let env := World.environment engine
    let st : Service.State Store (World ε) := ⟨emptyStore kind, world⟩
    let st ← match c.seedFile with
      | some path => seeded env path contents st
      | none => .ok st
    let (root, world) := st.world.background
    return {
      env, address
      server := { root, timeout := c.requestMillis }
      state := { st with world } }

/-- A context for calls from within the process. -/
def context (e : Emulator ε) : Context × Emulator ε :=
  let (ctx, world) := e.state.world.child e.server.root
  (ctx, { e with state := { e.state with world } })

def isStopped (e : Emulator ε) : Bool := e.server.root.isCancelled e.state.world.signals

def atTime (e : Emulator ε) (now : Instant) (time later : Timestamp) : Emulator ε :=
  { e with state := { e.state with world := e.state.world.atTime now time later } }

/-- Answers a request, unless a number overflows on the way. -/
def respond (e : Emulator ε) (request : Http.Request) : Option Http.Response × Emulator ε :=
  let (response, state) := e.server.receive e.env request e.state
  (response, { e with state })

def stop (e : Emulator ε) : Emulator ε :=
  { e with state := { e.state with world := e.state.world.cancel e.server.root } }

end Emulator

end KeyManagement
