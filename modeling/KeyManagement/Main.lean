import KeyManagement.Configuration.EnvFile
import KeyManagement.Configuration.Variables
import KeyManagement.Emulator
import KeyManagement.Engine.Random
import Std.Async.Signal
import Std.Http.Server
import Std.Time

/-! # The command line

Reads the configuration from the variables of the process and from a file `.env`, starts
the emulator and serves it over HTTP until it is interrupted.
-/

namespace KeyManagement.CommandLine

/-- An emulator that connections share. -/
abbrev Running := Std.Mutex (Emulator Generator)

/-- The contents of a file, if it can be read. -/
def contents? (path : String) : IO (Option Bytes) := do
  try return some (← IO.FS.readBinFile path).toList
  catch _ => return none

/-- The variables of the process and of the file of variables. -/
def readVars : IO (List (String × String)) := do
  let own := (← Std.Internal.UV.System.osEnviron).toList
  match (← contents? ".env").bind Bytes.toText? with
  | some contents => return EnvFile.load own contents
  | none => return own

def readClock : IO KeyManagement.Timestamp := do
  let wall := Std.Time.WallTime.ofTimestamp (← Std.Time.Timestamp.now) .zero
  let now := Std.Time.PlainDateTime.ofWallTime wall
  let date? := Date.ofParts? now.date.year.toInt now.date.month.val.toNat now.date.day.val.toNat
  let time? := TimeOfDay.ofParts? now.time.hour.val.toNat now.time.minute.val.toNat
    now.time.second.val.toNat now.time.nanosecond.val.toNat
  match date?, time? with
  | some date, some time => return ⟨date, time⟩
  | _, _ => throw (.userError "the clock shows no time of the calendar")

def newWorld : IO (World Generator) := do
  return {
    now := ← IO.monoMsNow, time := ← readClock
    entropy := .ofSeed (← IO.getRandomBytes 32).toList }

def announce (c : Configuration) (message : String) : IO Unit := do
  if c.informs then
    match LogFormat.parse c.logFormat with
    | .ok format => IO.println (format.line (← readClock) message)
    | .error _ => pure ()

def netAddress : SocketAddress → Std.Net.SocketAddress
  | .v4 ip port => .v4 ⟨.ofParts ip.a ip.b ip.c ip.d, port⟩
  | .v6 ip _ port => .v6 ⟨⟨ip.groups⟩, port⟩

/-- Answers a request at the present time. -/
def answer (running : Running) (request : KeyManagement.Http.Request) :
    IO (Option KeyManagement.Http.Response) := do
  let time ← readClock
  let now ← IO.monoMsNow
  let later ← readClock
  running.atomically do
    let (response, e) := ((← get).atTime now time later).respond request
    set e
    return response

/-- A status that is not in the registry means that the request was given up. -/
def statusOf (code : Nat) : Std.Http.Status :=
  (Std.Http.Status.ofCode (some ⟨"Client Closed Request", by decide⟩) code.toUInt16).getD
    .internalServerError

def handle (running : Running) (request : Std.Http.Request Std.Http.Body.Stream) :
    Std.Async.ContextAsync (Std.Http.Response Std.Http.Body.Any) := do
  let body : ByteArray ← request.body.readAll
  let response ← answer running {
    method := toString request.line.method
    target := toString request.line.uri
    body := body.toList }
  let builder := Std.Http.Response.new.status
    (response.elim .internalServerError fun r => statusOf r.status)
  let sent ← match response with
    | some ⟨_, .json value⟩ => builder.json value.render
    | some ⟨_, .text content⟩ => builder.text content
    | none => builder.text ""
  return { sent with body := .ofBody sent.body }

/-- Serves an emulator until the process is interrupted. -/
def serve (c : Configuration) (e : Emulator Generator) : Std.Async.Async Unit := do
  let running : Running ← Std.Mutex.new e
  let server ← Std.Http.Server.serve (netAddress e.address)
    (Std.Http.Server.Handler.ofFn (handle running))
  let port := server.localAddr.elim e.address.port Std.Net.SocketAddress.port
  announce c ("KMS emulator started on " ++ (e.address.withPort port).render)
  let interrupt ← Std.Async.Signal.Waiter.mk .sigint false
  discard <| Std.Async.await (← interrupt.wait)
  running.atomically (modify Emulator.stop)
  server.shutdownAndWait
  announce c "KMS emulator stopped"

def run : IO UInt32 := do
  match Configuration.ofVariables (← readVars) with
  | .error e =>
    IO.eprintln ("Error: Failed to load configuration: " ++ e.message)
    return 1
  | .ok c =>
    let contents ← match c.seedFile with
      | some path => contents? path
      | none => pure none
    match Emulator.start Engine.random c contents (← newWorld) with
    | .error (.failed e) =>
      IO.eprintln ("Error: Failed to start emulator: " ++ e.message)
      return 1
    | .error .overflow =>
      IO.eprintln "Error: Failed to start emulator: a version number overflows"
      return 1
    | .ok e =>
      try
        (serve c e).block
        return 0
      catch error =>
        IO.eprintln ("Error: Failed to start emulator: " ++ toString error)
        return 1

end KeyManagement.CommandLine

def main : IO UInt32 := KeyManagement.CommandLine.run
