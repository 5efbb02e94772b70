import KeyManagement.Address.Reader
import KeyManagement.Log.Format
import KeyManagement.Text.FileName
import KeyManagement.Text.Quoted

/-! # Configuration

Where the emulator listens, where it keeps its state, what it is seeded with, how it logs
and how long a request may take. The settings are kept as they are given; a configuration
without a fault is one whose settings can all be used.
-/

namespace KeyManagement

/-- The kinds of state stores. -/
inductive StoreKind
  | memory
  deriving DecidableEq, Repr

def StoreKind.parse? (s : String) : Option StoreKind :=
  match s.toLower with
  | "memory" => some .memory
  | _ => none

structure Configuration where
  listenAddress : String := "127.0.0.1:9010"
  seedFile : Option String := none
  store : String := "memory"
  logLevel : String := "info"
  logFormat : String := "console"
  /-- How long a request may take, in seconds. -/
  requestTimeout : Option UInt64 := none
  deriving DecidableEq, Repr

/-- A setting that cannot be used. -/
inductive ConfigurationFault
  | listenAddress (text : String)
  | store (name : String)
  | logLevel (name : String)
  | logFormat (name : String)
  | seedFile (path : String)
  | requestTimeout
  deriving DecidableEq, Repr

def logLevels : List String := ["trace", "debug", "info", "warn", "error"]

namespace ConfigurationFault

/-- The name of a store is shown in small letters. -/
def describe : ConfigurationFault → String
  | .listenAddress text =>
    "invalid listen address " ++ Text.quoted text ++ ": invalid socket address syntax"
  | .store name =>
    "unsupported store type " ++ Text.quoted name.toLower ++ " (only \"memory\" is available)"
  | .logLevel name =>
    "unknown log level " ++ Text.quoted name ++ " (expected one of " ++
      ", ".intercalate logLevels ++ ")"
  | .logFormat name =>
    "unknown log format " ++ Text.quoted name ++ " (expected one of " ++
      ", ".intercalate LogFormat.names ++ ")"
  | .seedFile path => "seed file " ++ path ++ " must have a .yaml or .yml extension"
  | .requestTimeout => "request timeout must be at least one second"

def message (fault : ConfigurationFault) : String := "Invalid configuration: " ++ fault.describe

end ConfigurationFault

namespace Configuration

def socketAddress? (c : Configuration) : Option SocketAddress :=
  SocketAddress.parse? c.listenAddress

def storeKind? (c : Configuration) : Option StoreKind := StoreKind.parse? c.store

/-- The request timeout in milliseconds. -/
def requestMillis (c : Configuration) : Option Nat :=
  c.requestTimeout.map fun seconds => seconds.toNat * 1000

/-- Whether events that inform are logged. -/
def informs (c : Configuration) : Bool :=
  ["trace", "debug", "info"].contains c.logLevel.toLower

/-- A seed file whose name is not that of a YAML document. -/
def foreignSeedFile? (c : Configuration) : Option String :=
  c.seedFile.filter fun path => !FileName.isYaml path

/-- The first setting that cannot be used. -/
def fault? (c : Configuration) : Option ConfigurationFault :=
  if c.socketAddress?.isNone then some (.listenAddress c.listenAddress)
  else if c.storeKind?.isNone then some (.store c.store)
  else if c.logLevel.toLower ∉ logLevels then some (.logLevel c.logLevel)
  else if c.logFormat.toLower ∉ LogFormat.names then some (.logFormat c.logFormat)
  else match c.foreignSeedFile? with
    | some path => some (.seedFile path)
    | none => if c.requestTimeout = some 0 then some .requestTimeout else none

end Configuration

end KeyManagement
