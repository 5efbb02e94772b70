import KeyManagement.Http.Message
import KeyManagement.Http.Payload
import KeyManagement.Http.Route
import KeyManagement.Http.Target
import KeyManagement.Service.Basic

/-! # Serving HTTP requests

A request is interpreted as an operation, or refused: by its path, its method, its
parameters, its query and its body, in this order. The operation then runs under a context
of its own below the root context of the server.
-/

namespace KeyManagement.Http

inductive Refusal
  | unknownPath
  | noMethod (key : String)
  | unknownVerb (verb : String)
  /-- The server goes on with the words in which the decoder describes the fault. These are
  left out of the message here. -/
  | malformedBody
  deriving DecidableEq, Repr

def Refusal.status : Refusal → Status
  | .unknownPath => ⟨.notFound, "no such resource path"⟩
  | .noMethod key =>
    ⟨.notFound,
      "no method on crypto key " ++ Text.quoted key ++ "; expected \x7bid\x7d:\x7bverb\x7d"⟩
  | .unknownVerb verb => ⟨.notFound, "unknown method " ++ Text.quoted verb⟩
  | .malformedBody => ⟨.invalidArgument, "invalid request body"⟩

def refuse {α : Type} (r : Refusal) : Except Response α := .error (.ofStatus r.status)

/-- The value of a query field, empty if it is absent. A field must not be repeated. -/
def queryField (query field : String) : Except Response String :=
  match (Percent.decodeQuery query).filter fun p => p.1 == field with
  | [] => .ok ""
  | [p] => .ok p.2
  | _ =>
    .error (.badRequest ("Failed to deserialize query string: duplicate field `" ++ field ++ "`"))

def decodeBody {α : Type} (read : Json → Option α) (body : Bytes) :
    Except Response (Option α) :=
  match readBody read body with
  | .ok value => .ok value
  | .error () => refuse .malformedBody

/-- What stands before and after the first colon. -/
def splitVerb (s : String) : Option (String × String) :=
  match s.toList.dropWhile (· ≠ ':') with
  | [] => none
  | _ :: verb => some (String.ofList (s.toList.takeWhile (· ≠ ':')), String.ofList verb)

/-- The custom methods of a crypto key: its identifier, a colon and a verb. -/
def keyMethod (n : CryptoKeyName) (body : Bytes) : Except Response Operation :=
  match splitVerb n.cryptoKey with
  | none => refuse (.noMethod n.cryptoKey)
  | some (id, verb) =>
    let name := (n.parent.key id).resourceName
    if verb = "encrypt" then do
      return .encrypt ((← decodeBody (encryptOfJson? name) body).getD { name })
    else if verb = "decrypt" then do
      return .decrypt ((← decodeBody (decryptOfJson? name) body).getD { name })
    else if verb = "updatePrimaryVersion" then do
      return .updatePrimary name ((← decodeBody versionIdOfJson? body).getD "")
    else refuse (.unknownVerb verb)

/-- The methods that are served: HEAD is a GET whose response loses its body. -/
inductive Method
  | get
  | post
  deriving DecidableEq, Repr

def Method.of? : String → Option Method
  | "GET" | "HEAD" => some .get
  | "POST" => some .post
  | _ => none

/-- What a request comes to: the health report, or an operation. -/
inductive Task
  | health
  | perform (op : Operation)
  deriving DecidableEq, Repr

/-- A decoded name, or the response to a parameter that is not a text. -/
def named {α : Type} : Except Route.Undecodable α → Except Response α
  | .ok n => .ok n
  | .error parameter =>
    .error (.badRequest ("Invalid URL: Invalid UTF-8 in `" ++ parameter ++ "`"))

open Route in
/-- The task of a method on a route. -/
def task (query : String) (body : Bytes) : Method → Route → Except Response Task
  | .get, .health => .ok .health
  | .get, .keyRings n => do
    let n ← named (decodeLocation n)
    return .perform (.listKeyRings n.resourceName (← queryField query "pageToken"))
  | .post, .keyRings n => do
    let n ← named (decodeLocation n)
    return .perform (.createKeyRing n.resourceName (← queryField query "keyRingId"))
  | .get, .keyRing n => do
    let n ← named (decodeKeyRing n)
    return .perform (.getKeyRing n.resourceName)
  | .get, .cryptoKeys n => do
    let n ← named (decodeKeyRing n)
    return .perform (.listCryptoKeys n.resourceName (← queryField query "pageToken"))
  | .post, .cryptoKeys n => do
    let n ← named (decodeKeyRing n)
    let id ← queryField query "cryptoKeyId"
    let spec ← decodeBody CryptoKeySpec.ofJson? body
    return .perform (.createCryptoKey n.resourceName id spec)
  | .get, .cryptoKey n => do
    let n ← named (decodeCryptoKey n)
    return .perform (.getCryptoKey n.resourceName)
  | .post, .cryptoKey n => do
    let n ← named (decodeCryptoKey n)
    return .perform (← keyMethod n body)
  | .get, .versions n => do
    let n ← named (decodeCryptoKey n)
    return .perform (.listVersions n.resourceName (← queryField query "pageToken"))
  | .post, .versions n => do
    let n ← named (decodeCryptoKey n)
    return .perform (.createVersion n.resourceName)
  | .get, .version n => do
    let n ← named (decodeVersion n)
    return .perform (.getVersion n.resourceName)
  | .post, .health | .post, .keyRing _ | .post, .version _ => .error .methodNotAllowed

/-- The task of a request, or the response that refuses it. -/
def interpret (request : Request) : Except Response Task :=
  let target := Target.parse request.target
  match Route.match? target.path with
  | none => refuse .unknownPath
  | some route =>
    match Method.of? request.method with
    | none => .error .methodNotAllowed
    | some method => task target.query request.body method route

def version : String := "0.3.0"

def healthReport (now : Timestamp) : Json :=
  .record [
    ("status", .text "ok"),
    ("service", .text "kms-emulator"),
    ("timestamp", .text (now.renderWith "+00:00")),
    ("version", .text version)]

/-- Under which context requests run, and how many milliseconds they may take. -/
structure Server where
  root : Context
  timeout : Option Nat := none

variable {S σ : Type} [KeyStore S] (env : Environment σ)

/-- A response to HEAD on a known path has no body. -/
def finish (request : Request) (response : Response) : Response :=
  if request.method = "HEAD" && (Route.match? (Target.parse request.target).path).isSome then
    response.withoutBody
  else response

/-- Answers a request. There is no answer if the deadline of its context cannot be
represented, or the number of a new version overflows. -/
def Server.respond (server : Server) (request : Request) (st : Service.State S σ) :
    Option Response × Service.State S σ :=
  match interpret request with
  | .error response => (some (finish request response), st)
  | .ok .health => (some (finish request (.ok (healthReport (env.time st.world)))), st)
  | .ok (.perform op) =>
    match env.requestContext? server.root server.timeout st.world with
    | none => (none, st)
    | some (ctx, world) =>
      match Service.perform env ctx op { st with world } with
      | .ok response st => (some (finish request (.ok (responseJson response))), st)
      | .error (.failed e) st => (some (finish request (.ofStatus e.status)), st)
      | .error .overflow st => (none, st)

end KeyManagement.Http
