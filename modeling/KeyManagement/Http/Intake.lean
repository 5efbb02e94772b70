import KeyManagement.Http.Server

/-! # Taking in requests

The body of a request is read only where an operation takes one, once the parameters and the
query have been decoded. A body beyond the limit is refused while it is read.
-/

namespace KeyManagement.Http

/-- How many bytes of a body are taken in. -/
def bodyLimit : Nat := 2097152

def Response.bodyTooLarge : Response :=
  ⟨413, .text "Failed to buffer the request body: length limit exceeded"⟩

/-- Whether a request gets so far that its body is read. -/
def readsBody (request : Request) : Bool :=
  let target := Target.parse request.target
  match Method.of? request.method, Route.match? target.path with
  | some .post, some (.cryptoKeys n) =>
    (Route.decodeKeyRing n).isOk && (queryField target.query "cryptoKeyId").isOk
  | some .post, some (.cryptoKey n) => (Route.decodeCryptoKey n).isOk
  | _, _ => false

def exceedsLimit (request : Request) : Bool :=
  readsBody request && decide (bodyLimit < request.body.length)

variable {S σ : Type} [KeyStore S] (env : Environment σ)

/-- Answers a request whose body may be of any length. -/
def Server.receive (server : Server) (request : Request) (st : Service.State S σ) :
    Option Response × Service.State S σ :=
  if exceedsLimit request then (some .bodyTooLarge, st) else server.respond env request st

end KeyManagement.Http
