import Qaas.Server.Tools

/-! The HTTP transport's own door: who gets a tool call through it, and on behalf of which tenant. -/

namespace Qaas

open Concurrency

variable {J : Type}

/-- What follows a prefix of a text. -/
def stripPrefix (text start : String) : Option String :=
  if startsWith text start then some (String.ofList (text.toList.drop start.toList.length)) else none

/-- The bearer credential in an `Authorization` header, if there is one. -/
def bearerCredential (services : Services) (authorization : Option Bytes) : Option String :=
  (authorization.bind services.headerText).bind fun value => stripPrefix value "Bearer "

/-- What the token library makes of a token under a key at some time: its `tenant_id` claim, if the
signature and the expiry hold. -/
structure Jwt where
  decode : Bytes → Timestamp → String → Option String

/-- The tenant that a token names. -/
def verifyJwt (jwt : Jwt) (now : Timestamp) (token : String) (key : Bytes) : Option TenantId :=
  (jwt.decode key now token).bind fun tenantId => (TenantId.new tenantId).toOption

/-- The key under which tokens are verified, from what the environment holds as the secret. -/
def jwtKey (secret : Option String) : Option Bytes :=
  (secret.filter fun secret => !secret.isEmpty).map asBytes

/-- How far a request has come. -/
inductive HttpStage where
  | arrived
  -- `authenticate` has found no such API key.
  | unknownKey (credential : String)
  -- `next.run`
  | passed (tenant : TenantId)
  -- `401 Unauthorized`
  | unauthorized (reason : String)
  deriving DecidableEq, Repr

/-- A request: its `Authorization` header, and the tool call in its body. -/
structure HttpRequest (J : Type) where
  authorization : Option Bytes
  call : ToolCall J
  stage : HttpStage

/-- The server behind its two transports. -/
structure Front (J : Type) where
  pool : ServerPool J
  requests : List (HttpRequest J)

/-- What can happen next. -/
inductive FrontAction (J : Type) where
  -- A call over the local connection.
  | stdio (call : ToolCall J)
  | request (authorization : Option Bytes) (call : ToolCall J)
  -- The next step of `require_tenant`.
  | door (request : Nat)
  -- A step of a call that has begun, or of the clocks.
  | inside (act : ServerAction J)

/-- A call that no transport has brought in. -/
def ServerAction.begins : ServerAction J → Bool
  | .call _ _ => true
  | _ => false

/-- A request at its next stage. -/
def Front.moveTo (front : Front J) (i : Nat) (request : HttpRequest J) (stage : HttpStage) : Front J :=
  { front with requests := front.requests.set i { request with stage } }

/-- Hand a request on, with the tenant in its extensions. -/
def Front.pass (services : Services) (front : Front J) (i : Nat) (request : HttpRequest J)
    (tenant : TenantId) : Option (Front J) :=
  (front.pool.step services (.call (some tenant) request.call)).map fun pool =>
    { front.moveTo i request (.passed tenant) with pool }

/-- The next step of `require_tenant`. -/
def Front.requireTenant (services : Services) (jwt : Jwt) (secret : Option String) (front : Front J) (i : Nat)
    (request : HttpRequest J) : Option (Front J) :=
  match request.stage with
  | .arrived =>
    match bearerCredential services request.authorization with
    | none => some (front.moveTo i request (.unauthorized "missing or malformed Authorization header"))
    | some credential =>
      match front.pool.shared.apiKeys.keys.lookup (hashKey services.sha256 credential) with
      | some tenant => front.pass services i request tenant
      | none => some (front.moveTo i request (.unknownKey credential))
  | .unknownKey credential =>
    match (jwtKey secret).bind (verifyJwt jwt front.pool.shared.wallClock credential) with
    | some tenant => front.pass services i request tenant
    | none => some (front.moveTo i request (.unauthorized "credential did not resolve to a known tenant"))
  | .passed _ | .unauthorized _ => none

/-- One step of the server and its transports. -/
def Front.step (services : Services) (jwt : Jwt) (secret : Option String) (front : Front J) :
    FrontAction J → Option (Front J)
  | .stdio call => (front.pool.step services (.call none call)).map fun pool => { front with pool }
  | .request authorization call =>
    some { front with requests := front.requests ++ [⟨authorization, call, .arrived⟩] }
  | .door i => (front.requests[i]?).bind (front.requireTenant services jwt secret i)
  | .inside act =>
    if act.begins then none else (front.pool.step services act).map fun pool => { front with pool }

/-- A server that has just been started, before any call. -/
def Front.start (server : Server J) : Front J :=
  ⟨⟨server, []⟩, []⟩

end Qaas
