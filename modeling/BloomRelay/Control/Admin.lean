import BloomRelay.Protocol.Auth
import BloomRelay.Store.Ops
import Mathlib.Logic.Function.Basic

/-!
# Signed admin requests (`bloom-relay-control`)

The four endpoints that `authorize_admin` guards, as a machine: a request is a program counter, and
an action is one store call, the signature check, or a step of the surroundings (time passes, a holder
of a key signs claims, any other store call). Who submits a request is left open, so every request of
an adversary is one.

The clock counts microseconds since the epoch and is shared with the database; the time of a store
call is the start of its transaction.
-/

namespace BloomRelay.Control

open Protocol Store Checked

/-! ## Answers -/

/-- `ErrorCode`. -/
inductive ErrorCode where
  | invalidRequest
  | unauthorized
  | conflict
  | expiredOrReplayed
  | quotaExceeded
  | dependencyUnavailable
  | internal
  | incompatibleVersion
  deriving DecidableEq

/-- `ApiError`: status, code and whether the client may retry. -/
structure ApiError where
  status : Nat
  code : ErrorCode
  retryable : Bool
  deriving DecidableEq

def unauthorized : ApiError := ⟨401, .unauthorized, false⟩
def unavailable : ApiError := ⟨503, .dependencyUnavailable, true⟩
def invalid : ApiError := ⟨400, .invalidRequest, false⟩
def conflict : ApiError := ⟨409, .conflict, false⟩
def expiredOrReplayed : ApiError := ⟨410, .expiredOrReplayed, false⟩

/-! ## Requests -/

/-- The bodies of the four endpoints. -/
inductive AdminBody where
  /-- `CredentialIssueRequest`. -/
  | issue (scope : Scope) (tokenSha256 : String) (validitySeconds : Nat)
  /-- `AcmeAccountRequest`. -/
  | acme (accountUri : String)
  /-- `InstallationStatusRequest`. -/
  | status (installationId : Uuid)
  /-- `RetireRequest`. -/
  | retire (installationId : Uuid)
  deriving DecidableEq

abbrev AdminRequest := SignedRequest AdminBody

/-- The action an endpoint requires. -/
def AdminBody.action : AdminBody → Action
  | .issue _ _ _ => .issueCredential
  | .acme _ => .registerAcmeAccount
  | .status _ => .installationStatus
  | .retire _ => .retireInstallation

/-- What an endpoint checks before `authorize_admin`. -/
def precheck (q : AdminRequest) : Except ApiError Unit :=
  match q.body with
  | .issue scope _ _ => require (scope = .tunnel ∨ scope = .dnsChallenge) invalid
  | .acme _ => .ok ()
  | .status id | .retire id => require (id = q.claims.installationId) unauthorized

/-- What the API is started with; `jcsBody` is `serde_jcs::to_vec` of a body. -/
structure AdminConfig where
  crypto : Crypto
  jcsBody : AdminBody → Option Bytes
  store : StoreConfig
  audience : String

/-- `now_ms`. -/
def nowMs (clock : Time) : Nat := clock / 1000

/-- `authorize_admin` from the key it read to the nonce. -/
def checkSignature (cfg : AdminConfig) (q : AdminRequest) (key : Bytes32) (clock : Time) :
    Except ApiError Unit := do
  require (cfg.crypto.verifyingKey key = true) unavailable
  let body ← found (cfg.jcsBody q.body) invalid
  match q.claims.verify cfg.crypto body q.signature key .surfaceAdmin q.body.action cfg.audience
      (nowMs clock) with
  | .ok () => .ok ()
  | .error _ => .error unauthorized

/-- `u32 as i32`. -/
def i32OfU32 (n : Nat) : Int := if n < 2 ^ 31 then n else n - 2 ^ 32

/-- What an authorized request does: it reads the status of an installation, or makes a store call. -/
def adminOp (q : AdminRequest) : Except ApiError (Uuid ⊕ StoreOp) :=
  match q.body with
  | .issue scope tokenSha256 validitySeconds => do
    let bytes ← found (hexDecode tokenSha256.toList) invalid
    let hash ← found (bytes32? bytes) invalid
    .ok (.inr (.issueBearer q.claims.installationId q.claims.operationId
      (if scope = .tunnel then "tunnel" else "dns_challenge") hash (i32OfU32 validitySeconds)))
  | .acme accountUri => .ok (.inr (.registerAcmeAccount q.claims.installationId accountUri))
  | .status id => .ok (.inl id)
  | .retire id => .ok (.inr (.retire id q.claims.operationId))

/-- The answer to a store error. -/
def adminError (body : AdminBody) (e : StoreError) : ApiError :=
  match body, e with
  | .acme _, .invalidRequest => invalid
  | .acme _, .conflict | .retire _, .conflict => conflict
  | _, _ => unavailable

/-- The status of a success. -/
def AdminBody.okStatus : AdminBody → Nat
  | .issue _ _ _ | .status _ => 200
  | .acme _ | .retire _ => 202

/-! ## The machine -/

/-- Where a request is: what it does next. -/
inductive AdminPc where
  | lookup (q : AdminRequest)
  | verify (q : AdminRequest) (key : Bytes32)
  /-- The signature was checked at time `checked`. -/
  | nonce (q : AdminRequest) (checked : Time)
  | perform (q : AdminRequest)
  | done (answer : Except ApiError Nat)
  deriving DecidableEq

structure Api where
  db : Db
  clock : Time
  /-- What the holders of keys have signed. -/
  signed : List (Bytes32 × AuthClaims)
  requests : Nat → Option AdminPc

def Api.setRequest (g : Api) (r : Nat) (pc : AdminPc) : Api :=
  { g with requests := Function.update g.requests r (some pc) }

inductive AdminAction where
  /-- Time passes. -/
  | tick (elapsed : Nat)
  /-- The holder of a key signs claims. -/
  | sign (key : Bytes32) (claims : AuthClaims)
  /-- A store call that is not part of an admin request. -/
  | store (call : Call)
  | arrives (r : Nat) (q : AdminRequest)
  | lookup (r : Nat)
  | verify (r : Nat)
  | nonce (r : Nat) (now : Time)
  | perform (r : Nat) (now : Time)
  /-- The store is not available, or the request is dropped. -/
  | fail (r : Nat)

/-- Only `authorize_admin` consumes nonces. -/
def consumesNonce : StoreOp → Bool
  | .consumeNonce _ _ => true
  | _ => false

section Step

variable (cfg : AdminConfig)

def nonceCall (now : Time) (q : AdminRequest) : Call :=
  ⟨cfg.store, now, .consumeNonce q.claims.installationId q.claims.nonce⟩

/-- The database and the answer after the operation of a request. -/
def performRequest (db : Db) (now : Time) (q : AdminRequest) : Db × Except ApiError Nat :=
  match adminOp q with
  | .error e => (db, .error e)
  | .ok (.inl id) =>
    (db, if (allocationStatus db id).isSome then .ok q.body.okStatus else .error unauthorized)
  | .ok (.inr op) =>
    match (⟨cfg.store, now, op⟩ : Call).exec cfg.crypto.sha256 db with
    | .ok (_, db') => (db', .ok q.body.okStatus)
    | .error e => (db, .error (adminError q.body e))

/-- What an action does; none if it is not possible. -/
def Api.step (g : Api) : AdminAction → Option Api
  | .tick elapsed => some { g with clock := g.clock + elapsed }
  | .sign key claims => some { g with signed := (key, claims) :: g.signed }
  | .store call =>
    if call.now ≤ g.clock ∧ consumesNonce call.op = false then
      some { g with db := call.after cfg.crypto.sha256 g.db }
    else none
  | .arrives r q =>
    if (g.requests r).isNone then
      match precheck q with
      | .ok () => some (g.setRequest r (.lookup q))
      | .error e => some (g.setRequest r (.done (.error e)))
    else none
  | .lookup r =>
    match g.requests r with
    | some (.lookup q) =>
      match adminPublicKey g.db q.claims.installationId with
      | none => some (g.setRequest r (.done (.error unauthorized)))
      | some key => some (g.setRequest r (.verify q key))
    | _ => none
  | .verify r =>
    match g.requests r with
    | some (.verify q key) =>
      match checkSignature cfg q key g.clock with
      | .ok () => some (g.setRequest r (.nonce q g.clock))
      | .error e => some (g.setRequest r (.done (.error e)))
    | _ => none
  | .nonce r now =>
    match g.requests r with
    | some (.nonce q checked) =>
      if checked ≤ now ∧ now ≤ g.clock then
        match (nonceCall cfg now q).exec cfg.crypto.sha256 g.db with
        | .ok (.flag true, db) => some ({ g with db := db }.setRequest r (.perform q))
        | .ok (_, _) => some (g.setRequest r (.done (.error expiredOrReplayed)))
        | .error _ => some (g.setRequest r (.done (.error unavailable)))
      else none
    | _ => none
  | .perform r now =>
    match g.requests r with
    | some (.perform q) =>
      if now ≤ g.clock then
        let (db, answer) := performRequest cfg g.db now q
        some ({ g with db := db }.setRequest r (.done answer))
      else none
    | _ => none
  | .fail r =>
    match g.requests r with
    | some (.done _) | none => none
    | some _ => some (g.setRequest r (.done (.error unavailable)))

/-- An action as a step. -/
def AdminStep (g : Api) (a : AdminAction) (g' : Api) : Prop := g.step cfg a = some g'

/-- The API when it starts; `signed` was signed before. -/
def Api.start (db : Db) (clock : Time) (signed : List (Bytes32 × AuthClaims)) : Api where
  db := db
  clock := clock
  signed := signed
  requests := fun _ => none

end Step

end BloomRelay.Control
