import BloomRelay.Control.Admin

/-!
# The handlers of the control API (`bloom-relay-control`)

A handler checks and authenticates its request, makes one store call and answers with what the call
returned. The part from the call on is a `Serving`: the call, the answer to a result and the answer to
an error, each handler with its own. The four admin endpoints share `authorize_admin`, which is a
machine in `Admin.lean`; what they do once authorized is `adminOp` there.
-/

namespace BloomRelay.Control

open Protocol Store Checked

/-! ## Requests -/

/-- `AllocateRequest`. -/
structure AllocateRequest where
  adminPublicKey : String
  bootstrapNonce : String
  operationId : Uuid
  deriving DecidableEq

/-- `CredentialRenewRequest`. -/
structure CredentialRenewRequest where
  version : Nat
  installationId : Uuid
  scope : Scope
  generation : Nat
  operationId : Uuid
  nonce : String
  expiresAtMs : Nat
  newTokenSha256 : String
  deriving DecidableEq

/-- `DnsChallengeEnsureRequest`. -/
structure DnsChallengeEnsureRequest where
  version : Nat
  installationId : Uuid
  txtValue : String
  deriving DecidableEq

/-- What the handlers are started with. -/
structure ApiConfig extends AdminConfig where
  /-- `serde_jcs::to_vec` of an enrollment. -/
  jcsAllocate : AllocateRequest → Option Bytes
  /-- `URL_SAFE_NO_PAD.decode` to 32 bytes. -/
  decodeKey : String → Option Bytes32
  placement : String

/-! ## Store calls -/

/-- The store call of a handler: a transaction, or one of the two reads. -/
inductive StoreCall where
  | transaction (op : StoreOp)
  | allocationStatus (installationId : Uuid)
  | challengeValueReady (installationId : Uuid) (value : String) (revision : Nat)

def StoreCall.run (sha256 : Bytes → Bytes32) (store : StoreConfig) (now : Time) (db : Db) :
    StoreCall → Except StoreError Reply
  | .transaction op => ((⟨store, now, op⟩ : Call).exec sha256 db).map Prod.fst
  | .allocationStatus installationId =>
    .ok (.flag (Store.allocationStatus db installationId).isSome)
  | .challengeValueReady installationId value revision =>
    (Store.challengeValueReady db now installationId value revision).map Reply.flag

/-- A handler from its store call on. -/
structure Serving where
  call : StoreCall
  /-- The status it answers a result with. -/
  onOk : Reply → Except ApiError Nat
  /-- The argument of its `map_err`. -/
  onError : StoreError → ApiError
  /-- Whether the answer is signed, for which the signer has to be up. -/
  signs : Bool

/-- The answer to what the store call returned. -/
def Serving.answer (serving : Serving) (signerUp : Bool) (outcome : Except StoreError Reply) :
    Except ApiError Nat :=
  match outcome with
  | .error e => .error (serving.onError e)
  | .ok reply =>
    match serving.onOk reply with
    | .error e => .error e
    | .ok status => if serving.signs && !signerUp then .error unavailable else .ok status

/-! ## Enrollment -/

/-- `challenge`; the nonce is fresh. -/
def challenge (nonce : String) (source : IpAddr) : Serving where
  call := .transaction (.createBootstrapChallenge nonce source)
  onOk
    | .flag false => .error ⟨429, .quotaExceeded, true⟩
    | _ => .ok 200
  onError _ := unavailable
  signs := false

/-- What `enroll` checks before it consumes the bootstrap challenge. -/
def enrollCheck (cfg : ApiConfig) (q : SignedRequest AllocateRequest) (clock : Time) :
    Except ApiError Bytes32 := do
  let key ← found (cfg.decodeKey q.body.adminPublicKey) invalid
  require (cfg.crypto.verifyingKey key = true) invalid
  let body ← found (cfg.jcsAllocate q.body) invalid
  require (q.claims.installationId = 0 ∧ q.claims.operationId = q.body.operationId ∧
    q.claims.nonce = q.body.bootstrapNonce) unauthorized
  match q.claims.verify cfg.crypto body q.signature key .surfaceAdmin .enroll cfg.audience
      (nowMs clock) with
  | .ok () => .ok key
  | .error _ => .error unauthorized

/-- `enroll` once the bootstrap challenge is consumed; `id` and `random` are fresh. -/
def enroll (cfg : ApiConfig) (q : AllocateRequest) (key : Bytes32) (id : Uuid) (random : BitVec 128) :
    Serving where
  call := .transaction (.allocate q.operationId key cfg.placement id random)
  onOk _ := .ok 200
  onError
    | .conflict => conflict
    | _ => unavailable
  signs := true

/-! ## Admin requests -/

/-- The four admin endpoints once authorized. -/
def adminServing (q : AdminRequest) : Except ApiError Serving := do
  match ← adminOp q with
  | .inl id =>
    .ok { call := .allocationStatus id
          onOk := fun reply => if reply = .flag true then .ok q.body.okStatus else .error unauthorized
          onError := adminError q.body
          signs := false }
  | .inr op =>
    .ok { call := .transaction op, onOk := fun _ => .ok q.body.okStatus, onError := adminError q.body,
          signs := false }

/-! ## Bearer requests -/

/-- The bearer of an `Authorization` header. -/
def bearerOf (authorization : Option String) : Option String :=
  authorization.bind (stripPrefix? "Bearer ")

/-- `authenticate_dns`: the generation of the credential. -/
def authenticateDns (cfg : ApiConfig) (db : Db) (now : Time) (authorization : Option String)
    (installationId : Uuid) (generation : Option Nat) : Except ApiError Nat := do
  let bearer ← found (bearerOf authorization) unauthorized
  match authenticateBearerWithState cfg.crypto.sha256 db now installationId "dns_challenge" bearer with
  | some (observed, .dnsReady) => do
    require (∀ g ∈ generation, g = observed) unauthorized
    .ok observed
  -- The serving DNS of the installation is still being published.
  | some (_, .pendingDns) => .error ⟨409, .conflict, true⟩
  | _ => .error unauthorized

/-- `ensure_dns_challenge` once authenticated. -/
def ensureDnsChallenge (q : DnsChallengeEnsureRequest) (generation : Nat) : Serving where
  call := .transaction (.ensureChallengeValue q.installationId generation q.txtValue)
  onOk _ := .ok 200
  onError
    | .invalidRequest => invalid
    | .unauthorized => unauthorized
    -- "Not dns_ready, or two other values are live: retry after one lapses."
    | .conflict => ⟨409, .conflict, true⟩
    | _ => unavailable
  signs := false

/-- `dns_challenge_ready` once authenticated. -/
def dnsChallengeReady (installationId : Uuid) (revision : Nat) (value : String) : Serving where
  call := .challengeValueReady installationId value revision
  onOk reply := .ok (if reply = .flag true then 204 else 202)
  onError
    | .invalidRequest => invalid
    | _ => unavailable
  signs := false

/-- `record_certificate` once authenticated. -/
def recordCertificate (installationId : Uuid) (certificate : CertificateMetadata) : Serving where
  call := .transaction (.recordExpectedCertificate installationId certificate)
  onOk _ := .ok 202
  onError
    | .invalidRequest => invalid
    | .conflict => conflict
    | _ => unavailable
  signs := false

/-- `renew_credential`: the store checks the bearer. -/
def renewCredential (q : CredentialRenewRequest) (authorization : Option String) (clock : Time) :
    Except ApiError Serving := do
  require (q.version = wireVersion ∧ (q.scope = .tunnel ∨ q.scope = .dnsChallenge) ∧
    nowMs clock < q.expiresAtMs ∧ q.expiresAtMs ≤ latestExpiry (nowMs clock) ∧
    16 ≤ q.nonce.utf8ByteSize ∧ q.nonce.utf8ByteSize ≤ 128) invalid
  let bearer ← found (bearerOf authorization) unauthorized
  let bytes ← found (hexDecode q.newTokenSha256.toList) invalid
  let hash ← found (bytes32? bytes) invalid
  .ok { call := .transaction (.renewBearer q.installationId q.operationId
          (if q.scope = .tunnel then "tunnel" else "dns_challenge") q.generation bearer hash)
        onOk := fun _ => .ok 200
        onError := fun e =>
          match e with
          | .conflict => conflict
          | .unauthorized => unauthorized
          | _ => unavailable
        signs := false }

end BloomRelay.Control
