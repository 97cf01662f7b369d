import BloomRelay.Store.Schema

/-!
# Scoped bearer credentials (`bloom-relay-store`)

`authenticate_bearer`, `issue_bearer` and `renew_bearer`. A transaction is one function from the
database to the database after its commit; `now` is the transaction's start time, which need not
follow the commit order. SHA-256 is a parameter.

The part of `issue_bearer` and `renew_bearer` after the lookup of the operation ID is a definition of
its own: another transaction may commit between the two, and a transaction that then finds the
operation ID taken fails on the primary key of `operations` without an effect.
-/

namespace BloomRelay.Store

open Protocol Checked

/-- `CredentialWindows`, in whole seconds. -/
structure CredentialWindows where
  validity : Nat
  renewalGrace : Nat
  validity_min : 12 * 60 * 60 ≤ validity
  validity_max : validity ≤ 24 * 60 * 60
  renewalGrace_max : renewalGrace ≤ 90 * 24 * 60 * 60

namespace CredentialWindows

/-- The two durations are in nanoseconds. -/
def new (validity renewalGrace : Nat) : Except StoreError CredentialWindows :=
  if h : (12 * 60 * 60 ≤ validity / 1000000000 ∧ validity / 1000000000 ≤ 24 * 60 * 60) ∧
      renewalGrace / 1000000000 ≤ 90 * 24 * 60 * 60 ∧
      validity % 1000000000 = 0 ∧ renewalGrace % 1000000000 = 0 then
    .ok ⟨validity / 1000000000, renewalGrace / 1000000000, h.1.1, h.1.2, h.2.1⟩
  else .error .invalidRequest

/-- 24-hour bearers that may renew for 30 days after expiry. -/
def default : CredentialWindows :=
  ⟨24 * 60 * 60, 30 * 24 * 60 * 60, by decide, by decide, by decide⟩

end CredentialWindows

/-- The configuration of a `Store`; the connection pool is the `Db` the functions act on. -/
structure StoreConfig where
  acmeEnvironment : AcmeEnvironment
  credentialWindows : CredentialWindows

/-- `Store::connect`: production accounts and the default windows. -/
def StoreConfig.default : StoreConfig := ⟨.production, .default⟩

/-- A bearer token has a length a credential can have. -/
def bearerLengthOk (bearer : String) : Bool := 43 ≤ bearer.utf8ByteSize && bearer.utf8ByteSize ≤ 128

section Sha256

variable (sha256 : Bytes → Bytes32)

/-- The credential rows a bearer matches, whatever the state of the installation. -/
def matchingCredentials (db : Db) (now : Time) (installationId : Uuid) (scope : BearerScope)
    (bearer : String) : List Credential :=
  db.credentials.rows.filter fun c =>
    c.installationId = installationId ∧ c.scope = scope ∧ c.tokenHash = sha256 (utf8 bearer) ∧
      c.revokedAt = none ∧ now < c.expiresAt

/-- `ORDER BY c.generation DESC LIMIT 1`. -/
def newestGeneration (cs : List Credential) : Option Nat := (cs.map (·.generation)).max?

/-- The generation of the credential the bearer authenticates as. -/
def authenticateBearer (db : Db) (now : Time) (installationId : Uuid) (scope bearer : String) :
    Option Nat :=
  if ¬ bearerLengthOk bearer then none
  else match BearerScope.parse? scope with
    | none => none
    | some scope =>
      match db.installations.find? installationId with
      | none => none
      | some i =>
        if i.state = .dnsReady then
          newestGeneration (matchingCredentials sha256 db now installationId scope bearer)
        else none

/-- The generation of the credential and the state of its installation. -/
def authenticateBearerWithState (db : Db) (now : Time) (installationId : Uuid)
    (scope bearer : String) : Option (Nat × AllocationState) :=
  if ¬ bearerLengthOk bearer then none
  else match BearerScope.parse? scope with
    | none => none
    | some scope =>
      match db.installations.find? installationId with
      | none => none
      | some i =>
        (newestGeneration (matchingCredentials sha256 db now installationId scope bearer)).map
          fun g => (g, i.state)

/-- `result["generation"].as_u64()` and `result["expires_at_ms"].as_u64()` of a recorded result. -/
def OperationResult.receipt? : OperationResult → Option (Nat × Nat)
  | .receipt generation expiresAtMs => some (generation, expiresAtMs)
  | _ => none

def issueDigest (scope : BearerScope) (validitySeconds : Int) (tokenHash : Bytes32) : Bytes32 :=
  sha256 (utf8 "bloom-relay/issue-bearer/v1\x00" ++ utf8 scope.asStr ++
    beBytes 4 (BitVec.ofInt 32 validitySeconds) ++ beBytes 32 tokenHash)

def renewDigest (scope : BearerScope) (generation : Nat) (oldHash newTokenHash : Bytes32) :
    Bytes32 :=
  sha256 (utf8 "bloom-relay/renew-bearer/v1\x00" ++ utf8 scope.asStr ++
    beBytes 8 (BitVec.ofNat 64 generation) ++ beBytes 32 oldHash ++ beBytes 32 newTokenHash)

end Sha256

/-- `generation=generation+1`. -/
def Installation.bump (i : Installation) : Installation := { i with generation := i.generation + 1 }

@[simp] theorem Installation.bump_installationId (i : Installation) :
    i.bump.installationId = i.installationId := rfl

/-- `revoked_at=now()` for the rows of an installation and scope that `p` selects. -/
def Db.revoke (db : Db) (now : Time) (installationId : Uuid) (scope : BearerScope)
    (p : Credential → Bool) : Db :=
  { db with
    credentials := db.credentials.updateWhere
      (fun c => c.installationId = installationId ∧ c.scope = scope ∧ p c = true)
      (fun c => { c with revokedAt := some now }) (fun _ => rfl) }

/-- `DELETE FROM tunnel_leases WHERE installation_id=$1`. -/
def Db.dropLease (db : Db) (installationId : Uuid) : Db :=
  { db with tunnelLeases := db.tunnelLeases.erase installationId }

/-- The statements `issue_bearer` and `renew_bearer` end with: the new credential row, the lease of a
rotated tunnel credential dropped, the recorded operation and the audit row. -/
def Db.storeCredential (db : Db) (now : Time) (operationId : Uuid) (kind : OperationKind)
    (requestDigest : Bytes32) (credential : Credential) (auditOperation : Option Uuid)
    (event : AuditEvent) : Except StoreError ((Nat × Nat) × Db) := do
  let db ← db.insertCredential credential
  let db := if credential.scope = .tunnel then db.dropLease credential.installationId else db
  let receipt := (credential.generation, epochMs credential.expiresAt)
  let db ← db.insertOperation ⟨operationId, credential.installationId, kind, requestDigest,
    .receipt receipt.1 receipt.2, now⟩
  .ok (receipt, db.audit now credential.installationId auditOperation event)

section Rotation

variable (sha256 : Bytes → Bytes32)

/-- `issue_bearer` after its operation ID was not found. -/
def issueBearerTx (store : StoreConfig) (db : Db) (now : Time) (installationId operationId : Uuid)
    (scope : BearerScope) (tokenHash : Bytes32) (validitySeconds : Int) :
    Except StoreError ((Nat × Nat) × Db) := do
  let (row, db) ← found (db.updateInstallation installationId (fun i => i.state ≠ .retired)
    Installation.bump Installation.bump_installationId) .conflict
  let db := db.revoke now installationId scope (fun c => c.revokedAt = none)
  -- The administrator's requested lifetime, capped by the configured one.
  let lifetime := min validitySeconds.toNat store.credentialWindows.validity
  db.storeCredential now operationId (.issue scope)
    (issueDigest sha256 scope validitySeconds tokenHash)
    ⟨installationId, scope, row.generation, tokenHash, now + seconds lifetime, none⟩
    none .credentialRotated

/-- The answer to a repeated `issue_bearer` or `renew_bearer`: the recorded receipt, if the recorded
operation is the same request. -/
def replayReceipt (existing : Operation) (installationId : Uuid) (kind : OperationKind)
    (requestDigest : Bytes32) (fresh : Bool) : Except StoreError (Nat × Nat) := do
  require (existing.installationId = installationId ∧ existing.kind = kind ∧
    existing.requestDigest = requestDigest ∧ fresh = true) .conflict
  found existing.result.receipt? .invalidRequest

/-- The checks of the arguments of `issue_bearer`. -/
def issueScope (scope : String) (validitySeconds : Int) : Except StoreError BearerScope := do
  let scope ← found (BearerScope.parse? scope) .invalidRequest
  require (60 ≤ validitySeconds ∧ validitySeconds ≤ 86400) .invalidRequest
  .ok scope

def issueReplay (existing : Operation) (installationId : Uuid) (scope : BearerScope)
    (tokenHash : Bytes32) (validitySeconds : Int) : Except StoreError (Nat × Nat) :=
  replayReceipt existing installationId (.issue scope)
    (issueDigest sha256 scope validitySeconds tokenHash) true

def issueBearer (store : StoreConfig) (db : Db) (now : Time) (installationId operationId : Uuid)
    (scope : String) (tokenHash : Bytes32) (validitySeconds : Int) :
    Except StoreError ((Nat × Nat) × Db) := do
  let scope ← issueScope scope validitySeconds
  match db.operations.find? operationId with
  | some existing =>
    let receipt ← issueReplay sha256 existing installationId scope tokenHash validitySeconds
    .ok (receipt, db)
  | none =>
    issueBearerTx sha256 store db now installationId operationId scope tokenHash validitySeconds

/-- The credential row a renewal starts from: unrevoked, within the grace after its expiry, the
newest of its scope, and its installation `dns_ready`. -/
def renewableCredential (store : StoreConfig) (db : Db) (now : Time) (installationId : Uuid)
    (scope : BearerScope) (generation : Nat) : Option Credential :=
  match db.installations.find? installationId with
  | none => none
  | some i =>
    (db.credentials.rows.find? fun c =>
      c.installationId = installationId ∧ c.scope = scope ∧
        (c.generation : Int) = i64OfU64 generation ∧ c.revokedAt = none ∧
        now < c.expiresAt + seconds store.credentialWindows.renewalGrace).filter fun c =>
      i.state = .dnsReady ∧ ¬ db.credentials.rows.any (fun n =>
        n.installationId = c.installationId ∧ n.scope = c.scope ∧ c.generation < n.generation)

/-- `renew_bearer` after its operation ID was not found. -/
def renewBearerTx (store : StoreConfig) (db : Db) (now : Time) (installationId operationId : Uuid)
    (scope : BearerScope) (generation : Nat) (currentToken : String) (newTokenHash : Bytes32) :
    Except StoreError ((Nat × Nat) × Db) := do
  let current ← found (renewableCredential store db now installationId scope generation)
    .unauthorized
  require (current.tokenHash = sha256 (utf8 currentToken)) .unauthorized
  let (row, db) ← found (db.updateInstallation installationId (fun _ => true) Installation.bump
    Installation.bump_installationId) .unavailable
  let db := db.revoke now installationId scope (fun c => (c.generation : Int) = i64OfU64 generation)
  db.storeCredential now operationId (.renew scope)
    (renewDigest sha256 scope generation (sha256 (utf8 currentToken)) newTokenHash)
    ⟨installationId, scope, row.generation, newTokenHash,
      now + seconds store.credentialWindows.validity, none⟩
    (some operationId)
    (if current.expiresAt ≤ now then .credentialRenewedAfterExpiry else .credentialRenewed)

/-- The checks of the arguments of `renew_bearer`. -/
def renewScope (scope currentToken : String) : Except StoreError BearerScope := do
  let scope ← found (BearerScope.parse? scope) .invalidRequest
  require (bearerLengthOk currentToken = true) .invalidRequest
  .ok scope

def renewReplay (existing : Operation) (now : Time) (installationId : Uuid) (scope : BearerScope)
    (generation : Nat) (currentToken : String) (newTokenHash : Bytes32) :
    Except StoreError (Nat × Nat) :=
  replayReceipt existing installationId (.renew scope)
    (renewDigest sha256 scope generation (sha256 (utf8 currentToken)) newTokenHash)
    (now < existing.createdAt + minutes 5)

def renewBearer (store : StoreConfig) (db : Db) (now : Time) (installationId operationId : Uuid)
    (scope : String) (generation : Nat) (currentToken : String) (newTokenHash : Bytes32) :
    Except StoreError ((Nat × Nat) × Db) := do
  let scope ← renewScope scope currentToken
  match db.operations.find? operationId with
  | some existing =>
    let receipt ← renewReplay sha256 existing now installationId scope generation currentToken
      newTokenHash
    .ok (receipt, db)
  | none =>
    renewBearerTx sha256 store db now installationId operationId scope generation currentToken
      newTokenHash

end Rotation

end BloomRelay.Store
