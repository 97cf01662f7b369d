import BloomRelay.Lib.Table
import BloomRelay.Lib.Checked
import BloomRelay.Protocol.Basic

/-!
# The database (`migrations/`)

One structure per table and the database as a record of tables. Primary keys are carried by `Table`;
`installations.hostname` has a second uniqueness constraint, which `allocate` checks. Timestamps are
microseconds since the epoch. Columns no modelled function reads (`ct_alerts.acknowledged_at`,
`restore_fence.updated_at`) are left out, and so are the tables `scoped_credentials` and
`challenge_leases`, which no statement of the crates uses any more.

The restore fence is a counter. Its triggers are deferred to the end of the transaction and fire once
for every inserted row of `security_audit` and for every inserted or updated row of
`ct_feed_checkpoints`, `ct_alerts` and `ct_health_alerts`; a transaction is one step here, so each
statement that writes such a row advances the counter (`Db.audit`, `Db.advanceFence`).
-/

namespace BloomRelay.Store

open Protocol Checked

/-- A timestamp, in microseconds. -/
abbrev Time := Nat

/-- An interval of whole seconds. -/
def seconds (n : Nat) : Nat := n * 1000000
/-- An interval of whole minutes. -/
def minutes (n : Nat) : Nat := seconds (60 * n)
/-- An interval of whole hours. -/
def hours (n : Nat) : Nat := minutes (60 * n)

/-- `(extract(epoch FROM t)*1000)::bigint`: milliseconds, rounded to the nearest. -/
def epochMs (t : Time) : Nat := (t + 500) / 1000

/-- `TEXT` takes every string without NUL characters. -/
def textOk (text : String) : Bool := text.toList.all fun c => c.toNat ≠ 0

/-- A `BIGINT` of milliseconds as a `double precision`. Above 2^53 every second integer is one, and odd
ones are rounded to the multiple of four; above 2^54 they get sparser, but no timestamp is there. -/
def doubleOfMs (ms : Int) : Int :=
  if ms % 2 = 0 ∨ (-2 ^ 53 ≤ ms ∧ ms ≤ 2 ^ 53) then ms
  else if ms % 4 = 1 then ms - 1 else ms + 1

/-- The range of `to_timestamp(ms::double precision/1000.0)`: from 4714-11-24 BC to the end of 294276. -/
def timestampOk (ms : Int) : Bool :=
  -210866803200000 ≤ doubleOfMs ms && doubleOfMs ms < 9224318016000000

/-- `StoreError`; the text of a witness failure is kept. What the database refuses to bind or to convert,
and a constraint that is violated, come as `unavailable` too: every `sqlx::Error` does. -/
inductive StoreError where
  | unavailable
  | migration
  | conflict
  | invalidRequest
  | unauthorized
  | witness (message : String)
  deriving DecidableEq

/-- The scopes of a bearer credential. -/
inductive BearerScope where
  | tunnel
  | dnsChallenge
  deriving DecidableEq

def BearerScope.asStr : BearerScope → String
  | .tunnel => "tunnel"
  | .dnsChallenge => "dns_challenge"

/-- The scope a caller names, when it is one of the two. -/
def BearerScope.parse? (s : String) : Option BearerScope :=
  if s = "tunnel" then some .tunnel
  else if s = "dns_challenge" then some .dnsChallenge
  else none

/-- An address a bootstrap request comes from. -/
inductive IpAddr where
  | v4 (bits : BitVec 32)
  | v6 (bits : BitVec 128)
  deriving DecidableEq

/-! ## Rows -/

structure Installation where
  installationId : Uuid
  hostname : String
  adminPublicKey : Bytes32
  placement : String
  generation : Nat
  state : AllocationState
  acmeAccountUri : Option String
  createdAt : Time
  retiredAt : Option Time
  deriving DecidableEq

structure HostnameReservation where
  hostname : String
  installationId : Uuid
  reservedAt : Time
  deriving DecidableEq

/-- The `kind` of a recorded operation: `allocate`, `issue:scope`, `renew:scope`, `retire` or
`relocate`. -/
inductive OperationKind where
  | allocate
  | issue (scope : BearerScope)
  | renew (scope : BearerScope)
  | retire
  | relocate
  deriving DecidableEq

/-- The JSON `result` of a recorded operation. -/
inductive OperationResult where
  | allocation (a : Allocation)
  | receipt (generation expiresAtMs : Nat)
  | empty
  deriving DecidableEq

structure Operation where
  operationId : Uuid
  installationId : Uuid
  kind : OperationKind
  requestDigest : Bytes32
  result : OperationResult
  createdAt : Time
  deriving DecidableEq

structure UsedNonce where
  installationId : Uuid
  nonce : String
  expiresAt : Time
  deriving DecidableEq

structure BootstrapChallenge where
  nonce : String
  sourceIp : IpAddr
  expiresAt : Time
  createdAt : Time
  consumedAt : Option Time
  deriving DecidableEq

/-- A row of `scoped_bearer_credentials`. -/
structure Credential where
  installationId : Uuid
  scope : BearerScope
  generation : Nat
  tokenHash : Bytes32
  expiresAt : Time
  revokedAt : Option Time
  deriving DecidableEq

structure TunnelLease where
  installationId : Uuid
  generation : Nat
  gatewayId : String
  expiresAt : Time
  deriving DecidableEq

structure ChallengeValue where
  installationId : Uuid
  txtValue : String
  expiresAt : Time
  createdAt : Time
  deriving DecidableEq

structure ChallengeState where
  installationId : Uuid
  revision : Nat
  readyRevision : Option Nat
  deriving DecidableEq

/-- A row of `certificate_inventory`; the bounds are the signed numbers bound to the statement,
before their conversion to timestamps. -/
structure Certificate where
  installationId : Uuid
  fingerprint : String
  lineage : String
  notBeforeMs : Int
  notAfterMs : Int
  deriving DecidableEq

/-- The `kind` of an outbox job. -/
inductive JobKind where
  | publishName
  | removeRecords
  | reconcileTxt
  | removeTxtAll
  deriving DecidableEq

structure OutboxRow where
  id : Nat
  installationId : Uuid
  kind : JobKind
  payload : List (String × String)
  attempts : Nat
  nextAttemptAt : Time
  completedAt : Option Time
  deriving DecidableEq

/-- The `event` of an audit row. -/
inductive AuditEvent where
  | allocated
  | credentialRotated
  | credentialRenewed
  | credentialRenewedAfterExpiry
  | acmeAccountBound
  | dnsReady
  | challengeValueAdded
  | challengeValueExpired
  | tunnelClaimed
  | pendingAllocationExpired
  | retired
  | placementMoved
  | certificateExpected
  | unexpectedCt
  deriving DecidableEq

structure AuditRow where
  installationId : Uuid
  operationId : Option Uuid
  event : AuditEvent
  createdAt : Time
  deriving DecidableEq

structure CtFeedCheckpoint where
  source : String
  position : Nat
  observedAt : Time
  deriving DecidableEq

structure CtObservation where
  source : String
  position : Nat
  installationId : Option Uuid
  hostname : String
  fingerprint : String
  observedAt : Time
  expected : Bool
  deriving DecidableEq

structure CtAlert where
  id : Nat
  source : String
  position : Nat
  installationId : Option Uuid
  hostname : String
  fingerprint : String
  createdAt : Time
  deliveredAt : Option Time
  deriving DecidableEq

structure CtHealthAlert where
  id : Nat
  source : String
  timeWindow : Nat
  lagSeconds : Nat
  createdAt : Time
  deliveredAt : Option Time
  deriving DecidableEq

/-- The primary key of `used_nonces`. -/
abbrev UsedNonce.key (r : UsedNonce) : Uuid × String := (r.installationId, r.nonce)
/-- The primary key of `scoped_bearer_credentials`. -/
abbrev Credential.key (r : Credential) : Uuid × BearerScope × Nat :=
  (r.installationId, r.scope, r.generation)
/-- The primary key of `challenge_values`. -/
abbrev ChallengeValue.key (r : ChallengeValue) : Uuid × String := (r.installationId, r.txtValue)
/-- The primary key of `certificate_inventory`. -/
abbrev Certificate.key (r : Certificate) : Uuid × String := (r.installationId, r.fingerprint)
/-- The primary key of `ct_observations`. -/
abbrev CtObservation.key (r : CtObservation) : String × Nat := (r.source, r.position)
/-- The `UNIQUE (source, position)` of `ct_alerts`. -/
abbrev CtAlert.key (r : CtAlert) : String × Nat := (r.source, r.position)
/-- The `UNIQUE (source, time_window)` of `ct_health_alerts`. -/
abbrev CtHealthAlert.key (r : CtHealthAlert) : String × Nat := (r.source, r.timeWindow)

/-! ## The database -/

structure Db where
  installations : Table Installation Installation.installationId
  hostnameReservations : Table HostnameReservation HostnameReservation.hostname
  operations : Table Operation Operation.operationId
  usedNonces : Table UsedNonce UsedNonce.key
  bootstrapChallenges : Table BootstrapChallenge BootstrapChallenge.nonce
  credentials : Table Credential Credential.key
  tunnelLeases : Table TunnelLease TunnelLease.installationId
  challengeValues : Table ChallengeValue ChallengeValue.key
  challengeState : Table ChallengeState ChallengeState.installationId
  certificateInventory : Table Certificate Certificate.key
  outbox : List OutboxRow
  securityAudit : List AuditRow
  restoreFence : Nat
  ctFeedCheckpoints : Table CtFeedCheckpoint CtFeedCheckpoint.source
  ctObservations : Table CtObservation CtObservation.key
  ctAlerts : Table CtAlert CtAlert.key
  ctHealthAlerts : Table CtHealthAlert CtHealthAlert.key
  deriving DecidableEq

namespace Db

/-- The database the migrations create. -/
def migrated : Db where
  installations := .empty
  hostnameReservations := .empty
  operations := .empty
  usedNonces := .empty
  bootstrapChallenges := .empty
  credentials := .empty
  tunnelLeases := .empty
  challengeValues := .empty
  challengeState := .empty
  certificateInventory := .empty
  outbox := []
  securityAudit := []
  restoreFence := 1
  ctFeedCheckpoints := .empty
  ctObservations := .empty
  ctAlerts := .empty
  ctHealthAlerts := .empty

/-- `advance_restore_fence()`. -/
def advanceFence (db : Db) : Db := { db with restoreFence := db.restoreFence + 1 }

/-- `INSERT INTO security_audit`, with its trigger. -/
def audit (db : Db) (now : Time) (installationId : Uuid) (operationId : Option Uuid)
    (event : AuditEvent) : Db :=
  { db with
    securityAudit := db.securityAudit ++ [⟨installationId, operationId, event, now⟩]
    restoreFence := db.restoreFence + 1 }

/-- `INSERT INTO outbox`; the identity column numbers the rows in commit order. -/
def enqueue (db : Db) (now : Time) (installationId : Uuid) (kind : JobKind)
    (payload : List (String × String)) : Db :=
  { db with
    outbox := db.outbox ++ [⟨db.outbox.length + 1, installationId, kind, payload, 0, now, none⟩] }

/-- `INSERT INTO operations`. -/
def insertOperation (db : Db) (operation : Operation) : Except StoreError Db := do
  let operations ← found (db.operations.insert? operation) .unavailable
  .ok { db with operations }

/-- `INSERT INTO installations`; the hostname is unique. -/
def insertInstallation (db : Db) (installation : Installation) : Except StoreError Db := do
  require (∀ i ∈ db.installations.rows, i.hostname ≠ installation.hostname) .unavailable
  let installations ← found (db.installations.insert? installation) .unavailable
  .ok { db with installations }

/-- `INSERT INTO hostname_reservations`. -/
def insertReservation (db : Db) (reservation : HostnameReservation) : Except StoreError Db := do
  let hostnameReservations ← found (db.hostnameReservations.insert? reservation) .unavailable
  .ok { db with hostnameReservations }

/-- `INSERT INTO scoped_bearer_credentials`. -/
def insertCredential (db : Db) (credential : Credential) : Except StoreError Db := do
  let credentials ← found (db.credentials.insert? credential) .unavailable
  .ok { db with credentials }

/-- `INSERT INTO challenge_values`. -/
def insertChallengeValue (db : Db) (value : ChallengeValue) : Except StoreError Db := do
  let challengeValues ← found (db.challengeValues.insert? value) .unavailable
  .ok { db with challengeValues }

/-- `INSERT INTO ct_observations`. -/
def insertObservation (db : Db) (observation : CtObservation) : Except StoreError Db := do
  let ctObservations ← found (db.ctObservations.insert? observation) .unavailable
  .ok { db with ctObservations }

/-- `INSERT INTO ct_alerts`, with its trigger. -/
def insertAlert (db : Db) (alert : CtAlert) : Except StoreError Db := do
  let ctAlerts ← found (db.ctAlerts.insert? alert) .unavailable
  .ok { db with ctAlerts }.advanceFence

/-- `UPDATE installations SET … WHERE installation_id=$1`. -/
def modifyInstallation (db : Db) (id : Uuid) (f : Installation → Installation)
    (hf : ∀ i, (f i).installationId = i.installationId) : Db :=
  { db with installations := db.installations.modify id f hf }

/-- `UPDATE installations SET … WHERE installation_id=$1 AND … RETURNING …`. -/
def updateInstallation (db : Db) (id : Uuid) (p : Installation → Bool)
    (f : Installation → Installation) (hf : ∀ i, (f i).installationId = i.installationId) :
    Option (Installation × Db) :=
  match db.installations.find? id with
  | none => none
  | some i => if p i then some (f i, db.modifyInstallation id f hf) else none

/-- `SELECT revision FROM restore_fence`. -/
def restoreRevision (db : Db) : Nat := db.restoreFence

/-- `NOT EXISTS(SELECT 1 FROM installations) AND NOT EXISTS(SELECT 1 FROM ct_feed_checkpoints)`. -/
def restorePristine (db : Db) : Bool :=
  db.installations.rows.isEmpty && db.ctFeedCheckpoints.rows.isEmpty

/-- The `BIGINT` and `INTEGER` counters the statements increment are in range. A statement that takes
one of them out of range fails, and its transaction with it. -/
def inRange (db : Db) : Bool :=
  db.restoreFence < 2 ^ 63 &&
  db.installations.rows.all (fun i => i.generation < 2 ^ 63) &&
  db.challengeState.rows.all (fun s => s.revision < 2 ^ 63) &&
  db.outbox.all (fun o => o.attempts < 2 ^ 31)

end Db

end BloomRelay.Store
