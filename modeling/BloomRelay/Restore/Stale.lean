import BloomRelay.Restore.Service

/-!
# Operations on a database below its witness

A process that goes on running after its database was restored meets a revision below the witness.
`Refusable` says, from the request and the state it meets, when an operation is then refused with the
database as it was. Every other operation writes first and compares afterwards.
-/

namespace BloomRelay.Restore

open Store Protocol

/-- The operations that can advance the fence, and the two that record an attempt of a job. -/
def fenced : StoreOp → Bool
  | .createBootstrapChallenge .. | .consumeBootstrapChallenge .. | .pruneBootstrap ..
  | .pruneNonces .. | .consumeNonce .. | .markChallengeReconciled .. | .renewTunnel .. => false
  | _ => true

def ServiceOp.fenced : ServiceOp → Bool
  | .single op => Restore.fenced op
  | .expirePendingAllocations _ | .expireChallengeValues _ => true

/-- The recorded operation is this very credential request. -/
def repeatsReceipt (existing : Operation) (installationId : Uuid) (kind : OperationKind)
    (requestDigest : Bytes32) : Prop :=
  existing.installationId = installationId ∧ existing.kind = kind ∧
    existing.requestDigest = requestDigest ∧ existing.result.receipt?.isSome = true

/-- The transaction is one that has nothing to write: a request that is already recorded, or whose
outcome is already there. -/
def WritesNothing (sha256 : Bytes → Bytes32) (now : Time) (db : Db) : StoreOp → Prop
  | .allocate operationId key placement _ _ =>
    placementOk placement = true ∧ ∃ o i, db.operations.find? operationId = some o ∧
      db.installations.find? o.installationId = some i ∧
      i.adminPublicKey = key ∧ i.placement = placement
  | .issueBearer id operationId scope tokenHash validity =>
    (60 ≤ validity ∧ validity ≤ 86400) ∧ ∃ s existing, BearerScope.parse? scope = some s ∧
      db.operations.find? operationId = some existing ∧
      repeatsReceipt existing id (.issue s) (issueDigest sha256 s validity tokenHash)
  | .renewBearer id operationId scope generation token newTokenHash =>
    bearerLengthOk token = true ∧ ∃ s existing, BearerScope.parse? scope = some s ∧
      db.operations.find? operationId = some existing ∧ now < existing.createdAt + minutes 5 ∧
      repeatsReceipt existing id (.renew s)
        (renewDigest sha256 s generation (sha256 (utf8 token)) newTokenHash)
  | .markDnsReady id =>
    ∀ i, db.installations.find? id = some i → ¬ (i.state = .pendingDns ∧ i.acmeAccountUri ≠ none)
  | .ensureChallengeValue id generation txt =>
    validateChallengeValue txt = .ok () ∧
      (∃ i, db.installations.find? id = some i ∧ i.state = .dnsReady) ∧
      challengeCredentialCurrent db now id generation = true ∧
      (db.challengeState.find? id).isSome = true ∧
      ∃ v, db.challengeValues.find? (id, txt) = some v ∧ v.expiresAt = now + challengeLifetime
  | .expireChallengeValuesOf id =>
    ∀ v ∈ db.challengeValues.rows, v.installationId = id → now < v.expiresAt
  | .retire id operationId =>
    ∃ existing, db.operations.find? operationId = some existing ∧
      existing.installationId = id ∧ existing.kind = .retire
  | .relocate id operationId placement =>
    placementOk placement = true ∧ ∃ existing, db.operations.find? operationId = some existing ∧
      existing.installationId = id ∧ existing.kind = .relocate ∧
      existing.requestDigest = relocationDigest sha256 id placement
  | .ensureCtSource source =>
    validateSource source = .ok () ∧ (db.ctFeedCheckpoints.find? source).isSome = true
  | .markCtAlertDelivered id =>
    ∀ a ∈ db.ctAlerts.rows, a.id = id → a.deliveredAt ≠ none
  | .queueCtLagAlert source =>
    validateSource source = .ok () ∧
      ∀ c, db.ctFeedCheckpoints.find? source = some c → c.observedAt + minutes 15 < now →
        (db.ctHealthAlerts.find? (source, (now + seconds 450) / seconds 900)).isSome = true
  | .markCtLagAlertDelivered id =>
    ∀ a ∈ db.ctHealthAlerts.rows, a.id = id → a.deliveredAt ≠ none
  | .observeCt source position hostname fingerprint =>
    validateHostname hostname = .ok () ∧ validateFingerprint fingerprint = .ok () ∧
      validateSource source = .ok () ∧ 0 < position ∧ position < 2 ^ 63 ∧
      ∃ c previous, db.ctFeedCheckpoints.find? source = some c ∧ position ≤ c.position ∧
        db.ctObservations.find? (source, position) = some previous ∧
        previous.hostname = hostname ∧ previous.fingerprint = fingerprint
  -- an account, a claim, a certificate, a healthy feed and an expired allocation are always written
  | _ => False

/-- The request is refused below the witness: the cache of the process does not hide the witness, and
the operation checks before it writes or has nothing to write. -/
def Refusable (p : Setup) (r : Request) (s : Service) : Prop :=
  skipsRemote p.remote s.db.restoreRevision s.witnesses = false ∧
  match r.operation with
  | .single op => verifiesFirst op = true ∨ WritesNothing p.sha256 r.now s.db op
  | .expirePendingAllocations _ | .expireChallengeValues _ => False

/-- The operation returned a witness error and left the database exactly as it was. -/
def RefusedUnchanged (p : Setup) (r : Request) (s : Service) : Prop :=
  (∃ msg, (r.run p s).1 = .error (.witness msg)) ∧ (r.run p s).2.db = s.db

/-- One request after another. -/
def ServiceStep (p : Setup) (s : Service) (r : Request) (s' : Service) : Prop := s' = (r.run p s).2

end BloomRelay.Restore
