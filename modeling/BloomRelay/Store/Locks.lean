import BloomRelay.Store.Ops
import BloomRelay.Lib.Locks

/-!
# The locks of the transactions

The locks every transaction of `Store` takes, in the order of its statements: the row locks of its
`SELECT … FOR`, `UPDATE` and `DELETE` statements, the keys of the rows it inserts, the share locks of
its foreign-key checks, its advisory lock, and last the row of `restore_fence`, which the deferred
triggers update at commit. A transaction that finds no row, or refuses the request, ends before the
rest of its script.

A DNS worker keeps the locks of its claim, the job's row and the installation's advisory lock, while it
runs `mark_dns_ready` and `mark_challenge_reconciled` in transactions of their own, and then records
the attempt in the claim's transaction.

The rows of `bootstrap_challenges`, `used_nonces`, `certificate_inventory`, `ct_observations` and the
two alert tables are left out.
-/

namespace BloomRelay.Store

open Protocol

/-- What a transaction locks: a row or the key of a row it inserts, or an advisory key. -/
inductive Lock where
  | outbox (id : Nat)
  | advisory (key : Int)
  | checkpoint (source : String)
  | installation (id : Uuid)
  | credential (id : Uuid) (scope : BearerScope) (generation : Nat)
  | lease (id : Uuid)
  | challengeState (id : Uuid)
  | challengeValue (id : Uuid) (txtValue : String)
  | operation (id : Uuid)
  | restoreFence
  deriving DecidableEq

/-- The modes of row locks. A deleted row, an inserted key and an advisory lock are locked for
update, a row updated in other columns than its keys for no key update. -/
inductive LockMode where
  | keyShare
  | share
  | noKeyUpdate
  | update

/-- PostgreSQL's table of conflicting row locks. -/
def LockMode.conflicts : LockMode → LockMode → Bool
  | .keyShare, .update => true
  | .keyShare, _ => false
  | .share, .noKeyUpdate | .share, .update => true
  | .share, _ => false
  | .noKeyUpdate, .keyShare => false
  | .noKeyUpdate, _ => true
  | .update, _ => true

/-- The order in which the transactions take their locks. -/
@[simp] def Lock.rank : Lock → Nat
  | .outbox _ => 0
  | .advisory _ => 1
  | .checkpoint _ => 2
  | .installation _ => 3
  | .credential _ _ _ => 4
  | .challengeValue _ _ => 4
  | .lease _ => 5
  | .challengeState _ => 6
  | .operation _ => 7
  | .restoreFence => 8

/-- Credentials and challenge values are locked only with their installation. -/
@[simp] def Lock.guard : Lock → Option Lock
  | .credential id _ _ => some (.installation id)
  | .challengeValue id _ => some (.installation id)
  | .outbox _ | .advisory _ | .checkpoint _ | .installation _ | .lease _ | .challengeState _
  | .operation _ | .restoreFence => none

def lockOrder : Locks.Discipline Lock LockMode where
  conflict m m' := m.conflicts m' = true
  conflict_symm m m' h := by
    cases m <;> cases m' <;> first | rfl | cases h
  rank := Lock.rank
  guard := Lock.guard
  guards m := m = .noKeyUpdate ∨ m = .update
  guards_conflict := by
    rintro m m' (rfl | rfl) (rfl | rfl) <;> rfl

instance : DecidableRel lockOrder.conflict := fun m m' =>
  inferInstanceAs (Decidable (m.conflicts m' = true))

/-! ## Statements -/

abbrev LockItem := Locks.Item Lock LockMode

abbrev LockScript := Locks.Script Lock LockMode

/-- `SELECT … FOR UPDATE`, by primary key. -/
@[simp] def Lock.forUpdate (l : Lock) : LockItem := .take ⟨l, .update⟩

/-- `UPDATE`, by primary key. -/
@[simp] def Lock.forNoKeyUpdate (l : Lock) : LockItem := .take ⟨l, .noKeyUpdate⟩

/-- `INSERT`: the key of the new row. -/
@[simp] def Lock.inserted (l : Lock) : LockItem := .take ⟨l, .update⟩

/-- `INSERT … ON CONFLICT DO NOTHING`, which locks nothing where the row exists. -/
@[simp] def Lock.insertedNew (l : Lock) : LockItem := .mayTake ⟨l, .update⟩

/-- `DELETE`, by primary key, where the row may be missing. -/
@[simp] def Lock.deleted (l : Lock) : LockItem := .mayTake ⟨l, .update⟩

/-- The check of a foreign key. -/
@[simp] def Lock.referenced (l : Lock) : LockItem := .take ⟨l, .keyShare⟩

/-- Rows of `scoped_bearer_credentials` of one installation. -/
def credentialRows (id : Uuid) (mode : LockMode) : LockItem :=
  .takeRows fun q => q.mode = mode ∧ ∃ scope generation, q.resource = .credential id scope generation

/-- Rows of `challenge_values` of one installation. -/
def valueRows (id : Uuid) (mode : LockMode) : LockItem :=
  .takeRows fun q => q.mode = mode ∧ ∃ txtValue, q.resource = .challengeValue id txtValue

/-- `INSERT INTO security_audit`; its trigger is deferred. -/
@[simp] def auditLocks (id : Uuid) : LockItem := Lock.referenced (.installation id)

/-- `INSERT INTO outbox`. -/
@[simp] def enqueueLocks (id : Uuid) : LockItem := Lock.referenced (.installation id)

/-- `advance_restore_fence()`, at commit. -/
@[simp] def fenceLocks : LockItem := Lock.forNoKeyUpdate .restoreFence

/-- `INSERT INTO scoped_bearer_credentials`. -/
@[simp] def insertCredentialLocks (id : Uuid) : LockScript :=
  [credentialRows id .update, Lock.referenced (.installation id)]

/-- `INSERT INTO operations`. -/
@[simp] def insertOperationLocks (id operationId : Uuid) : LockScript :=
  [Lock.inserted (.operation operationId), Lock.referenced (.installation id)]

/-- A rotated tunnel bearer takes the lease with it. -/
def rotationLocks (scope : String) (id : Uuid) : LockScript :=
  if scope = "tunnel" then [Lock.deleted (.lease id)] else []

/-- `challenge_set_changed`, where the row of the state may be missing. -/
@[simp] def challengeSetChangedLocks (id : Uuid) : LockScript :=
  [.mayTake ⟨.challengeState id, .noKeyUpdate⟩, enqueueLocks id, auditLocks id]

/-- The insert and the update of a CT checkpoint around the checks of an observation. -/
@[simp] def observationLocks (source : String) (references : LockScript) : LockScript :=
  [Lock.insertedNew (.checkpoint source), Lock.forUpdate (.checkpoint source),
    Lock.referenced (.checkpoint source)] ++ references ++
    [Lock.forNoKeyUpdate (.checkpoint source), fenceLocks]

/-! ## Transactions -/

section Hashtext

variable (hashtext : String → Int) (uuidText : Uuid → String)

/-- `pg_advisory_xact_lock(hashtext($1))` of an installation. -/
@[simp] def installationLock (id : Uuid) : LockItem := Lock.forUpdate (.advisory (hashtext (uuidText id)))

/-- A DNS worker: `claim_job`, the transactions it runs meanwhile, and the end of the attempt. -/
def claimLocks (job : Nat) (id : Uuid) (during : List LockScript) : LockScript :=
  [.takeFree ⟨.outbox job, .update⟩, installationLock hashtext uuidText id, .keep] ++
    during.flatMap (· ++ [.commit]) ++ [.resume, Lock.forNoKeyUpdate (.outbox job)]

/-- The scripts of a transaction: one for each way its statements can go on. The installation `owner`
is one that the transaction looks up: that of a recorded operation, of a hostname or of a job. -/
def StoreOp.locks (owner : Uuid) : StoreOp → List LockScript
  | .createBootstrapChallenge _ _ =>
    [[Lock.forUpdate (.advisory (hashtext "bloom-relay/bootstrap-quota"))]]
  | .consumeBootstrapChallenge _ _ => [[]]
  | .pruneBootstrap _ => [[]]
  | .pruneNonces _ => [[]]
  | .consumeNonce id _ => [[Lock.referenced (.installation id)]]
  | .issueBearer id operationId scope _ _ =>
    [[Lock.forUpdate (.operation operationId)],
      [Lock.forNoKeyUpdate (.installation id), credentialRows id .noKeyUpdate] ++
        insertCredentialLocks id ++ rotationLocks scope id ++
        insertOperationLocks id operationId ++ [auditLocks id, fenceLocks]]
  | .renewBearer id operationId scope _ _ _ =>
    [[Lock.forUpdate (.operation operationId)],
      [Lock.forUpdate (.installation id), credentialRows id .update,
        Lock.forNoKeyUpdate (.installation id), credentialRows id .noKeyUpdate] ++
        insertCredentialLocks id ++ rotationLocks scope id ++
        insertOperationLocks id operationId ++ [auditLocks id, fenceLocks]]
  | .registerAcmeAccount id _ =>
    [[Lock.forNoKeyUpdate (.installation id), enqueueLocks id, auditLocks id, fenceLocks]]
  | .markDnsReady id => [[Lock.forNoKeyUpdate (.installation id), auditLocks id, fenceLocks]]
  | .ensureChallengeValue id _ _ =>
    [[Lock.forUpdate (.installation id), credentialRows id .share,
      Lock.insertedNew (.challengeState id), Lock.referenced (.installation id),
      valueRows id .noKeyUpdate, valueRows id .update, valueRows id .update,
      Lock.referenced (.installation id)] ++ challengeSetChangedLocks id ++ [fenceLocks]]
  | .markChallengeReconciled id _ => [[Lock.forNoKeyUpdate (.challengeState id)]]
  | .allocate operationId _ _ id _ =>
    [[Lock.forUpdate (.installation owner)],
      [Lock.inserted (.installation id), Lock.referenced (.installation id)] ++
        insertOperationLocks id operationId ++ [enqueueLocks id, auditLocks id, fenceLocks]]
  | .claimTunnel id _ _ =>
    [[Lock.forNoKeyUpdate (.installation id), Lock.forNoKeyUpdate (.lease id),
      Lock.referenced (.installation id), auditLocks id, fenceLocks]]
  | .renewTunnel id _ _ => [[Lock.forNoKeyUpdate (.lease id)]]
  | .expirePendingAllocation id =>
    [[installationLock hashtext uuidText id, Lock.forNoKeyUpdate (.installation id),
      enqueueLocks id, enqueueLocks id, auditLocks id, fenceLocks]]
  | .expireChallengeValuesOf id =>
    [[Lock.forUpdate (.installation id), valueRows id .update] ++ challengeSetChangedLocks id ++
      [fenceLocks]]
  | .retire id operationId =>
    [[installationLock hashtext uuidText id, Lock.forUpdate (.operation operationId)],
      -- The installation was retired before.
      [installationLock hashtext uuidText id, Lock.forUpdate (.installation id)] ++
        insertOperationLocks id operationId,
      [installationLock hashtext uuidText id, Lock.forUpdate (.installation id),
        Lock.forNoKeyUpdate (.installation id), Lock.deleted (.lease id), enqueueLocks id,
        enqueueLocks id, valueRows id .update, auditLocks id] ++
        insertOperationLocks id operationId ++ [fenceLocks]]
  | .relocate id operationId _ =>
    [[installationLock hashtext uuidText id, Lock.forUpdate (.operation operationId)],
      [installationLock hashtext uuidText id, Lock.forUpdate (.installation id),
        Lock.forNoKeyUpdate (.installation id), Lock.deleted (.lease id), enqueueLocks id,
        auditLocks id] ++ insertOperationLocks id operationId ++ [fenceLocks]]
  | .completeJob job => [claimLocks hashtext uuidText job owner []]
  | .deferJob job => [claimLocks hashtext uuidText job owner []]
  | .ensureCtSource source => [[Lock.insertedNew (.checkpoint source), fenceLocks]]
  | .markCtFeedHealthy source _ => [[Lock.forNoKeyUpdate (.checkpoint source), fenceLocks]]
  | .markCtAlertDelivered _ => [[fenceLocks]]
  | .queueCtLagAlert source => [[Lock.referenced (.checkpoint source), fenceLocks]]
  | .markCtLagAlertDelivered _ => [[fenceLocks]]
  | .recordExpectedCertificate id _ =>
    [[Lock.forUpdate (.installation id), Lock.referenced (.installation id), auditLocks id,
      fenceLocks]]
  | .observeCt source _ _ _ =>
    -- The hostname is unknown, its certificate is expected, or it is not.
    [observationLocks source [],
      observationLocks source [Lock.referenced (.installation owner)],
      observationLocks source [Lock.referenced (.installation owner),
        Lock.referenced (.installation owner), auditLocks owner]]

/-- The transactions a worker runs while it has a claim on a job of the installation. -/
inductive DuringClaim (id : Uuid) : StoreOp → Prop where
  | markDnsReady : DuringClaim id (.markDnsReady id)
  | markChallengeReconciled (revision : Nat) : DuringClaim id (.markChallengeReconciled id revision)

/-- What the agents of the database run: transactions, and workers. A transaction that a worker runs
may also stop early. -/
inductive LockProgram : LockScript → Prop where
  | transaction (owner : Uuid) (op : StoreOp) {script : LockScript}
      (h : script ∈ op.locks hashtext uuidText owner) : LockProgram script
  | worker (job : Nat) (id : Uuid) (during : List LockScript)
      (h : ∀ script ∈ during, ∃ op, DuringClaim id op ∧
        ∃ full ∈ op.locks hashtext uuidText id, script <+: full) :
      LockProgram (claimLocks hashtext uuidText job id during)

end Hashtext

end BloomRelay.Store
