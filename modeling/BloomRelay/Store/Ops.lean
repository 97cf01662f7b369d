import BloomRelay.Store.Challenges
import BloomRelay.Store.Bootstrap
import BloomRelay.Store.Ct
import BloomRelay.Lib.Run

/-!
# The transactions of the store

Every transaction a `Store` commits, with its arguments, and what it does to the database. A call
carries the configuration of the process that makes it and the start time of its transaction, so a
run of calls is any commit order with any timestamps. A call that fails, for whatever reason, leaves
the database as it was.

The two sweeps and the pruning commit several transactions; each of these is a call of its own here.
-/

namespace BloomRelay.Store

open Protocol

/-- A transaction of the store. The fresh UUID and the random bytes of an allocation are arguments. -/
inductive StoreOp where
  | createBootstrapChallenge (nonce : String) (source : IpAddr)
  | consumeBootstrapChallenge (nonce : String) (source : IpAddr)
  | pruneBootstrap (limit : Nat)
  | pruneNonces (limit : Nat)
  | consumeNonce (installationId : Uuid) (nonce : String)
  | issueBearer (installationId operationId : Uuid) (scope : String) (tokenHash : Bytes32)
      (validitySeconds : Int)
  | renewBearer (installationId operationId : Uuid) (scope : String) (generation : Nat)
      (currentToken : String) (newTokenHash : Bytes32)
  | registerAcmeAccount (installationId : Uuid) (accountUri : String)
  | markDnsReady (installationId : Uuid)
  | ensureChallengeValue (installationId : Uuid) (generation : Nat) (txtValue : String)
  | markChallengeReconciled (installationId : Uuid) (revision : Nat)
  | allocate (operationId : Uuid) (adminPublicKey : Bytes32) (placement : String) (id : Uuid)
      (random : BitVec 128)
  | claimTunnel (installationId : Uuid) (gatewayId : String) (ttlSeconds : Int)
  | renewTunnel (installationId : Uuid) (gatewayId : String) (generation : Nat)
  | expirePendingAllocation (id : Uuid)
  | expireChallengeValuesOf (installationId : Uuid)
  | retire (installationId operationId : Uuid)
  | relocate (installationId operationId : Uuid) (placement : String)
  | completeJob (id : Nat)
  | deferJob (id : Nat)
  | ensureCtSource (source : String)
  | markCtFeedHealthy (source : String) (position : Nat)
  | markCtAlertDelivered (id : Nat)
  | queueCtLagAlert (source : String)
  | markCtLagAlertDelivered (id : Nat)
  | recordExpectedCertificate (installationId : Uuid) (certificate : CertificateMetadata)
  | observeCt (source : String) (position : Nat) (hostname fingerprint : String)

/-- What a call answers. -/
inductive Reply where
  | unit
  | flag (b : Bool)
  | count (n : Nat)
  | generation (g : Nat)
  | receipt (generation expiresAtMs : Nat)
  | challenge (revision expiresAtMs : Nat)
  | allocation (a : Allocation)
  deriving DecidableEq

/-- A call: the process's configuration, the transaction's start time and the transaction. -/
structure Call where
  store : StoreConfig
  now : Time
  op : StoreOp

/-- The answer of a transaction as a `Reply`. -/
def answer {α : Type} (f : α → Reply) (r : Except StoreError (α × Db)) :
    Except StoreError (Reply × Db) :=
  match r with
  | .ok (a, db) => .ok (f a, db)
  | .error e => .error e

section Sha256

variable (sha256 : Bytes → Bytes32)

/-- A transaction up to its commit. -/
def StoreOp.transact (store : StoreConfig) (now : Time) (db : Db) :
    StoreOp → Except StoreError (Reply × Db)
  | .createBootstrapChallenge nonce source =>
    answer .flag (Store.createBootstrapChallenge db now nonce source)
  | .consumeBootstrapChallenge nonce source =>
    answer .flag (.ok (Store.consumeBootstrapChallenge db now nonce source))
  | .pruneBootstrap limit => answer .count (.ok (Store.pruneBootstrap db now limit))
  | .pruneNonces limit => answer .count (.ok (Store.pruneNonces db now limit))
  | .consumeNonce installationId nonce =>
    answer .flag (Store.consumeNonce db now installationId nonce)
  | .issueBearer installationId operationId scope tokenHash validitySeconds =>
    answer (fun r => .receipt r.1 r.2) (Store.issueBearer sha256 store db now installationId
      operationId scope tokenHash validitySeconds)
  | .renewBearer installationId operationId scope generation currentToken newTokenHash =>
    answer (fun r => .receipt r.1 r.2) (Store.renewBearer sha256 store db now installationId
      operationId scope generation currentToken newTokenHash)
  | .registerAcmeAccount installationId accountUri =>
    answer (fun _ => .unit) (Store.registerAcmeAccount store db now installationId accountUri)
  | .markDnsReady installationId =>
    answer (fun _ => .unit) (Store.markDnsReady db now installationId)
  | .ensureChallengeValue installationId generation txtValue =>
    answer (fun r => .challenge r.1 r.2)
      (Store.ensureChallengeValue db now installationId generation txtValue)
  | .markChallengeReconciled installationId revision =>
    answer .flag (.ok (Store.markChallengeReconciled db installationId revision))
  | .allocate operationId adminPublicKey placement id random =>
    answer .allocation (Store.allocate db now operationId adminPublicKey placement id random)
  | .claimTunnel installationId gatewayId ttlSeconds =>
    answer .generation (Store.claimTunnel db now installationId gatewayId ttlSeconds)
  | .renewTunnel installationId gatewayId generation =>
    answer .flag (.ok (Store.renewTunnel db now installationId gatewayId generation))
  | .expirePendingAllocation id => answer .flag (.ok (Store.expirePendingAllocation db now id))
  | .expireChallengeValuesOf installationId =>
    answer .flag (.ok (Store.expireChallengeValuesOf db now installationId))
  | .retire installationId operationId =>
    answer (fun _ => .unit) (Store.retire sha256 db now installationId operationId)
  | .relocate installationId operationId placement =>
    answer (fun _ => .unit) (Store.relocate sha256 db now installationId operationId placement)
  | .completeJob id => .ok (.unit, Store.completeJob db now id)
  | .deferJob id => .ok (.unit, Store.deferJob db now id)
  | .ensureCtSource source => answer (fun _ => .unit) (Store.ensureCtSource db now source)
  | .markCtFeedHealthy source position =>
    answer (fun _ => .unit) (Store.markCtFeedHealthy db now source position)
  | .markCtAlertDelivered id => .ok (.unit, Store.markCtAlertDelivered db now id)
  | .queueCtLagAlert source => answer (fun _ => .unit) (Store.queueCtLagAlert db now source)
  | .markCtLagAlertDelivered id => .ok (.unit, Store.markCtLagAlertDelivered db now id)
  | .recordExpectedCertificate installationId certificate =>
    answer (fun _ => .unit) (Store.recordExpectedCertificate db now installationId certificate)
  | .observeCt source position hostname fingerprint =>
    answer .flag (Store.observeCt db now source position hostname fingerprint)

/-- A call with its commit: a counter out of range fails the transaction. -/
def Call.exec (call : Call) (db : Db) : Except StoreError (Reply × Db) :=
  match call.op.transact sha256 call.store call.now db with
  | .ok (reply, db') => if db'.inRange then .ok (reply, db') else .error .unavailable
  | .error e => .error e

/-- The database after a call. -/
def Call.after (call : Call) (db : Db) : Db :=
  match call.exec sha256 db with
  | .ok (_, db') => db'
  | .error _ => db

/-- One committed or refused call. -/
def StoreStep (db : Db) (call : Call) (db' : Db) : Prop := db' = call.after sha256 db

/-- The runs of the store on the migrated database. -/
abbrev StoreRun : List (Event Db Call) → Db → Prop := Run (StoreStep sha256) Db.migrated

/-- The run that makes the given calls, the latest first: its steps and the database it reaches. -/
def runOf : List Call → List (Event Db Call) × Db
  | [] => ([], Db.migrated)
  | call :: earlier =>
    let (tr, db) := runOf earlier
    (⟨db, call, call.after sha256 db⟩ :: tr, call.after sha256 db)

theorem storeRun_runOf (calls : List Call) :
    StoreRun sha256 (runOf sha256 calls).1 (runOf sha256 calls).2 := by
  induction calls with
  | nil => exact .refl
  | cons call earlier ih => exact ih.snoc rfl

end Sha256

end BloomRelay.Store
