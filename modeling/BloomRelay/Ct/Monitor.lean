import BloomRelay.Store.Ops
import Mathlib.Logic.Function.Basic

/-!
# CT workers on one database (`bloom-relay-store`, `ct.rs`; `bloom-relay-ct`)

`observe_ct` in the steps other transactions can come in between: the lock on the checkpoint of the
source, the lookup of the owner, the lookup in the owner's inventory, and the commit. From the lock to
the end of the transaction no other `observe_ct` of the source gets past its own lock, so the open
transactions are kept by source. A tick of a worker is a sequence of such transactions and of other
calls, followed by the delivery of what is pending: the list is read once, and each alert on it is
posted and then marked. Workers may crash at any point.
-/

namespace BloomRelay.Ct

open Protocol Store Checked

/-- An entry of a CT feed. -/
structure CtEntry where
  position : Nat
  hostname : String
  keyFingerprint : String
  deriving DecidableEq

/-- The position of a source, 0 for one without a checkpoint: `observe_ct` inserts that one first. -/
def ctPosition (db : Db) (source : String) : Nat :=
  ((db.ctFeedCheckpoints.find? source).map (·.position)).getD 0

/-- `observe_ct` up to its lock and what it reads under it: an answer ends the call, nothing written. -/
def observeStart (db : Db) (source : String) (entry : CtEntry) : Except StoreError (Option Bool) := do
  require (validateHostname entry.hostname = .ok ()) .invalidRequest
  validateFingerprint entry.keyFingerprint
  validateSource source
  require (0 < entry.position ∧ entry.position < 2 ^ 63) .invalidRequest
  if entry.position ≤ ctPosition db source then do
    let previous ← found (db.ctObservations.find? (source, entry.position)) .conflict
    require (previous.hostname = entry.hostname ∧ previous.fingerprint = entry.keyFingerprint)
      .conflict
    .ok (some previous.expected)
  else do
    require (entry.position = ctPosition db source + 1) .conflict
    .ok none

/-- The alert of an unexpected issuance, for the owner that was looked up. -/
def raiseAlertFor (db : Db) (now : Time) (source : String) (entry : CtEntry) (owner : Option Uuid) :
    Except StoreError Db := do
  let db ← db.insertAlert ⟨db.ctAlerts.rows.length + 1, source, entry.position, owner,
    entry.hostname, entry.keyFingerprint, now, none⟩
  match owner with
  | none => .ok db
  | some id => .ok (db.audit now id none .unexpectedCt)

/-- What `observe_ct` writes once the owner and the verdict are known, its checkpoint included. -/
def recordVerdict (db : Db) (now : Time) (source : String) (entry : CtEntry) (owner : Option Uuid)
    (expected : Bool) : Except StoreError Db := do
  let db ← (db.ensureCheckpoint now source).insertObservation
    ⟨source, entry.position, owner, entry.hostname, entry.keyFingerprint, now, expected⟩
  let db ← (if expected then .ok db else raiseAlertFor db now source entry owner)
  .ok (db.modifyCheckpoint source
    (fun c => { c with position := entry.position, observedAt := now }) (fun _ => rfl))

/-- A call of `observe_ct` with the start time of its transaction. -/
structure ObserveTx where
  now : Time
  source : String
  entry : CtEntry
  deriving DecidableEq

/-- How far an open transaction has come. -/
inductive Stage where
  /-- The checkpoint is locked, and the entry is the next one. -/
  | locked
  /-- The hostname has an owner, whose inventory is to be looked up. -/
  | owned (id : Uuid)
  /-- The verdict is known. -/
  | decided (owner : Option Uuid) (expected : Bool)
  deriving DecidableEq

/-- What a worker is doing about the issuance alerts of its source. -/
inductive Delivery where
  | idle
  /-- The alerts that are still to be posted, of the list read from the database. -/
  | posting (alerts : List CtAlert)
  /-- The sink has answered 202 for `alert`, which is to be marked. -/
  | accepted (alert : CtAlert) (rest : List CtAlert)
  deriving DecidableEq

structure Monitor where
  db : Db
  /-- The transaction that has locked the checkpoint of a source. -/
  txs : String → Option (ObserveTx × Stage)
  workers : Nat → Delivery

inductive MonitorAction where
  /-- Any call but the two that are taken apart here. -/
  | call (call : Call)
  /-- A call of `observe_ct` gets its lock. -/
  | start (tx : ObserveTx)
  | lookupOwner (source : String)
  | lookupInventory (source : String)
  | commit (source : String)
  /-- The transaction is rolled back: an error of the database, or its client has crashed. -/
  | rollback (source : String)
  /-- `pending_ct_alerts` of worker `w`. -/
  | list (w : Nat) (source : String)
  /-- `post_alert` of worker `w`, which ends the tick unless the sink answers 202. -/
  | post (w : Nat) (status : Nat)
  /-- `mark_ct_alert_delivered` of worker `w`. -/
  | mark (w : Nat) (now : Time)
  | crash (w : Nat)

namespace Monitor

def start : Monitor := ⟨Db.migrated, fun _ => none, fun _ => .idle⟩

def setTx (s : Monitor) (source : String) (tx : Option (ObserveTx × Stage)) : Monitor :=
  { s with txs := Function.update s.txs source tx }

def setWorker (s : Monitor) (w : Nat) (d : Delivery) : Monitor :=
  { s with workers := Function.update s.workers w d }

/-- The two calls whose steps are actions of their own. -/
def isStaged : StoreOp → Bool
  | .observeCt _ _ _ _ | .markCtAlertDelivered _ => true
  | _ => false

/-- The database after a commit, which fails if a counter is out of range. -/
def committed (db : Db) : Except StoreError Db → Db
  | .ok db' => if db'.inRange then db' else db
  | .error _ => db

section Sha256

variable (sha256 : Bytes → Bytes32)

def step (s : Monitor) : MonitorAction → Option Monitor
  | .call call => if isStaged call.op then none else some { s with db := call.after sha256 s.db }
  | .start tx =>
    match s.txs tx.source with
    | some _ => none
    | none =>
      match observeStart s.db tx.source tx.entry with
      | .ok none => some (s.setTx tx.source (some (tx, .locked)))
      | _ => some s
  | .lookupOwner source =>
    match s.txs source with
    | some (tx, .locked) =>
      match ownerOf s.db tx.entry.hostname with
      | none => some (s.setTx source (some (tx, .decided none false)))
      | some id => some (s.setTx source (some (tx, .owned id)))
    | _ => none
  | .lookupInventory source =>
    match s.txs source with
    | some (tx, .owned id) =>
      let expected := (s.db.certificateInventory.find? (id, tx.entry.keyFingerprint)).isSome
      some (s.setTx source (some (tx, .decided (some id) expected)))
    | _ => none
  | .commit source =>
    match s.txs source with
    | some (tx, .decided owner expected) =>
      some { s.setTx source none with
        db := committed s.db (recordVerdict s.db tx.now tx.source tx.entry owner expected) }
    | _ => none
  | .rollback source => some (s.setTx source none)
  | .list w source =>
    match s.workers w with
    | .idle => some (s.setWorker w (.posting (pendingCtAlerts s.db source 100)))
    | _ => none
  | .post w status =>
    match s.workers w with
    | .posting (alert :: rest) =>
      some (s.setWorker w (if status = 202 then .accepted alert rest else .idle))
    | _ => none
  | .mark w now =>
    match s.workers w with
    | .accepted alert rest =>
      some { s.setWorker w (.posting rest) with
        db := committed s.db (.ok (markCtAlertDelivered s.db now alert.id)) }
    | _ => none
  | .crash w => some (s.setWorker w .idle)

def Step (s : Monitor) (a : MonitorAction) (s' : Monitor) : Prop := s.step sha256 a = some s'

/-- The runs of the workers and of everything else on the migrated database. -/
abbrev Runs : List (Event Monitor MonitorAction) → Monitor → Prop := Run (Step sha256) start

end Sha256

end Monitor

end BloomRelay.Ct
