import BloomRelay.Store.Ops
import Mathlib.Logic.Function.Basic

/-!
# Calls that overlap (`bloom-relay-store`)

A call with an operation ID looks the ID up first and takes the locks of its writes after that, so that
other transactions may commit in between. Here such a call is two steps: `StoreOp.lookup`, up to the
answer of the lookup, and `StoreOp.body`, from the first lock to the commit. The second step of a call
that has lost a race fails at the primary key of `operations` at the latest, and its transaction leaves
nothing behind. `now` is the start of the transaction in both.
-/

namespace BloomRelay.Store

open Protocol Checked

section Sha256

variable (sha256 : Bytes → Bytes32)

/-- A recorded operation is answered by its replay. -/
def recordedReply {ρ : Type} (recorded : Option ρ) (replay : ρ → Except StoreError Reply) :
    Except StoreError (Option Reply) :=
  match recorded with
  | some existing => (replay existing).map some
  | none => .ok none

/-- The checks of the arguments and the lookup of the operation ID: an answer ends the call. -/
def StoreOp.lookup (now : Time) (db : Db) : StoreOp → Except StoreError (Option Reply)
  | .issueBearer installationId operationId scope tokenHash validitySeconds => do
    let scope ← issueScope scope validitySeconds
    recordedReply (db.operations.find? operationId) fun existing => do
      let receipt ← issueReplay sha256 existing installationId scope tokenHash validitySeconds
      .ok (.receipt receipt.1 receipt.2)
  | .renewBearer installationId operationId scope generation currentToken newTokenHash => do
    let scope ← renewScope scope currentToken
    recordedReply (db.operations.find? operationId) fun existing => do
      let receipt ← renewReplay sha256 existing now installationId scope generation currentToken
        newTokenHash
      .ok (.receipt receipt.1 receipt.2)
  | .allocate operationId adminPublicKey placement _ _ => do
    require (placementOk placement = true) .invalidRequest
    recordedReply (db.allocated? operationId) fun i => do
      let allocation ← allocateReplay i adminPublicKey placement
      .ok (.allocation allocation)
  | .retire installationId operationId =>
    recordedReply (db.operations.find? operationId) fun existing => do
      retireReplay existing installationId
      .ok .unit
  | .relocate installationId operationId placement => do
    require (placementOk placement = true) .invalidRequest
    recordedReply (db.operations.find? operationId) fun existing => do
      relocateReplay sha256 existing installationId placement
      .ok .unit
  | _ => .ok none

/-- What follows a lookup that has found nothing, up to the commit. -/
def StoreOp.body (store : StoreConfig) (now : Time) (db : Db) :
    StoreOp → Except StoreError (Reply × Db)
  | .issueBearer installationId operationId scope tokenHash validitySeconds =>
    answer (fun r => .receipt r.1 r.2) do
      let scope ← found (BearerScope.parse? scope) .invalidRequest
      issueBearerTx sha256 store db now installationId operationId scope tokenHash validitySeconds
  | .renewBearer installationId operationId scope generation currentToken newTokenHash =>
    answer (fun r => .receipt r.1 r.2) do
      let scope ← found (BearerScope.parse? scope) .invalidRequest
      renewBearerTx sha256 store db now installationId operationId scope generation currentToken
        newTokenHash
  | .allocate operationId adminPublicKey placement id random =>
    answer .allocation (allocateTx db now operationId adminPublicKey placement id random)
  | .retire installationId operationId =>
    answer (fun _ => .unit) (retireTx sha256 db now installationId operationId)
  | .relocate installationId operationId placement =>
    answer (fun _ => .unit) (relocateTx sha256 db now installationId operationId placement)
  | op => op.transact sha256 store now db

/-- The second step of a call with its commit. -/
def Call.commit (call : Call) (db : Db) : Except StoreError (Reply × Db) :=
  match call.op.body sha256 call.store call.now db with
  | .ok (reply, db') => if db'.inRange then .ok (reply, db') else .error .unavailable
  | .error e => .error e

/-- The database after the second step of a call. -/
def Call.committed (call : Call) (db : Db) : Db :=
  match call.commit sha256 db with
  | .ok (_, db') => db'
  | .error _ => db

end Sha256

/-- The database and the calls, by number, that are between their two steps. -/
structure Overlap where
  db : Db
  calls : Nat → Option Call

inductive OverlapAction where
  /-- A call that nothing comes in between. -/
  | call (call : Call)
  /-- Call `k` up to the answer of its lookup. -/
  | start (k : Nat) (call : Call)
  /-- Call `k` from its first lock to its commit. -/
  | finish (k : Nat)
  /-- Call `k` is abandoned, and its transaction rolled back. -/
  | abandon (k : Nat)

namespace Overlap

def start : Overlap := ⟨Db.migrated, fun _ => none⟩

def setCall (s : Overlap) (k : Nat) (call : Option Call) : Overlap :=
  { s with calls := Function.update s.calls k call }

section Sha256

variable (sha256 : Bytes → Bytes32)

def step (s : Overlap) : OverlapAction → Option Overlap
  | .call call => some { s with db := call.after sha256 s.db }
  | .start k call =>
    match s.calls k with
    | some _ => none
    | none =>
      match call.op.lookup sha256 call.now s.db with
      | .ok none => some (s.setCall k (some call))
      | _ => some s
  | .finish k =>
    match s.calls k with
    | some call => some ({ s with db := call.committed sha256 s.db }.setCall k none)
    | none => none
  | .abandon k => some (s.setCall k none)

/-- The call that an action is a step of. -/
def call? (s : Overlap) : OverlapAction → Option Call
  | .call call | .start _ call => some call
  | .finish k => s.calls k
  | .abandon _ => none

/-- The answer that an action gives to its call. -/
def answer? (s : Overlap) : OverlapAction → Option (Call × Except StoreError Reply)
  | .call call => some (call, (call.exec sha256 s.db).map Prod.fst)
  | .start _ call =>
    match call.op.lookup sha256 call.now s.db with
    | .ok none => none
    | .ok (some reply) => some (call, .ok reply)
    | .error e => some (call, .error e)
  | .finish k => (s.calls k).map fun call => (call, (call.commit sha256 s.db).map Prod.fst)
  | .abandon _ => none

end Sha256

end Overlap

section Sha256

variable (sha256 : Bytes → Bytes32)

/-- An action as a step. -/
def OverlapStep (s : Overlap) (a : OverlapAction) (s' : Overlap) : Prop := s.step sha256 a = some s'

/-- The runs of overlapping calls on the migrated database. -/
abbrev OverlapRun : List (Event Overlap OverlapAction) → Overlap → Prop :=
  Run (OverlapStep sha256) .start

end Sha256

end BloomRelay.Store
