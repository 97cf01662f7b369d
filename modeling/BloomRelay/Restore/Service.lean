import BloomRelay.Restore.Machine
import BloomRelay.Store.Ops

/-!
# The store behind its witness (`bloom-relay-store`)

A store operation commits its transaction and then acknowledges: it runs `verify_and_advance` before
it answers. `ClaimedJob::complete` and `ClaimedJob::defer` do so before the write as well. First the
operations of one process that runs alone with its database, then any number of operations of a fleet
that run beside each other.
-/

namespace BloomRelay.Restore

open Store

/-- Whether the operation acknowledges before it answers `reply`. An exhausted quota and a pending
allocation that is none any more are answered at once; `prune_bootstrap_and_nonces` acknowledges after
its second statement. -/
def acknowledges : StoreOp → Reply → Bool
  | .createBootstrapChallenge .., reply | .expirePendingAllocation .., reply => reply = .flag true
  | .consumeBootstrapChallenge .., _ | .consumeNonce .., _ | .renewTunnel .., _ => false
  | .pruneBootstrap .., _ => false
  | _, _ => true

/-- Whether the operation calls `verify_integrity` before its write. -/
def verifiesFirst : StoreOp → Bool
  | .completeJob _ | .deferJob _ => true
  | _ => false

/-! ## One process alone -/

/-- What a running process works on. -/
structure Service where
  db : Db
  witnesses : Witnesses
  deriving DecidableEq

/-- What a process is started with: SHA-256, the tags the remote store gives, and whether there is a
remote store. -/
structure Setup where
  sha256 : Bytes → Bytes32
  etag : Bytes → String
  remote : Bool

namespace Setup

variable (p : Setup)

/-- `Store::acknowledge`, and `Store::verify_integrity`. -/
def acknowledge (s : Service) : Except StoreError Unit × Service :=
  match verifyAndAdvance p.etag p.remote s.db.restoreRevision s.db.restorePristine s.witnesses with
  | (.ok (), ws) => (.ok (), { s with witnesses := ws })
  | (.error e, ws) => (.error (.witness e.message), { s with witnesses := ws })

/-- A transaction and its acknowledgement. -/
def commit (call : Call) (s : Service) : Except StoreError Reply × Service :=
  match call.exec p.sha256 s.db with
  | .error e => (.error e, s)
  | .ok (reply, db) =>
    if acknowledges call.op reply then
      match p.acknowledge { s with db := db } with
      | (.ok (), s) => (.ok reply, s)
      | (.error e, s) => (.error e, s)
    else (.ok reply, { s with db := db })

/-- A store operation of one transaction. -/
def perform (call : Call) (s : Service) : Except StoreError Reply × Service :=
  if verifiesFirst call.op then
    match p.acknowledge s with
    | (.ok (), s) => p.commit call s
    | (.error e, s) => (.error e, s)
  else p.commit call s

/-- The loop of a sweep: one transaction for each installation, the `k`-th at `time k`; `n` counts
those that changed something. -/
def sweep (store : StoreConfig) (time : Nat → Time) (op : Uuid → StoreOp) :
    Nat → List Uuid → Nat → Service → Except StoreError Reply × Service
  | _, [], n, s => (.ok (.count n), s)
  | k, id :: ids, n, s =>
    match p.commit ⟨store, time k, op id⟩ s with
    | (.error e, s) => (.error e, s)
    | (.ok reply, s) => sweep store time op (k + 1) ids (if reply = .flag true then n + 1 else n) s

end Setup

/-- A store operation: one of a single transaction, or a sweep. -/
inductive ServiceOp where
  | single (op : StoreOp)
  | expirePendingAllocations (limit : Int)
  | expireChallengeValues (limit : Int)

/-- An operation with the configuration it runs under and its times: the first statement runs at
`now`, the `k`-th transaction of a sweep `elapsed k` later. -/
structure Request where
  store : StoreConfig
  now : Time
  elapsed : Nat → Nat
  operation : ServiceOp

/-- What the operation answers and leaves behind. -/
def Request.run (p : Setup) (r : Request) (s : Service) : Except StoreError Reply × Service :=
  match r.operation with
  | .single op => p.perform ⟨r.store, r.now, op⟩ s
  | .expirePendingAllocations limit =>
    if 1 ≤ limit ∧ limit ≤ 100 then
      p.sweep r.store (fun k => r.now + r.elapsed k) .expirePendingAllocation 0
        (pendingExpired s.db r.now limit.toNat) 0 s
    else (.error .invalidRequest, s)
  | .expireChallengeValues limit =>
    if 1 ≤ limit ∧ limit ≤ 100 then
      p.sweep r.store (fun k => r.now + r.elapsed k) .expireChallengeValuesOf 0
        (lapsedInstallations s.db r.now limit.toNat) 0 s
    else (.error .invalidRequest, s)

/-- `Store::connect_runtime_with_witness` on a database with every migration: a new process has seen
no remote revision. -/
def Setup.connect (p : Setup) (db : Db) (file : LocalFile) (object : Option RemoteObject) :
    Except StoreError Unit × Service :=
  p.acknowledge ⟨db, file, object, none⟩

/-! ## A fleet -/

/-- The fleet of a store: its database is the one the witnesses are compared with. Of the answer to a
write that conflicts nothing is assumed. -/
def storeFleet {H P C : Type} (process : C → P) (host : P → H) (remote : P → Bool) :
    Fleet Db H P C where
  revision := Db.restoreRevision
  pristine := Db.restorePristine
  process := process
  host := host
  remote := remote
  conflictWrites := true

/-- Where an operation is. `c` is its call of `verify_and_advance`. -/
inductive TaskPc (C : Type) where
  | verifying (call : Call) (c : C)
  | committed (call : Call) (reply : Reply)
  | acknowledging (call : Call) (reply : Reply) (c : C)
  | returned (call : Call) (result : Except StoreError Reply)

/-- The fleet of the witness machine, with the operations that use it. -/
structure System (H P C T : Type) where
  world : World Db H P C
  task : T → Option (TaskPc C)

inductive SystemLabel (C T : Type) where
  | machine (l : Label C)
  | verify (t : T)
  | transact (t : T) (call : Call)
  | acknowledge (t : T)
  | answer (t : T)

section System

variable {H P C T : Type} [DecidableEq H] [DecidableEq P] [DecidableEq C] [DecidableEq T]

namespace System

def setTask (s : System H P C T) (t : T) (pc : TaskPc C) : System H P C T :=
  { s with task := Function.update s.task t (some pc) }

def setWorld (s : System H P C T) (w : World Db H P C) : System H P C T := { s with world := w }

/-- The operation may start its transaction. -/
def MayTransact (s : System H P C T) (t : T) (call : Call) : Prop :=
  (s.task t = none ∧ verifiesFirst call.op = false) ∨
    ∃ c, s.task t = some (.verifying call c) ∧ s.world.pc c = some (.done (.ok ()))

end System

/-- A result of the witness as the operation's. -/
def witnessed {α : Type} (a : α) : Except WitnessError Unit → Except StoreError α
  | .ok () => .ok a
  | .error e => .error (.witness e.message)

/-- The steps of the fleet's operations. Operation `t` runs in process `runs t`; a transaction is one
step, and so is each step of a call of `verify_and_advance`. -/
inductive SystemStep (sha256 : Bytes → Bytes32) (F : Fleet Db H P C) (runs : T → P)
    (s : System H P C T) : SystemLabel C T → System H P C T → Prop where
  /-- Any step of any call. A call started here is one outside the operations (at the start of a
  process, or in `tunnel_is_current`). -/
  | machine {l : Label C} {w : World Db H P C} (h : Step F s.world l w) (hl : l ≠ .commit) :
      SystemStep sha256 F runs s (.machine l) (s.setWorld w)
  | verify {t : T} {call : Call} {c : C} {w : World Db H P C} (ht : s.task t = none)
      (hop : verifiesFirst call.op = true) (hc : F.process c = runs t)
      (h : Step F s.world (.start c) w) :
      SystemStep sha256 F runs s (.verify t) ((s.setWorld w).setTask t (.verifying call c))
  | refused {t : T} {call : Call} {c : C} {e : WitnessError}
      (ht : s.task t = some (.verifying call c)) (hpc : s.world.pc c = some (.done (.error e))) :
      SystemStep sha256 F runs s (.answer t)
        (s.setTask t (.returned call (.error (.witness e.message))))
  | failed {t : T} {call : Call} {e : StoreError} (ht : s.MayTransact t call)
      (h : call.exec sha256 s.world.db = .error e) :
      SystemStep sha256 F runs s (.transact t call) (s.setTask t (.returned call (.error e)))
  | transact {t : T} {call : Call} {reply : Reply} {db : Db} (ht : s.MayTransact t call)
      (h : call.exec sha256 s.world.db = .ok (reply, db)) :
      SystemStep sha256 F runs s (.transact t call)
        ((s.setWorld { s.world with db := db }).setTask t
          (if acknowledges call.op reply then .committed call reply
            else .returned call (.ok reply)))
  | acknowledge {t : T} {call : Call} {reply : Reply} {c : C} {w : World Db H P C}
      (ht : s.task t = some (.committed call reply)) (hc : F.process c = runs t)
      (h : Step F s.world (.start c) w) :
      SystemStep sha256 F runs s (.acknowledge t)
        ((s.setWorld w).setTask t (.acknowledging call reply c))
  | answer {t : T} {call : Call} {reply : Reply} {c : C} {result : Except WitnessError Unit}
      (ht : s.task t = some (.acknowledging call reply c))
      (hpc : s.world.pc c = some (.done result)) :
      SystemStep sha256 F runs s (.answer t) (s.setTask t (.returned call (witnessed reply result)))

/-- A fleet before its first operation. -/
structure System.Initial (F : Fleet Db H P C) (s : System H P C T) : Prop where
  world : s.world.Initial F
  task : ∀ t, s.task t = none

end System

end BloomRelay.Restore
