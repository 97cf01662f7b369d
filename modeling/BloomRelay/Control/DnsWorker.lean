import BloomRelay.Dns.Records
import BloomRelay.Store.Ops
import Mathlib.Logic.Function.Basic
import Mathlib.Data.Nat.Digits.Defs

/-!
# The DNS workers (`bloom-relay-control`)

Any number of workers, each on one attempt at a time. An attempt claims a job, waits for the lock of
its installation, reads what the store says now, calls the provider, observes DNS and records its
outcome; each of these is an action of its own, and any transaction of the store may commit in
between. The claim's transaction holds the job's row and the installation's lock until the attempt
ends, and so the transactions that take the same lock (`retire`, `relocate` and the sweep over pending
allocations) commit only while it is free.

A call of the provider has a beginning and an end, and its change takes effect at any time in
between, possibly more than once, and possibly although the call fails.
-/

namespace BloomRelay.Control

open Protocol Store Dns

/-- What the workers share. `lockKey` is `hashtext` of an installation's ID. -/
structure DnsConfig where
  sha256 : Bytes → Bytes32
  store : StoreConfig
  lockKey : Uuid → Nat

/-- `DnsWorker`: the placement it serves, the jobs it takes and the addresses it publishes. -/
structure DnsWorker where
  placement : String
  scope : DnsJobScope
  ingress : List IpAddr
  deriving DecidableEq

/-! ## The addresses of a worker -/

/-- An octet of a dotted address: up to three digits, below 256, without a leading zero. -/
def octet? (digits : List Char) : Option Nat :=
  if digits.isEmpty || digits.length > 3 || !digits.all Char.isDigit ||
      (digits.length > 1 && digits.head? = some '0') then none
  else if Nat.ofDigitChars 10 digits 0 < 256 then some (Nat.ofDigitChars 10 digits 0)
  else none

/-- `Ipv4Addr::from_str`. -/
def parseIpv4 (text : String) : Option (BitVec 32) :=
  match (text.toList.splitOn '.').mapM octet? with
  | some [a, b, c, d] => some (BitVec.ofNat 32 (((a * 256 + b) * 256 + c) * 256 + d))
  | _ => none

/-- `IpAddr::from_str`; `parseIpv6` is `Ipv6Addr::from_str`. -/
def parseIp (parseIpv6 : String → Option (BitVec 128)) (text : String) : Option IpAddr :=
  match parseIpv4 text with
  | some bits => some (.v4 bits)
  | none => (parseIpv6 text).map .v6

/-- `value.split(',')`. -/
def splitCommas (value : String) : List String := (value.toList.splitOn ',').map String.ofList

/-- The addresses in the value of an environment variable; a worker does not start without them. -/
def addresses (parseIpv6 : String → Option (BitVec 128)) (value : String) : Option (List IpAddr) := do
  let parsed ← (splitCommas value).mapM (parseIp parseIpv6)
  if parsed.isEmpty || parsed.length > 8 || parsed.any isUnspecified then none else some parsed

structure OutboxJob where
  id : Nat
  installationId : Uuid
  kind : JobKind
  payload : List (String × String)
  deriving DecidableEq

def outboxJob (o : OutboxRow) : OutboxJob := ⟨o.id, o.installationId, o.kind, o.payload⟩

/-- What an attempt has decided to do. -/
inductive Work where
  | publishName (records : NameRecords)
  | reconcileTxt (hostname : String) (revision : Nat) (values : List String)
  | removeRecords (hostname : String)
  | removeTxtAll (hostname : String)
  deriving DecidableEq

namespace Work

/-- The call of the provider. -/
def write : Work → Write
  | .publishName records => .publishName records
  | .reconcileTxt hostname _ values => .setChallenge hostname values
  | .removeRecords hostname => .retireName hostname
  | .removeTxtAll hostname => .retireChallenge hostname

/-- What is recorded once the change was observed. -/
def markOp? (installationId : Uuid) : Work → Option StoreOp
  | .publishName _ => some (.markDnsReady installationId)
  | .reconcileTxt _ revision _ => some (.markChallengeReconciled installationId revision)
  | .removeRecords _ | .removeTxtAll _ => none

end Work

/-- Where an attempt is: what it does next. -/
inductive WorkerPc where
  | lock
  | read
  | target (hostname : String)
  | write (w : Work)
  | writing (w : Work) (applied : Bool)
  | observe (w : Work)
  | mark (w : Work)
  /-- `process` has returned: `Ok(true)`, or `Ok(false)` and every error. -/
  | outcome (finished : Bool)
  deriving DecidableEq

/-- A `ClaimedJob` and the worker that processes it. -/
structure Attempt where
  worker : DnsWorker
  job : OutboxJob
  /-- The answer of `dns_identity`, once the attempt has it. -/
  identity : Option (Option (String × String × String))
  /-- The revision of the answer of `challenge_target`, once the attempt has it. -/
  revision : Option Nat
  pc : WorkerPc
  deriving DecidableEq

structure Workers where
  db : Db
  attempts : Nat → Option Attempt
  /-- The attempt that holds the row lock of a job. -/
  jobLocks : Nat → Option Nat
  /-- The attempt that holds an advisory lock. -/
  installationLocks : Nat → Option Nat

namespace Workers

def setAttempt (g : Workers) (k : Nat) (a : Attempt) : Workers :=
  { g with attempts := Function.update g.attempts k (some a) }

/-- The claim's transaction ends: its locks are free again. -/
def release (g : Workers) (k : Nat) : Workers where
  db := g.db
  attempts := Function.update g.attempts k none
  jobLocks := fun job => if g.jobLocks job = some k then none else g.jobLocks job
  installationLocks := fun key =>
    if g.installationLocks key = some k then none else g.installationLocks key

end Workers

/-! ## The parts of an attempt -/

/-- The row `claim_job` selects: `ORDER BY o.id FOR UPDATE OF o SKIP LOCKED LIMIT 1`. Rows stand in
the order of their IDs. -/
def nextJob (g : Workers) (worker : DnsWorker) (now : Time) : Option OutboxRow :=
  g.db.outbox.find? fun o =>
    claimable g.db now worker.placement worker.scope o && (g.jobLocks o.id).isNone

/-- How `process` starts: the identity, or the name of a retired installation. -/
def readStep (db : Db) (a : Attempt) : Attempt :=
  if a.worker.scope.allows a.job.kind then
    match a.job.kind with
    | .publishName =>
      { a with
        identity := some (dnsIdentity db a.job.installationId)
        pc := match dnsIdentity db a.job.installationId with
          | none => .outcome true
          | some (hostname, acmeAccountUri, placement) =>
            if placement = a.worker.placement then
              .write (.publishName ⟨hostname, a.worker.ingress, acmeAccountUri⟩)
            else .outcome false }
    | .reconcileTxt =>
      { a with
        identity := some (dnsIdentity db a.job.installationId)
        pc := match dnsIdentity db a.job.installationId with
          | none => .outcome true
          | some (hostname, _, placement) =>
            if placement = a.worker.placement then .target hostname else .outcome false }
    | .removeRecords =>
      { a with
        pc := match retiredHostname db a.job.installationId with
          | none => .outcome true
          | some hostname => .write (.removeRecords hostname) }
    | .removeTxtAll =>
      { a with
        pc := match retiredHostname db a.job.installationId with
          | none => .outcome true
          | some hostname => .write (.removeTxtAll hostname) }
  else { a with pc := .outcome false }

/-- The set to publish: the revision and the membership in one snapshot. -/
def targetStep (db : Db) (a : Attempt) (hostname : String) : Attempt :=
  { a with
    revision := some (challengeTarget db a.job.installationId).1
    pc := .write (.reconcileTxt hostname (challengeTarget db a.job.installationId).1
      (challengeTarget db a.job.installationId).2) }

/-- After the observation: a removal is finished, any other change is recorded first. -/
def observed (installationId : Uuid) (w : Work) (visible : Bool) : WorkerPc :=
  if visible then if (w.markOp? installationId).isSome then .mark w else .outcome true
  else .outcome false

/-- After the mark: its answer is the attempt's, and the restore witness may refuse it. -/
def marked (answer : Except StoreError (Reply × Db)) (acknowledged : Bool) : WorkerPc :=
  .outcome (answer.toBool && acknowledged)

/-- The write that records the outcome: `complete` or `defer`. -/
def outcomeOp (job : OutboxJob) (finished : Bool) : StoreOp :=
  if finished then .completeJob job.id else .deferJob job.id

inductive AttemptAction where
  | lock
  | read
  | target
  /-- The call of the provider begins, takes effect, and ends. -/
  | start
  | apply
  | answer (ok : Bool)
  /-- The records are as wanted on every authoritative server, or are not. -/
  | observe (visible : Bool)
  /-- The mark commits; the restore witness may fail after it. -/
  | mark (now : Time) (acknowledged : Bool)
  | finish (now : Time)
  /-- A statement, a check of the restore witness or a lookup fails. -/
  | fail
  /-- The claim is dropped, or its process dies. -/
  | drop
  deriving DecidableEq

inductive DnsAction where
  /-- A transaction of the store that is not part of an attempt. -/
  | store (call : Call)
  | claim (k : Nat) (worker : DnsWorker) (now : Time)
  | attempt (k : Nat) (action : AttemptAction)

/-- The transactions only a worker makes. -/
def byWorker : StoreOp → Bool
  | .markDnsReady _ | .markChallengeReconciled _ _ | .completeJob _ | .deferJob _ => true
  | _ => false

/-- The installation whose lock a transaction takes. -/
def lockedInstallation? : StoreOp → Option Uuid
  | .retire installationId _ | .relocate installationId _ _ => some installationId
  | .expirePendingAllocation id => some id
  | _ => none

section Step

variable (cfg : DnsConfig)

/-- A call of a worker. -/
def workerCall (now : Time) (op : StoreOp) : Call := ⟨cfg.store, now, op⟩

/-- The lock of an installation is free. -/
def Workers.unlocked (g : Workers) (installationId : Uuid) : Bool :=
  (g.installationLocks (cfg.lockKey installationId)).isNone

def attemptStep (g : Workers) (k : Nat) (a : Attempt) (action : AttemptAction) : Option Workers :=
  match a.pc, action with
  | .lock, .lock =>
    if g.unlocked cfg a.job.installationId then
      some ({ g with
        installationLocks := Function.update g.installationLocks
          (cfg.lockKey a.job.installationId) (some k) }.setAttempt k { a with pc := .read })
    else none
  | .read, .read => some (g.setAttempt k (readStep g.db a))
  | .target hostname, .target => some (g.setAttempt k (targetStep g.db a hostname))
  | .write w, .start => some (g.setAttempt k { a with pc := .writing w false })
  | .writing w _, .apply => some (g.setAttempt k { a with pc := .writing w true })
  | .writing w true, .answer true => some (g.setAttempt k { a with pc := .observe w })
  | .writing _ _, .answer false => some (g.setAttempt k { a with pc := .outcome false })
  | .observe w, .observe visible =>
    some (g.setAttempt k { a with pc := observed a.job.installationId w visible })
  | .mark w, .mark now acknowledged =>
    (w.markOp? a.job.installationId).map fun op =>
      { g with db := (workerCall cfg now op).after cfg.sha256 g.db }.setAttempt k
        { a with pc := marked ((workerCall cfg now op).exec cfg.sha256 g.db) acknowledged }
  | .outcome finished, .finish now =>
    some ({ g with
      db := (workerCall cfg now (outcomeOp a.job finished)).after cfg.sha256 g.db }.release k)
  | .lock, .fail | .outcome _, .fail => none
  | _, .fail => some (g.setAttempt k { a with pc := .outcome false })
  | _, .drop => some (g.release k)
  | _, _ => none

/-- What an action does; none if the attempt is not there, not at that point, or has to wait. -/
def Workers.step (g : Workers) : DnsAction → Option Workers
  | .store call =>
    if byWorker call.op = false ∧ (lockedInstallation? call.op).all (g.unlocked cfg) = true then
      some { g with db := call.after cfg.sha256 g.db }
    else none
  | .claim k worker now =>
    if g.attempts k = none then
      (nextJob g worker now).map fun o =>
        { g with jobLocks := Function.update g.jobLocks o.id (some k) }.setAttempt k
          ⟨worker, outboxJob o, none, none, .lock⟩
    else none
  | .attempt k action => (g.attempts k).bind fun a => attemptStep cfg g k a action

/-- An action as a step. -/
def DnsStep (g : Workers) (action : DnsAction) (g' : Workers) : Prop := g.step cfg action = some g'

/-- The workers before their first claim. -/
def Workers.start (db : Db) : Workers where
  db := db
  attempts := fun _ => none
  jobLocks := fun _ => none
  installationLocks := fun _ => none

/-- The runs of the workers on the migrated database. -/
abbrev DnsRun : List (Event Workers DnsAction) → Workers → Prop := Run (DnsStep cfg) (Workers.start .migrated)

end Step

/-! ## What happened in a run -/

/-- The change of a provider that takes effect in a step, and the attempt that makes it. -/
def writeOf? (e : Event Workers DnsAction) : Option (Attempt × Work) :=
  match e.label with
  | .attempt k .apply =>
    match e.src.attempts k with
    | some a =>
      match a.pc with
      | .writing w _ => some (a, w)
      | _ => none
    | none => none
  | _ => none

/-- The change that a step finds in place on DNS, and the attempt that looks for it. -/
def observationOf? (e : Event Workers DnsAction) : Option (Attempt × Work) :=
  match e.label with
  | .attempt k (.observe true) =>
    match e.src.attempts k with
    | some a =>
      match a.pc with
      | .observe w => some (a, w)
      | _ => none
    | none => none
  | _ => none

/-- The attempt whose job a step completes. -/
def completionOf? (e : Event Workers DnsAction) : Option Attempt :=
  match e.label with
  | .attempt k (.finish _) => (e.src.attempts k).filter fun a => a.pc = .outcome true
  | _ => none

/-- The account and the placement that the last completed publication of an installation had read;
none also if it found nothing to publish. -/
def lastPublished (i : Uuid) : List (Event Workers DnsAction) → Option (String × String)
  | [] => none
  | e :: earlier =>
    match completionOf? e with
    | some a =>
      if a.job.installationId = i ∧ a.job.kind = .publishName then a.identity.join.map (·.2)
      else lastPublished i earlier
    | none => lastPublished i earlier

end BloomRelay.Control
