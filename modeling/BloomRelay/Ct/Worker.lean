import BloomRelay.Ct.Monitor

/-!
# One tick of a CT worker (`bloom-relay-ct`)

A tick reads the checkpoint, consumes what the feed answers, queues a lag alert and delivers what is
pending. The transactions are those of a database that is available, so each of them commits. What the
feed answers is a parameter: `none` if the request or the JSON of its answer failed.
-/

namespace BloomRelay.Ct

open Protocol Store Checked

/-- `CtBatch`. -/
structure CtBatch where
  source : String
  entries : List CtEntry
  deriving DecidableEq

/-- A worker, whose source `ensure_ct_source` has accepted before its first tick. -/
structure Worker where
  source : String
  valid : validateSource source = .ok ()

/-- The start times of the transactions of a tick: of the one that observes a position, of the others,
and of the marks by alert. -/
structure TickTimes where
  observed : Nat → Time
  healthy : Time
  lag : Time
  delivered : Nat → Time

/-- The JSON body of an alert. -/
inductive AlertBody where
  | unexpectedIssuance (source : String) (position : Nat) (hostname keyFingerprint : String)
  | feedLag (source : String) (lagSeconds : Nat)
  deriving DecidableEq

structure Post where
  idempotencyKey : String
  body : AlertBody
  deriving DecidableEq

inductive TickError where
  | missingCheckpoint
  | store (error : StoreError)
  | sinkRejected
  deriving DecidableEq

/-- The database after a tick, the alerts it has posted and its answer. -/
structure Ticked where
  db : Db
  posts : List Post
  result : Except TickError Unit

/-- The loop over the entries of a batch: the last position and whether the batch was contiguous. -/
def observeEntries (times : TickTimes) (source : String) (db : Db) (next : Nat) :
    List CtEntry → Db × Except StoreError (Nat × Bool)
  | [] => (db, .ok (next, true))
  | entry :: rest =>
    if entry.position ≠ next + 1 then (db, .ok (next, false))
    else
      match observeCt db (times.observed entry.position) source entry.position entry.hostname
          entry.keyFingerprint with
      | .ok (_, db') => observeEntries times source db' entry.position rest
      | .error e => (db, .error e)

namespace Worker

/-- What a tick does with the answer of the feed. -/
def consumeFeed (worker : Worker) (times : TickTimes) (db : Db) (checkpoint : Nat) :
    Option CtBatch → Db × Except StoreError Unit
  | none => (db, .ok ())
  | some batch =>
    if batch.source = worker.source ∧ batch.entries.length ≤ 100 then
      match observeEntries times worker.source db checkpoint batch.entries with
      | (db', .error e) => (db', .error e)
      | (db', .ok (_, false)) => (db', .ok ())
      | (db', .ok (next, true)) =>
        match markCtFeedHealthy db' times.healthy worker.source next with
        | .ok (_, db'') => (db'', .ok ())
        | .error e => (db', .error e)
    else (db, .ok ())

end Worker

def issuancePost (alert : CtAlert) : Post :=
  ⟨"ct:" ++ alert.source ++ ":" ++ toString alert.id,
    .unexpectedIssuance alert.source alert.position alert.hostname alert.fingerprint⟩

def lagPost (alert : CtHealthAlert) : Post :=
  ⟨"ct-lag:" ++ alert.source ++ ":" ++ toString alert.id, .feedLag alert.source alert.lagSeconds⟩

/-- A loop of `deliver`: each alert is posted and, if the sink answers 202, marked. -/
def deliverEach {α : Type} (sink : Post → Bool) (post : α → Post) (mark : Db → α → Db) (db : Db) :
    List α → Db × List Post × Bool
  | [] => (db, [], true)
  | alert :: rest =>
    if sink (post alert) then
      let (db', posts, all) := deliverEach sink post mark (mark db alert) rest
      (db', post alert :: posts, all)
    else (db, [post alert], false)

namespace Worker

def deliver (worker : Worker) (times : TickTimes) (sink : Post → Bool) (db : Db) : Ticked :=
  match deliverEach sink issuancePost
      (fun db alert => markCtAlertDelivered db (times.delivered alert.id) alert.id) db
      (pendingCtAlerts db worker.source 100) with
  | (db, posts, false) => ⟨db, posts, .error .sinkRejected⟩
  | (db, posts, true) =>
    match deliverEach sink lagPost
        (fun db alert => markCtLagAlertDelivered db (times.delivered alert.id) alert.id) db
        (pendingCtLagAlerts db worker.source 100) with
    | (db, lagPosts, false) => ⟨db, posts ++ lagPosts, .error .sinkRejected⟩
    | (db, lagPosts, true) => ⟨db, posts ++ lagPosts, .ok ()⟩

def tick (worker : Worker) (times : TickTimes) (sink : Post → Bool) (feed : Option CtBatch) (db : Db) :
    Ticked :=
  match ctCheckpoint db worker.source with
  | .error e => ⟨db, [], .error (.store e)⟩
  | .ok none => ⟨db, [], .error .missingCheckpoint⟩
  | .ok (some checkpoint) =>
    match worker.consumeFeed times db checkpoint feed with
    | (db, .error e) => ⟨db, [], .error (.store e)⟩
    | (db, .ok ()) =>
      match queueCtLagAlert db times.lag worker.source with
      | .error e => ⟨db, [], .error (.store e)⟩
      | .ok (_, db) => worker.deliver times sink db

end Worker

end BloomRelay.Ct
