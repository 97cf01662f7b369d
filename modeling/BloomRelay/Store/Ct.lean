import BloomRelay.Store.Schema

/-!
# Certificate inventory and CT monitoring (`bloom-relay-store`, `ct.rs`)
-/

namespace BloomRelay.Store

open Protocol Checked

def validateFingerprint (value : String) : Except StoreError Unit :=
  require (value.utf8ByteSize = 64 ∧
    value.toList.all (fun c => c.isDigit || ('a' ≤ c && c ≤ 'f') || ('A' ≤ c && c ≤ 'F')) = true)
    .invalidRequest

def validateSource (source : String) : Except StoreError Unit :=
  require (source.isEmpty = false ∧ source.utf8ByteSize ≤ 64 ∧
    source.toList.all (fun c => c.isAlphanum || c == '-') = true) .invalidRequest

/-- `INSERT INTO ct_feed_checkpoints … ON CONFLICT DO NOTHING`, with its trigger. -/
def Db.ensureCheckpoint (db : Db) (now : Time) (source : String) : Db :=
  match db.ctFeedCheckpoints.insert? ⟨source, 0, now⟩ with
  | none => db
  | some ctFeedCheckpoints => { db with ctFeedCheckpoints }.advanceFence

/-- `UPDATE ct_feed_checkpoints SET … WHERE source=$1` for a source that exists, with its trigger. -/
def Db.modifyCheckpoint (db : Db) (source : String) (f : CtFeedCheckpoint → CtFeedCheckpoint)
    (hf : ∀ c, (f c).source = c.source) : Db :=
  { db with ctFeedCheckpoints := db.ctFeedCheckpoints.modify source f hf }.advanceFence

def ensureCtSource (db : Db) (now : Time) (source : String) : Except StoreError (Unit × Db) := do
  validateSource source
  .ok ((), db.ensureCheckpoint now source)

def ctCheckpoint (db : Db) (source : String) : Except StoreError (Option Nat) := do
  validateSource source
  .ok ((db.ctFeedCheckpoints.find? source).map (·.position))

def markCtFeedHealthy (db : Db) (now : Time) (source : String) (position : Nat) :
    Except StoreError (Unit × Db) := do
  validateSource source
  let _ ← found ((db.ctFeedCheckpoints.find? source).filter
    (fun c => (c.position : Int) = i64OfU64 position)) .conflict
  .ok ((), db.modifyCheckpoint source (fun c => { c with observedAt := now }) (fun _ => rfl))

/-- `UPDATE … SET delivered_at=now() WHERE id=$1 AND delivered_at IS NULL`, with its trigger. -/
def markCtAlertDelivered (db : Db) (now : Time) (id : Nat) : Db :=
  if db.ctAlerts.rows.any (fun a => a.id = id ∧ a.deliveredAt = none) then
    { db with
      ctAlerts := db.ctAlerts.updateWhere (fun a => a.id = id ∧ a.deliveredAt = none)
        (fun a => { a with deliveredAt := some now }) (fun _ => rfl) }.advanceFence
  else db

/-- `INSERT INTO ct_health_alerts … SELECT … ON CONFLICT DO NOTHING`: one alert for each quarter of
an hour (rounded) in which the source is more than 15 minutes behind. -/
def queueCtLagAlert (db : Db) (now : Time) (source : String) : Except StoreError (Unit × Db) := do
  validateSource source
  match (db.ctFeedCheckpoints.find? source).filter (fun c => c.observedAt + minutes 15 < now) with
  | none => .ok ((), db)
  | some c =>
    match db.ctHealthAlerts.insert? ⟨db.ctHealthAlerts.rows.length + 1, source,
        (now + seconds 450) / seconds 900, (now - c.observedAt + 500000) / 1000000, now, none⟩ with
    | none => .ok ((), db)
    | some ctHealthAlerts => .ok ((), { db with ctHealthAlerts }.advanceFence)

/-- The same for a lag alert. -/
def markCtLagAlertDelivered (db : Db) (now : Time) (id : Nat) : Db :=
  if db.ctHealthAlerts.rows.any (fun a => a.id = id ∧ a.deliveredAt = none) then
    { db with
      ctHealthAlerts := db.ctHealthAlerts.updateWhere (fun a => a.id = id ∧ a.deliveredAt = none)
        (fun a => { a with deliveredAt := some now }) (fun _ => rfl) }.advanceFence
  else db

/-- `INSERT INTO certificate_inventory … ON CONFLICT DO NOTHING`. -/
def Db.addCertificate (db : Db) (certificate : Certificate) : Db :=
  { db with certificateInventory := db.certificateInventory.insertNew certificate }

/-- The database takes the lineage and both ends of the validity of a report. -/
def storable (certificate : CertificateMetadata) : Bool :=
  textOk certificate.lineage && timestampOk (i64OfU64 certificate.notBeforeMs) &&
    timestampOk (i64OfU64 certificate.notAfterMs)

def recordExpectedCertificate (db : Db) (now : Time) (installationId : Uuid)
    (certificate : CertificateMetadata) : Except StoreError (Unit × Db) := do
  require (validateHostname certificate.hostname = .ok ()) .invalidRequest
  validateFingerprint certificate.keyFingerprint
  require (certificate.lineage.isEmpty = false ∧ certificate.lineage.utf8ByteSize ≤ 128 ∧
    certificate.notBeforeMs < certificate.notAfterMs) .invalidRequest
  let i ← found ((db.installations.find? installationId).filter (fun i => i.state = .dnsReady))
    .conflict
  require (i.hostname = certificate.hostname ∧ i.acmeAccountUri = some certificate.acmeAccountUri)
    .conflict
  require (storable certificate = true) .unavailable
  let db := db.addCertificate ⟨installationId, certificate.keyFingerprint, certificate.lineage,
    i64OfU64 certificate.notBeforeMs, i64OfU64 certificate.notAfterMs⟩
  .ok ((), db.audit now installationId none .certificateExpected)

/-- The installation that owns a hostname. -/
def ownerOf (db : Db) (hostname : String) : Option Uuid :=
  (db.installations.rows.find? fun i => i.hostname = hostname).map (·.installationId)

/-- Whether an issuance is in the inventory of the installation that owns its hostname. -/
def issuanceExpected (db : Db) (hostname fingerprint : String) : Bool :=
  match ownerOf db hostname with
  | none => false
  | some id => (db.certificateInventory.find? (id, fingerprint)).isSome

/-- The alert of an unexpected issuance, and the audit row if an installation owns the hostname. -/
def Db.raiseAlert (db : Db) (now : Time) (source : String) (position : Nat)
    (hostname fingerprint : String) : Except StoreError Db := do
  let owner := ownerOf db hostname
  let db ← db.insertAlert ⟨db.ctAlerts.rows.length + 1, source, position, owner, hostname,
    fingerprint, now, none⟩
  match owner with
  | none => .ok db
  | some id => .ok (db.audit now id none .unexpectedCt)

/-- The next entry of a feed: recorded with its verdict, and the checkpoint moved on. -/
def recordObservation (db : Db) (now : Time) (source : String) (position : Nat)
    (hostname fingerprint : String) : Except StoreError (Bool × Db) := do
  let expected := issuanceExpected db hostname fingerprint
  let db ← db.insertObservation
    ⟨source, position, ownerOf db hostname, hostname, fingerprint, now, expected⟩
  let db ← (if expected then .ok db else db.raiseAlert now source position hostname fingerprint)
  .ok (expected, db.modifyCheckpoint source
    (fun c => { c with position := position, observedAt := now }) (fun _ => rfl))

def observeCt (db : Db) (now : Time) (source : String) (position : Nat)
    (hostname fingerprint : String) : Except StoreError (Bool × Db) := do
  require (validateHostname hostname = .ok ()) .invalidRequest
  validateFingerprint fingerprint
  validateSource source
  require (0 < position ∧ position < 2 ^ 63) .invalidRequest
  let inserted := db.ensureCheckpoint now source
  let checkpoint ← found (inserted.ctFeedCheckpoints.find? source) .unavailable
  if position ≤ checkpoint.position then do
    let previous ← found (inserted.ctObservations.find? (source, position)) .conflict
    require (previous.hostname = hostname ∧ previous.fingerprint = fingerprint) .conflict
    -- The transaction is dropped: a repeated entry leaves nothing behind.
    .ok (previous.expected, db)
  else do
    require (position = checkpoint.position + 1) .conflict
    recordObservation inserted now source position hostname fingerprint

/-- The undelivered alerts of a source, oldest first. -/
def pendingCtAlerts (db : Db) (source : String) (limit : Nat) : List CtAlert :=
  (db.ctAlerts.rows.filter fun a => a.source = source ∧ a.deliveredAt = none).take limit

/-- The undelivered lag alerts of a source, oldest first. -/
def pendingCtLagAlerts (db : Db) (source : String) (limit : Nat) : List CtHealthAlert :=
  (db.ctHealthAlerts.rows.filter fun a => a.source = source ∧ a.deliveredAt = none).take limit

end BloomRelay.Store
