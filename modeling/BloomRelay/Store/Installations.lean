import BloomRelay.Store.Credentials

/-!
# Installations, their leases and placements (`bloom-relay-store`)

`allocate`, `register_acme_account`, `mark_dns_ready`, `claim_tunnel`, `renew_tunnel`, `retire`,
`relocate`, the pending-allocation sweep and the reads of an installation.
-/

namespace BloomRelay.Store

open Protocol Checked

/-! ## Reads -/

def adminPublicKey (db : Db) (installationId : Uuid) : Option Bytes32 :=
  (db.installations.find? installationId).map (·.adminPublicKey)

/-- The hostname of an installation whose serving DNS is ready. -/
def hostname (db : Db) (installationId : Uuid) : Option String :=
  ((db.installations.find? installationId).filter fun i => i.state = .dnsReady).map (·.hostname)

/-- `allocation_from_row`. -/
def Installation.allocation (i : Installation) : Allocation :=
  ⟨wireVersion, i.installationId, i.hostname, i.placement, i.state⟩

def allocationStatus (db : Db) (installationId : Uuid) : Option Allocation :=
  (db.installations.find? installationId).map Installation.allocation

/-- Hostname, ACME account and placement of an installation that is to be published. -/
def dnsIdentity (db : Db) (installationId : Uuid) : Option (String × String × String) :=
  match db.installations.find? installationId with
  | none => none
  | some i =>
    if i.state = .retired then none
    else i.acmeAccountUri.map fun uri => (i.hostname, uri, i.placement)

def retiredHostname (db : Db) (installationId : Uuid) : Option String :=
  ((db.installations.find? installationId).filter fun i => i.state = .retired).map (·.hostname)

/-! ## Allocation -/

/-- A placement name the store accepts. -/
def placementOk (placement : String) : Bool :=
  !placement.isEmpty && placement.utf8ByteSize ≤ 64 &&
    placement.toList.all fun c => c.isAlphanum || c == '-'

/-- `BASE32_NOPAD` of 16 bytes, in lowercase: 26 characters of five bits, the last padded with two
zero bits. -/
def base32Nopad (random : BitVec 128) : String :=
  String.ofList ((List.range 26).map fun k =>
    "abcdefghijklmnopqrstuvwxyz234567".toList.getD ((random.toNat <<< 2) >>> (5 * (25 - k)) % 32) 'a')

def allocatedHostname (random : BitVec 128) : String :=
  base32Nopad random ++ ".relay.bloom.directory"

/-- The rows a new allocation inserts, after its operation ID was not found. `id` and `random` are
the fresh UUID and the 16 random bytes. -/
def allocateTx (db : Db) (now : Time) (operationId : Uuid) (adminPublicKey : Bytes32)
    (placement : String) (id : Uuid) (random : BitVec 128) :
    Except StoreError (Allocation × Db) := do
  let hostname := allocatedHostname random
  let installation : Installation :=
    ⟨id, hostname, adminPublicKey, placement, 1, .pendingDns, none, now, none⟩
  let db ← db.insertInstallation installation
  let db ← db.insertReservation ⟨hostname, id, now⟩
  let allocation := installation.allocation
  let db ← db.insertOperation ⟨operationId, id, .allocate, 0, .allocation allocation, now⟩
  let db := db.enqueue now id .publishName [("hostname", hostname), ("placement", placement)]
  .ok (allocation, db.audit now id (some operationId) .allocated)

/-- The installation of a recorded operation. -/
def Db.allocated? (db : Db) (operationId : Uuid) : Option Installation :=
  (db.operations.find? operationId).bind fun o => db.installations.find? o.installationId

/-- The answer to a repeated `allocate`: the installation as it is now. -/
def allocateReplay (i : Installation) (adminPublicKey : Bytes32) (placement : String) :
    Except StoreError Allocation := do
  require (i.adminPublicKey = adminPublicKey ∧ i.placement = placement) .conflict
  .ok i.allocation

def allocate (db : Db) (now : Time) (operationId : Uuid) (adminPublicKey : Bytes32)
    (placement : String) (id : Uuid) (random : BitVec 128) :
    Except StoreError (Allocation × Db) := do
  require (placementOk placement = true) .invalidRequest
  match db.allocated? operationId with
  | some i =>
    let allocation ← allocateReplay i adminPublicKey placement
    .ok (allocation, db)
  | none => allocateTx db now operationId adminPublicKey placement id random

/-! ## ACME account and DNS readiness -/

def registerAcmeAccount (store : StoreConfig) (db : Db) (now : Time) (installationId : Uuid)
    (accountUri : String) : Except StoreError (Unit × Db) := do
  require (store.acmeEnvironment.validateAccountUri accountUri = .ok ()) .invalidRequest
  let (row, db) ← found (db.updateInstallation installationId (fun i => i.state ≠ .retired)
    (fun i => { i with acmeAccountUri := some accountUri }) (fun _ => rfl)) .conflict
  let db := db.enqueue now installationId .publishName [("hostname", row.hostname)]
  .ok ((), db.audit now installationId none .acmeAccountBound)

/-- Nothing is written when no row is pending with an account. -/
def markDnsReady (db : Db) (now : Time) (installationId : Uuid) : Except StoreError (Unit × Db) :=
  match db.updateInstallation installationId
      (fun i => i.state = .pendingDns ∧ i.acmeAccountUri ≠ none)
      (fun i => { i with state := .dnsReady }) (fun _ => rfl) with
  | none => .ok ((), db)
  | some (_, db) => .ok ((), db.audit now installationId none .dnsReady)

/-! ## Tunnel leases -/

/-- `INSERT INTO tunnel_leases … ON CONFLICT (installation_id) DO UPDATE`. -/
def Db.putLease (db : Db) (lease : TunnelLease) : Db :=
  { db with tunnelLeases := db.tunnelLeases.upsert lease }

def claimTunnel (db : Db) (now : Time) (installationId : Uuid) (gatewayId : String)
    (ttlSeconds : Int) : Except StoreError (Nat × Db) := do
  require (gatewayId.isEmpty = false ∧ 5 ≤ ttlSeconds ∧ ttlSeconds ≤ 60) .invalidRequest
  let (row, db) ← found (db.updateInstallation installationId
    (fun i => i.state = .dnsReady ∧ i.placement = gatewayId) Installation.bump
    Installation.bump_installationId)
    .conflict
  let db := db.putLease
    ⟨installationId, row.generation, gatewayId, now + seconds ttlSeconds.toNat⟩
  .ok (row.generation, db.audit now installationId none .tunnelClaimed)

/-- The lease row a gateway's generation names, if it has not expired. -/
def leaseMatches (now : Time) (gatewayId : String) (generation : Nat) (l : TunnelLease) : Bool :=
  l.gatewayId = gatewayId ∧ (l.generation : Int) = i64OfU64 generation ∧ now < l.expiresAt

/-- The query of `tunnel_is_current`, which runs after the witness check. -/
def tunnelIsCurrent (db : Db) (now : Time) (installationId : Uuid) (gatewayId : String)
    (generation : Nat) : Bool :=
  ((db.tunnelLeases.find? installationId).filter (leaseMatches now gatewayId generation)).isSome

/-- `UPDATE tunnel_leases SET expires_at=… WHERE installation_id=$1`. -/
def Db.extendLease (db : Db) (installationId : Uuid) (expiresAt : Time) : Db :=
  { db with
    tunnelLeases := db.tunnelLeases.modify installationId
      (fun l => { l with expiresAt := expiresAt }) (fun _ => rfl) }

def renewTunnel (db : Db) (now : Time) (installationId : Uuid) (gatewayId : String)
    (generation : Nat) : Bool × Db :=
  if tunnelIsCurrent db now installationId gatewayId generation then
    (true, db.extendLease installationId (now + seconds 45))
  else (false, db)

/-! ## Retirement and relocation -/

/-- `state='retired', retired_at=now(), generation=generation+1`. -/
def Installation.retire (now : Time) (i : Installation) : Installation :=
  { i with state := .retired, retiredAt := some now, generation := i.generation + 1 }

@[simp] theorem Installation.retire_installationId (now : Time) (i : Installation) :
    (i.retire now).installationId = i.installationId := rfl

/-- The two clean-up jobs of a retired installation. -/
def Db.enqueueRemoval (db : Db) (now : Time) (installationId : Uuid) : Db :=
  (db.enqueue now installationId .removeRecords []).enqueue now installationId .removeTxtAll []

/-- The sweep's transaction for one pending allocation; the answer says whether it retired it. -/
def expirePendingAllocation (db : Db) (now : Time) (id : Uuid) : Bool × Db :=
  match db.updateInstallation id
      (fun i => i.state = .pendingDns ∧ i.createdAt + hours 24 < now) (Installation.retire now)
      (Installation.retire_installationId now) with
  | none => (false, db)
  | some (_, db) =>
    (true, (db.enqueueRemoval now id).audit now id none .pendingAllocationExpired)

/-- The installations a sweep at `now` starts with: `ORDER BY created_at LIMIT $1`. -/
def pendingExpired (db : Db) (now : Time) (limit : Nat) : List Uuid :=
  (((db.installations.rows.filter fun i =>
    i.state = .pendingDns ∧ i.createdAt + hours 24 < now).mergeSort
      fun a b => a.createdAt ≤ b.createdAt).take limit).map (·.installationId)

section Sha256

variable (sha256 : Bytes → Bytes32)

def retireDigest (installationId : Uuid) : Bytes32 :=
  sha256 (utf8 "bloom-relay/retire/v1\x00" ++ beBytes 16 installationId)

def relocationDigest (id : Uuid) (placement : String) : Bytes32 :=
  sha256 (utf8 "bloom-relay/relocate/v1\x00" ++ beBytes 16 id ++ utf8 placement)

/-- `DELETE FROM challenge_values WHERE installation_id=$1`. -/
def Db.dropValues (db : Db) (installationId : Uuid) : Db :=
  { db with
    challengeValues := db.challengeValues.deleteWhere fun v => v.installationId = installationId }

/-- What `retire` deletes and queues when the installation was not retired before. -/
def Db.cleanUp (db : Db) (now : Time) (installationId operationId : Uuid) : Db :=
  (((db.dropLease installationId).enqueueRemoval now installationId).dropValues installationId).audit
    now installationId (some operationId) .retired

/-- The part of `retire` that only the first retirement executes. -/
def Db.retireOnce (db : Db) (now : Time) (installationId operationId : Uuid) : Db :=
  match db.updateInstallation installationId (fun i => i.state ≠ .retired)
      (Installation.retire now) (Installation.retire_installationId now) with
  | none => db
  | some (_, db) => db.cleanUp now installationId operationId

/-- `retire` after its operation ID was not found. -/
def retireTx (db : Db) (now : Time) (installationId operationId : Uuid) :
    Except StoreError (Unit × Db) := do
  require ((db.installations.find? installationId).isSome = true) .conflict
  let db ← (db.retireOnce now installationId operationId).insertOperation
    ⟨operationId, installationId, .retire, retireDigest sha256 installationId, .empty, now⟩
  .ok ((), db)

def retireReplay (existing : Operation) (installationId : Uuid) : Except StoreError Unit :=
  require (existing.installationId = installationId ∧ existing.kind = .retire) .conflict

def retire (db : Db) (now : Time) (installationId operationId : Uuid) :
    Except StoreError (Unit × Db) := do
  match db.operations.find? operationId with
  | some existing =>
    retireReplay existing installationId
    .ok ((), db)
  | none => retireTx sha256 db now installationId operationId

/-- `relocate` after its operation ID was not found. -/
def relocateTx (db : Db) (now : Time) (installationId operationId : Uuid) (placement : String) :
    Except StoreError (Unit × Db) := do
  let (_, db) ← found (db.updateInstallation installationId
    (fun i => i.state = .dnsReady ∧ i.placement ≠ placement)
    (fun i => { i with placement := placement, generation := i.generation + 1 })
    (fun _ => rfl)) .conflict
  let db := (db.dropLease installationId).enqueue now installationId .publishName
    [("placement", placement)]
  let db := db.audit now installationId (some operationId) .placementMoved
  let db ← db.insertOperation ⟨operationId, installationId, .relocate,
    relocationDigest sha256 installationId placement, .empty, now⟩
  .ok ((), db)

def relocateReplay (existing : Operation) (installationId : Uuid) (placement : String) :
    Except StoreError Unit :=
  require (existing.installationId = installationId ∧ existing.kind = .relocate ∧
    existing.requestDigest = relocationDigest sha256 installationId placement) .conflict

def relocate (db : Db) (now : Time) (installationId operationId : Uuid) (placement : String) :
    Except StoreError (Unit × Db) := do
  require (placementOk placement = true) .invalidRequest
  match db.operations.find? operationId with
  | some existing =>
    relocateReplay sha256 existing installationId placement
    .ok ((), db)
  | none => relocateTx sha256 db now installationId operationId placement

end Sha256

end BloomRelay.Store
