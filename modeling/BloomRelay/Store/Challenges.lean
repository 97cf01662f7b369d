import BloomRelay.Store.Installations

/-!
# Challenge values and the outbox (`bloom-relay-store`)

The desired set of DNS-01 TXT values of an installation, its revision, and the jobs the DNS workers
claim. Only an installation's stored values and revision decide what a worker publishes.
-/

namespace BloomRelay.Store

open Protocol Checked

/-! ## Challenge values -/

/-- How long an ensured value lives. -/
def challengeLifetime : Nat := challengeValueLifetimeMs * 1000

/-- The row of a value that has not lapsed. -/
def liveValue (db : Db) (now : Time) (installationId : Uuid) (txtValue : String) :
    Option ChallengeValue :=
  (db.challengeValues.find? (installationId, txtValue)).filter fun v => now < v.expiresAt

/-- `UPDATE challenge_state SET … WHERE installation_id=$1`. -/
def Db.modifyChallengeState (db : Db) (installationId : Uuid) (f : ChallengeState → ChallengeState)
    (hf : ∀ s, (f s).installationId = s.installationId) : Db :=
  { db with challengeState := db.challengeState.modify installationId f hf }

/-- `revision=revision+1`. -/
def ChallengeState.bump (s : ChallengeState) : ChallengeState := { s with revision := s.revision + 1 }

@[simp] theorem ChallengeState.bump_installationId (s : ChallengeState) :
    s.bump.installationId = s.installationId := rfl

/-- Advances the set's revision, queues its reconciliation and audits the change. -/
def Db.challengeSetChanged (db : Db) (now : Time) (installationId : Uuid) (event : AuditEvent) :
    Db :=
  ((db.modifyChallengeState installationId ChallengeState.bump
    ChallengeState.bump_installationId).enqueue now installationId .reconcileTxt []).audit now installationId none event

/-- The credential that authenticated an ensure is still current. -/
def challengeCredentialCurrent (db : Db) (now : Time) (installationId : Uuid) (generation : Nat) :
    Bool :=
  db.credentials.rows.any fun c =>
    c.installationId = installationId ∧ c.scope = .dnsChallenge ∧
      (c.generation : Int) = i64OfU64 generation ∧ c.revokedAt = none ∧ now < c.expiresAt

/-- `INSERT INTO challenge_state(installation_id) … ON CONFLICT DO NOTHING`. -/
def Db.ensureChallengeState (db : Db) (installationId : Uuid) : Db :=
  { db with challengeState := db.challengeState.insertNew ⟨installationId, 0, none⟩ }

/-- `DELETE FROM challenge_values WHERE installation_id=$1 AND expires_at<=now()`. -/
def Db.dropLapsed (db : Db) (now : Time) (installationId : Uuid) : Db :=
  { db with
    challengeValues := db.challengeValues.deleteWhere fun v =>
      v.installationId = installationId ∧ v.expiresAt ≤ now }

/-- `UPDATE challenge_values SET expires_at=… WHERE installation_id=$1 AND txt_value=$2`. -/
def Db.refreshValue (db : Db) (installationId : Uuid) (txtValue : String) (expiresAt : Time) : Db :=
  { db with
    challengeValues := db.challengeValues.modify (installationId, txtValue)
      (fun v => { v with expiresAt := expiresAt }) (fun _ => rfl) }

/-- The value joins the set: lapsed values are dropped, and the change is recorded. -/
def addChallengeValue (db : Db) (now : Time) (installationId : Uuid) (txtValue : String) :
    Except StoreError Db := do
  require ((db.challengeValues.rows.filter fun v =>
    v.installationId = installationId ∧ now < v.expiresAt).length < maxLiveChallengeValues) .conflict
  let db ← (db.dropLapsed now installationId).insertChallengeValue
    ⟨installationId, txtValue, now + challengeLifetime, now⟩
  .ok (db.challengeSetChanged now installationId .challengeValueAdded)

/-- A live value is refreshed without changing the set; any other value joins it. -/
def storeChallengeValue (db : Db) (now : Time) (installationId : Uuid) (txtValue : String) :
    Except StoreError Db :=
  match liveValue db now installationId txtValue with
  | some _ => .ok (db.refreshValue installationId txtValue (now + challengeLifetime))
  | none => addChallengeValue db now installationId txtValue

/-- The revision that includes the value, and when it lapses. -/
def ensureChallengeValue (db : Db) (now : Time) (installationId : Uuid) (generation : Nat)
    (txtValue : String) : Except StoreError ((Nat × Nat) × Db) := do
  require (validateChallengeValue txtValue = .ok ()) .invalidRequest
  let _ ← found ((db.installations.find? installationId).filter (fun i => i.state = .dnsReady))
    .conflict
  require (challengeCredentialCurrent db now installationId generation = true) .unauthorized
  let db ← storeChallengeValue (db.ensureChallengeState installationId) now installationId txtValue
  let state ← found (db.challengeState.find? installationId) .unavailable
  .ok ((state.revision, epochMs (now + challengeLifetime)), db)

/-- The sweep's transaction for one installation; the answer says whether its set changed. -/
def expireChallengeValuesOf (db : Db) (now : Time) (installationId : Uuid) : Bool × Db :=
  if db.challengeValues.rows.any (fun v =>
      v.installationId = installationId ∧ v.expiresAt ≤ now) then
    (true, (db.dropLapsed now installationId).challengeSetChanged now installationId
      .challengeValueExpired)
  else (false, db)

/-- The installations a sweep at `now` starts with. -/
def lapsedInstallations (db : Db) (now : Time) (limit : Nat) : List Uuid :=
  (((db.challengeValues.rows.filter fun v => v.expiresAt ≤ now).map
    (·.installationId)).eraseDups).take limit

/-- Whether `txtValue` is live and the published set, at or after `revision`, has been observed. -/
def challengeValueReady (db : Db) (now : Time) (installationId : Uuid) (txtValue : String)
    (revision : Nat) : Except StoreError Bool := do
  require (revision < 2 ^ 63) .invalidRequest
  require (textOk txtValue = true) .unavailable
  match db.challengeState.find? installationId with
  | none => .ok false
  | some s => .ok (decide (liveValue db now installationId txtValue ≠ none ∧
      s.readyRevision = some s.revision ∧ revision ≤ s.revision))

/-- The stored values of an installation. -/
def valuesOf (db : Db) (installationId : Uuid) : List ChallengeValue :=
  db.challengeValues.rows.filter fun v => v.installationId = installationId

/-- The revision and the stored membership, in one snapshot. -/
def challengeTarget (db : Db) (installationId : Uuid) : Nat × List String :=
  (((db.challengeState.find? installationId).map (·.revision)).getD 0,
    ((valuesOf db installationId).map (·.txtValue)).mergeSort fun a b => decide (a ≤ b))

/-- Records that `revision` is published and observed; false when the set changed meanwhile. -/
def markChallengeReconciled (db : Db) (installationId : Uuid) (revision : Nat) : Bool × Db :=
  match (db.challengeState.find? installationId).filter
      (fun s => (s.revision : Int) = i64OfU64 revision) with
  | none => (false, db)
  | some _ =>
    (true, db.modifyChallengeState installationId
      (fun s => { s with readyRevision := some s.revision }) (fun _ => rfl))

/-! ## The outbox -/

inductive DnsJobScope where
  | serving
  | challenge
  deriving DecidableEq

/-- `job_allowed`, and the kinds `claim_job` selects for a scope. -/
def DnsJobScope.allows : DnsJobScope → JobKind → Bool
  | .serving, .publishName | .serving, .removeRecords => true
  | .challenge, .reconcileTxt | .challenge, .removeTxtAll => true
  | _, _ => false

/-- The condition under which `claim_job` selects a row that is not locked. -/
def claimable (db : Db) (now : Time) (placement : String) (scope : DnsJobScope) (o : OutboxRow) :
    Bool :=
  ((db.installations.find? o.installationId).filter fun i => i.placement = placement).isSome &&
    scope.allows o.kind && o.completedAt.isNone && o.nextAttemptAt ≤ now

/-- The write of `ClaimedJob::complete`. -/
def completeJob (db : Db) (now : Time) (id : Nat) : Db :=
  { db with
    outbox := db.outbox.map fun o => if o.id = id then { o with completedAt := some now } else o }

/-- The write of `ClaimedJob::defer`: 5 s after the first attempt, doubling to a 300 s cap. -/
def deferJob (db : Db) (now : Time) (id : Nat) : Db :=
  { db with
    outbox := db.outbox.map fun o =>
      if o.id = id then
        { o with
          attempts := o.attempts + 1
          nextAttemptAt := now + seconds (min 300 (5 * 2 ^ min 6 o.attempts)) }
      else o }

end BloomRelay.Store
