import BloomRelay.Store.Ops

/-!
# The life of one installation

What the store is for, seen from one installation: an abstract state machine whose state is
everything the database holds about that installation, and whose steps are the few things that can
happen to it. `Store.Proofs.LifecycleProofs` shows that every transaction takes every installation
through one of these steps, so a property of an installation over whole runs is proved here, once per
kind of step.
-/

namespace BloomRelay.Store

open Protocol

/-- What the database holds about one installation. -/
@[ext] structure View where
  row : Option Installation
  credentials : List Credential
  lease : Option TunnelLease
  values : List ChallengeValue
  challenge : Option ChallengeState
  jobs : List OutboxRow

/-- The view of installation `i`. -/
def Db.view (db : Db) (i : Uuid) : View where
  row := db.installations.find? i
  credentials := db.credentials.rows.filter fun c => c.installationId = i
  lease := db.tunnelLeases.find? i
  values := valuesOf db i
  challenge := db.challengeState.find? i
  jobs := db.outbox.filter fun o => o.installationId = i

/-- What happened to an installation, as far as its generations, its account, its challenges and its
end go. -/
inductive Change where
  | claimed (generation : Nat)
  | issued (scope : BearerScope) (generation : Nat)
  | renewed (scope : BearerScope) (generation : Nat)
  | bound (accountUri : String)
  | relocated
  | retired
  | reconciled
  | other
  deriving DecidableEq

/-- The generation a change hands out. -/
def Change.generation? : Change → Option Nat
  | .claimed g | .issued _ g | .renewed _ g => some g
  | _ => none

/-- Marks the credentials that `p` selects as revoked. -/
def revokeIn (now : Time) (p : Credential → Bool) (cs : List Credential) : List Credential :=
  cs.map fun c => if p c then { c with revokedAt := some now } else c

/-- The lease after a rotation in `scope`: a rotated tunnel credential drops it. -/
def leaseAfterRotation (scope : BearerScope) (lease : Option TunnelLease) : Option TunnelLease :=
  if scope = .tunnel then none else lease

/-- A job of kind `kind` that has just been queued. -/
def NewJob (i : Uuid) (kind : JobKind) (o : OutboxRow) : Prop :=
  o.installationId = i ∧ o.kind = kind ∧ o.completedAt = none

/-- The challenge state row an ensure works on. -/
def challengeStateOr (i : Uuid) (s : Option ChallengeState) : ChallengeState := s.getD ⟨i, 0, none⟩

/-- The steps in the life of installation `i`. -/
inductive LifeStep (i : Uuid) : View → Change → View → Prop where
  /-- Nothing about this installation changed. -/
  | same (v : View) : LifeStep i v .other v
  /-- The installation was allocated. -/
  | allocated (v : View) (r : Installation) (o : OutboxRow) (hrow : v.row = none)
      (hid : r.installationId = i) (hstate : r.state = .pendingDns) (hgen : r.generation = 1)
      (hacme : r.acmeAccountUri = none) (ho : NewJob i .publishName o)
      (hvalid : placementOk r.placement = true) :
      LifeStep i v .other { v with row := some r, jobs := v.jobs ++ [o] }
  /-- The administrator issued a bearer: every live one of the scope is revoked. -/
  | issued (v : View) (r : Installation) (now : Time) (c : Credential) (hrow : v.row = some r)
      (hstate : r.state ≠ .retired) (hid : c.installationId = i)
      (hgen : c.generation = r.generation + 1) (hlive : c.revokedAt = none) :
      LifeStep i v (.issued c.scope c.generation) { v with
        row := some r.bump
        credentials :=
          revokeIn now (fun x => x.scope = c.scope ∧ x.revokedAt = none) v.credentials ++ [c]
        lease := leaseAfterRotation c.scope v.lease }
  /-- A bearer was renewed: the newest of its scope is revoked. -/
  | renewed (v : View) (r : Installation) (now : Time) (old c : Credential) (hrow : v.row = some r)
      (hstate : r.state = .dnsReady) (hold : old ∈ v.credentials) (hscope : old.scope = c.scope)
      (holdlive : old.revokedAt = none)
      (hnewest : ∀ n ∈ v.credentials, n.scope = old.scope → n.generation ≤ old.generation)
      (hid : c.installationId = i) (hgen : c.generation = r.generation + 1)
      (hlive : c.revokedAt = none) :
      LifeStep i v (.renewed c.scope c.generation) { v with
        row := some r.bump
        credentials :=
          revokeIn now (fun x => x.scope = c.scope ∧ x.generation = old.generation) v.credentials ++
            [c]
        lease := leaseAfterRotation c.scope v.lease }
  /-- An ACME account was bound, and the name is to be published. -/
  | acmeBound (v : View) (r : Installation) (uri : String) (o : OutboxRow) (hrow : v.row = some r)
      (hstate : r.state ≠ .retired) (ho : NewJob i .publishName o) :
      LifeStep i v (.bound uri)
        { v with row := some { r with acmeAccountUri := some uri }, jobs := v.jobs ++ [o] }
  /-- The serving records were observed. -/
  | dnsReady (v : View) (r : Installation) (hrow : v.row = some r)
      (hstate : r.state = .pendingDns) (hacme : r.acmeAccountUri ≠ none) :
      LifeStep i v .other { v with row := some { r with state := .dnsReady } }
  /-- A gateway took the lease. -/
  | claimed (v : View) (r : Installation) (l : TunnelLease) (hrow : v.row = some r)
      (hstate : r.state = .dnsReady) (hid : l.installationId = i)
      (hgateway : l.gatewayId = r.placement) (hgen : l.generation = r.generation + 1) :
      LifeStep i v (.claimed l.generation) { v with row := some r.bump, lease := some l }
  /-- The holder extended the lease. -/
  | leaseRenewed (v : View) (l : TunnelLease) (expiresAt : Time) (hlease : v.lease = some l) :
      LifeStep i v .other { v with lease := some { l with expiresAt := expiresAt } }
  /-- The installation was moved. -/
  | relocated (v : View) (r : Installation) (placement : String) (o : OutboxRow)
      (hrow : v.row = some r) (hstate : r.state = .dnsReady) (hplace : r.placement ≠ placement)
      (ho : NewJob i .publishName o) (hvalid : placementOk placement = true) :
      LifeStep i v .relocated { v with
        row := some { r with placement := placement, generation := r.generation + 1 }
        lease := none
        jobs := v.jobs ++ [o] }
  /-- The administrator retired the installation. -/
  | retired (v : View) (r : Installation) (now : Time) (o o' : OutboxRow) (hrow : v.row = some r)
      (hstate : r.state ≠ .retired) (ho : NewJob i .removeRecords o) (ho' : NewJob i .removeTxtAll o') :
      LifeStep i v .retired { v with
        row := some (r.retire now)
        lease := none
        values := []
        jobs := v.jobs ++ [o, o'] }
  /-- The sweep retired an allocation that never got ready; it deletes no lease and no value. -/
  | expired (v : View) (r : Installation) (now : Time) (o o' : OutboxRow) (hrow : v.row = some r)
      (hstate : r.state = .pendingDns) (ho : NewJob i .removeRecords o)
      (ho' : NewJob i .removeTxtAll o') :
      LifeStep i v .retired { v with row := some (r.retire now), jobs := v.jobs ++ [o, o'] }
  /-- A live challenge value was ensured again. -/
  | refreshed (v : View) (r : Installation) (txt : String) (expiresAt : Time)
      (hrow : v.row = some r) (hstate : r.state = .dnsReady)
      (hlive : ∃ x ∈ v.values, x.txtValue = txt) :
      LifeStep i v .other { v with
        values := v.values.map fun x => if x.txtValue = txt then { x with expiresAt := expiresAt } else x
        challenge := some (challengeStateOr i v.challenge) }
  /-- A challenge value joined the set. -/
  | valueAdded (v : View) (r : Installation) (now : Time) (x : ChallengeValue) (o : OutboxRow)
      (hrow : v.row = some r) (hstate : r.state = .dnsReady) (hid : x.installationId = i)
      (hnew : ∀ y ∈ v.values, now < y.expiresAt → y.txtValue ≠ x.txtValue)
      (hvalid : validateChallengeValue x.txtValue = .ok ())
      (hroom : (v.values.filter fun y => now < y.expiresAt).length < maxLiveChallengeValues)
      (hexp : x.expiresAt = now + challengeLifetime) (ho : NewJob i .reconcileTxt o) :
      LifeStep i v .other { v with
        values := (v.values.filter fun y => now < y.expiresAt) ++ [x]
        challenge := some (challengeStateOr i v.challenge).bump
        jobs := v.jobs ++ [o] }
  /-- The sweep dropped lapsed challenge values. -/
  | valuesLapsed (v : View) (now : Time) (o : OutboxRow)
      (hlapsed : ∃ x ∈ v.values, x.expiresAt ≤ now) (ho : NewJob i .reconcileTxt o) :
      LifeStep i v .other { v with
        values := v.values.filter fun y => now < y.expiresAt
        challenge := v.challenge.map ChallengeState.bump
        jobs := v.jobs ++ [o] }
  /-- The set's current revision was recorded as published. -/
  | reconciled (v : View) (s : ChallengeState) (hs : v.challenge = some s) :
      LifeStep i v .reconciled { v with challenge := some { s with readyRevision := some s.revision } }
  /-- The outcome of an attempt at a job was recorded. -/
  | jobRecorded (v : View) (f : OutboxRow → OutboxRow)
      (hf : ∀ o, (f o).id = o.id ∧ (f o).installationId = o.installationId ∧ (f o).kind = o.kind) :
      LifeStep i v .other { v with jobs := v.jobs.map f }

/-- The lives an installation can have from the migrated database on. -/
abbrev LifeRun (i : Uuid) : List (Event View Change) → View → Prop :=
  Run (LifeStep i) (Db.migrated.view i)

/-- The operation ID that a transaction looks up first. -/
def StoreOp.operationId? : StoreOp → Option Uuid
  | .issueBearer _ op _ _ _ | .renewBearer _ op _ _ _ _ | .retire _ op | .relocate _ op _ => some op
  | .allocate op _ _ _ _ => some op
  | _ => none

/-- The operation ID is not recorded yet, so that the transaction is not a replay. -/
def StoreOp.unrecorded (op : StoreOp) (db : Db) : Bool :=
  op.operationId?.all fun o => (db.operations.find? o).isNone

/-- What a successful transaction did to installation `i`; a replay did nothing. -/
def StoreOp.change (op : StoreOp) (db : Db) (reply : Reply) (i : Uuid) : Change :=
  if op.unrecorded db then
    match op, reply with
    | .claimTunnel id _ _, .generation g => if id = i then .claimed g else .other
    | .issueBearer id _ scope _ _, .receipt g _ =>
      if id = i then ((BearerScope.parse? scope).map (Change.issued · g)).getD .other else .other
    | .renewBearer id _ scope _ _ _, .receipt g _ =>
      if id = i then ((BearerScope.parse? scope).map (Change.renewed · g)).getD .other else .other
    | .registerAcmeAccount id uri, _ => if id = i then .bound uri else .other
    | .relocate id _ _, _ => if id = i then .relocated else .other
    | .retire id _, _ =>
      if id = i then
        if (db.installations.find? id).any (fun r => r.state ≠ .retired) then .retired else .other
      else .other
    | .expirePendingAllocation id, .flag b =>
      if id = i then if b then .retired else .other else .other
    | .markChallengeReconciled id _, .flag b =>
      if id = i then if b then .reconciled else .other else .other
    | _, _ => .other
  else .other

/-- What a call did to installation `i`; a refused call did nothing. -/
def Call.change (sha256 : Bytes → Bytes32) (call : Call) (db : Db) (i : Uuid) : Change :=
  match call.exec sha256 db with
  | .error _ => .other
  | .ok (reply, _) => call.op.change db reply i

end BloomRelay.Store
