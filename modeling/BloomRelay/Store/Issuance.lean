import BloomRelay.Store.Ops

/-!
# Concurrent challenge issuance (`bloom-relay-store`)

`create_bootstrap_challenge` in the two parts other transactions can come in between: the count under
the quota lock, and the insert with the commit that gives the lock back. Both read the start time of
the transaction. It is fixed before the lock is granted, so transactions may get the lock in another
order than they started in.
-/

namespace BloomRelay.Store

/-- A `create_bootstrap_challenge` transaction: its start time and its arguments. -/
structure CreateTx where
  now : Time
  nonce : String
  source : IpAddr
  deriving DecidableEq

namespace CreateTx

/-- What the transaction finds under the lock: the source or the relay is over quota. -/
def overQuota (tx : CreateTx) (db : Db) : Prop :=
  let rows := db.bootstrapChallenges.rows
  let localCount := (rows.filter fun c => c.sourceIp = tx.source ∧ tx.now < c.createdAt + minutes 1).length
  let globalCount := (rows.filter fun c => tx.now < c.createdAt + minutes 1).length
  let daily := (rows.filter fun c => c.sourceIp = tx.source ∧
    tx.now < c.createdAt + hours 24 + minutes 1 ∧
      (c.consumedAt.any fun t => tx.now < t + hours 24) = true).length
  localCount ≥ 10 ∨ globalCount ≥ 100 ∨ daily ≥ 20

instance (tx : CreateTx) (db : Db) : Decidable (tx.overQuota db) :=
  inferInstanceAs (Decidable (_ ∨ _ ∨ _))

/-- The challenge the transaction inserts. -/
def challenge (tx : CreateTx) : BootstrapChallenge :=
  ⟨tx.nonce, tx.source, tx.now + minutes 1, tx.now, none⟩

end CreateTx

/-- The two parts with nothing in between are the call. -/
theorem createBootstrapChallenge_eq (db : Db) (tx : CreateTx) :
    createBootstrapChallenge db tx.now tx.nonce tx.source =
      if tx.overQuota db then .ok (false, db)
      else (do
        let bootstrapChallenges ← Checked.found
          (db.bootstrapChallenges.insert? tx.challenge) .unavailable
        .ok (true, { db with bootstrapChallenges })) := rfl

/-- The database and the transaction that has the quota lock, if it is within quota. -/
structure Issuance where
  db : Db
  holder : Option CreateTx

inductive IssuanceAction where
  /-- A call of another operation. -/
  | call (call : Call)
  /-- The lock is granted to the transaction, and it counts. Over quota it ends there. -/
  | count (tx : CreateTx)
  /-- The transaction with the lock inserts its challenge and commits. -/
  | insert
  /-- The transaction with the lock fails. -/
  | rollback

namespace Issuance

section Sha256

variable (sha256 : Bytes → Bytes32)

/-- One step; `none` where it cannot be taken. -/
def step (s : Issuance) : IssuanceAction → Option Issuance
  | .call call =>
    match call.op with
    | .createBootstrapChallenge _ _ => none
    | _ => some { s with db := call.after sha256 s.db }
  | .count tx =>
    match s.holder with
    | some _ => none
    | none => if tx.overQuota s.db then some s else some { s with holder := some tx }
  | .insert => do
    let tx ← s.holder
    -- A nonce that is taken fails the insert: the transaction can only roll back.
    let bootstrapChallenges ← s.db.bootstrapChallenges.insert? tx.challenge
    some ⟨{ s.db with bootstrapChallenges }, none⟩
  | .rollback => do
    let _ ← s.holder
    some { s with holder := none }

/-- The runs from the migrated database. -/
abbrev Runs : List (Event Issuance IssuanceAction) → Issuance → Prop :=
  Run (fun s a t => step sha256 s a = some t) ⟨Db.migrated, none⟩

/-- The step is a call that consumes a challenge with the nonce, sent from the source. -/
def Consumes (nonce : String) (source : IpAddr) (e : Event Issuance IssuanceAction) : Prop :=
  ∃ call, e.label = .call call ∧ call.op = .consumeBootstrapChallenge nonce source ∧
    (call.exec sha256 e.src.db).map Prod.fst = .ok (.flag true)

end Sha256

/-- The transaction whose challenge the step issues. -/
def issued (e : Event Issuance IssuanceAction) : Option CreateTx :=
  match e.label with
  | .insert => e.src.holder
  | _ => none

/-- The challenges issued in a run that have the property. -/
def issuedCount (p : CreateTx → Bool) (tr : List (Event Issuance IssuanceAction)) : Nat :=
  (tr.filterMap issued).countP p

/-- Created in the minute after `w`. -/
def inWindow (w : Time) (tx : CreateTx) : Bool := w < tx.now ∧ tx.now ≤ w + minutes 1

/-- The start time of the transaction that takes the step. -/
def started (e : Event Issuance IssuanceAction) : Option Time :=
  match e.label with
  | .call call => some call.now
  | .count tx => some tx.now
  | .insert | .rollback => e.src.holder.map (·.now)

/-- The step is one of `create_bootstrap_challenge`. -/
def isCreate (e : Event Issuance IssuanceAction) : Bool :=
  match e.label with
  | .call _ => false
  | .count _ | .insert | .rollback => true

/-- The steps are taken at times of one clock, the latest first: no transaction takes a step before it
started, and no `create_bootstrap_challenge` takes one a day after it started. -/
def OpenLessThanADay (tr : List (Event Issuance IssuanceAction)) : Prop :=
  ∃ clock : List Time, clock.Pairwise (fun later earlier => earlier ≤ later) ∧
    List.Forall₂ (fun e time => ∀ start ∈ started e,
      start ≤ time ∧ (isCreate e = true → time < start + hours 24)) tr clock

end Issuance

end BloomRelay.Store
