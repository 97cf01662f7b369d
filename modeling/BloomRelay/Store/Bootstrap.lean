import BloomRelay.Store.Schema

/-!
# Bootstrap challenges and replay nonces (`bloom-relay-store`)
-/

namespace BloomRelay.Store

open Checked

/-- Issues a challenge unless the source or the relay is over quota; the answer says which. -/
def createBootstrapChallenge (db : Db) (now : Time) (nonce : String) (source : IpAddr) :
    Except StoreError (Bool × Db) :=
  let rows := db.bootstrapChallenges.rows
  let localCount := (rows.filter fun c => c.sourceIp = source ∧ now < c.createdAt + minutes 1).length
  let globalCount := (rows.filter fun c => now < c.createdAt + minutes 1).length
  let daily := (rows.filter fun c => c.sourceIp = source ∧
    now < c.createdAt + hours 24 + minutes 1 ∧
      (c.consumedAt.any fun t => now < t + hours 24) = true).length
  if localCount ≥ 10 ∨ globalCount ≥ 100 ∨ daily ≥ 20 then .ok (false, db)
  else do
    let bootstrapChallenges ← found
      (db.bootstrapChallenges.insert? ⟨nonce, source, now + minutes 1, now, none⟩) .unavailable
    .ok (true, { db with bootstrapChallenges })

def consumeBootstrapChallenge (db : Db) (now : Time) (nonce : String) (source : IpAddr) :
    Bool × Db :=
  match (db.bootstrapChallenges.find? nonce).filter fun c =>
      c.sourceIp = source ∧ now < c.expiresAt ∧ c.consumedAt = none with
  | none => (false, db)
  | some _ =>
    (true, { db with
      bootstrapChallenges := db.bootstrapChallenges.modify nonce
        (fun c => { c with consumedAt := some now }) (fun _ => rfl) })

/-- The first statement of `prune_bootstrap_and_nonces`: challenge history older than two days. -/
def pruneBootstrap (db : Db) (now : Time) (limit : Nat) : Nat × Db :=
  let old := (((db.bootstrapChallenges.rows.filter fun c => c.createdAt + hours 48 < now).mergeSort
    fun a b => a.createdAt ≤ b.createdAt).take limit).map (·.nonce)
  (old.length, { db with
    bootstrapChallenges := db.bootstrapChallenges.deleteWhere fun c => old.contains c.nonce })

/-- The second statement of `prune_bootstrap_and_nonces`: expired replay nonces. -/
def pruneNonces (db : Db) (now : Time) (limit : Nat) : Nat × Db :=
  let old := (((db.usedNonces.rows.filter fun n => n.expiresAt < now).mergeSort
    fun a b => a.expiresAt ≤ b.expiresAt).take limit).map UsedNonce.key
  (old.length, { db with usedNonces := db.usedNonces.deleteWhere fun n => old.contains n.key })

/-- `INSERT INTO used_nonces … ON CONFLICT DO NOTHING`; the installation must exist (foreign key). -/
def consumeNonce (db : Db) (now : Time) (installationId : Uuid) (nonce : String) :
    Except StoreError (Bool × Db) :=
  if nonce.utf8ByteSize < 16 ∨ 128 < nonce.utf8ByteSize then .ok (false, db)
  else match db.usedNonces.insert? ⟨installationId, nonce, now + minutes 5⟩ with
    | none => .ok (false, db)
    | some usedNonces => do
      require ((db.installations.find? installationId).isSome = true) .unavailable
      .ok (true, { db with usedNonces })

end BloomRelay.Store
