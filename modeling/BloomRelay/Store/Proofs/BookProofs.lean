import BloomRelay.Store.Proofs.OpProofs

/-!
# Tables beside the installations

The bootstrap quota, the replay nonces, the CT monitor and the alerts about a lagging feed have tables of
their own. A transaction on one of them leaves the rest of the database as it is.
-/

namespace BloomRelay.Store

open Protocol Checked

variable {sha256 : Bytes → Bytes32} {store : StoreConfig} {db db' : Db} {now : Time} {op : StoreOp}

def StoreOp.writesBootstrap : StoreOp → Bool
  | .createBootstrapChallenge _ _ | .consumeBootstrapChallenge _ _ | .pruneBootstrap _ => true
  | _ => false

/-- The transactions that write replay nonces. -/
def StoreOp.writesNonces : StoreOp → Bool
  | .consumeNonce _ _ | .pruneNonces _ => true
  | _ => false

def StoreOp.writesCt : StoreOp → Bool
  | .ensureCtSource _ | .markCtFeedHealthy _ _ | .markCtAlertDelivered _
  | .recordExpectedCertificate _ _ | .observeCt _ _ _ _ => true
  | _ => false

/-- The transactions on the alerts about a lagging feed. -/
def StoreOp.writesLag : StoreOp → Bool
  | .queueCtLagAlert _ | .markCtLagAlertDelivered _ => true
  | _ => false

def StoreOp.writesBooks (op : StoreOp) : Bool :=
  op.writesBootstrap || op.writesNonces || op.writesCt || op.writesLag

/-- What a transaction on these tables leaves. -/
inductive Books (op : StoreOp) (db : Db) : Db → Prop where
  | unchanged : Books op db db
  | quota (hop : op.writesBootstrap = true) (t : Table BootstrapChallenge BootstrapChallenge.nonce) :
      Books op db { db with bootstrapChallenges := t }
  | nonces (hop : op.writesNonces = true) (t : Table UsedNonce UsedNonce.key) :
      Books op db { db with usedNonces := t }
  | monitor (hop : op.writesCt = true) (inventory : Table Certificate Certificate.key)
      (checkpoints : Table CtFeedCheckpoint CtFeedCheckpoint.source)
      (observations : Table CtObservation CtObservation.key) (alerts : Table CtAlert CtAlert.key)
      (audit : List AuditRow) (fence : Nat) (hfence : db.restoreFence < fence) :
      Books op db
        { db with
          certificateInventory := inventory
          ctFeedCheckpoints := checkpoints
          ctObservations := observations
          ctAlerts := alerts
          securityAudit := audit
          restoreFence := fence }
  | lag (t : Table CtHealthAlert CtHealthAlert.key) :
      Books op db ({ db with ctHealthAlerts := t } : Db).advanceFence

theorem ensureCheckpoint_eq (db : Db) (now : Time) (source : String) :
    ∃ t fence, db.restoreFence ≤ fence ∧
      db.ensureCheckpoint now source = { db with ctFeedCheckpoints := t, restoreFence := fence } := by
  obtain h | ⟨t, h⟩ := ensureCheckpoint_cases db now source
  · exact ⟨_, _, le_rfl, h⟩
  · exact ⟨t, _, Nat.le_succ _, h⟩

theorem recordObservation_eq {source : String} {position : Nat} {hostname fingerprint : String}
    {b : Bool} (h : recordObservation db now source position hostname fingerprint = .ok (b, db')) :
    ∃ checkpoints observations alerts audit fence, db.restoreFence < fence ∧
      db' = { db with
        ctFeedCheckpoints := checkpoints
        ctObservations := observations
        ctAlerts := alerts
        securityAudit := audit
        restoreFence := fence } := by
  obtain ⟨o, db₁, db₂, hins, halert, rfl⟩ := recordObservation_ok h
  obtain ⟨t, -, rfl⟩ := insertObservation_ok hins
  obtain rfl | halert := halert
  · exact ⟨_, _, _, _, _, Nat.lt_succ_self _, rfl⟩
  · obtain ⟨a, db₃, hins, hdb⟩ := raiseAlert_ok halert
    obtain ⟨t, -, rfl⟩ := insertAlert_ok hins
    obtain rfl | ⟨o, rfl⟩ := hdb
    · exact ⟨_, _, _, _, _, Nat.lt_add_of_pos_right two_pos, rfl⟩
    · exact ⟨_, _, _, _, _, Nat.lt_add_of_pos_right three_pos, rfl⟩

theorem books_of_transact {reply : Reply} (h : op.transact sha256 store now db = .ok (reply, db'))
    (hop : op.writesBooks = true) : Books op db db' := by
  cases op with
  | createBootstrapChallenge nonce source =>
    obtain ⟨b, htx, -⟩ := answer_ok.mp h
    obtain ⟨t, rfl⟩ := createBootstrapChallenge_ok htx
    exact .quota rfl t
  | consumeBootstrapChallenge nonce source =>
    simp only [StoreOp.transact, answer_total] at h
    obtain ⟨t, ht⟩ := consumeBootstrapChallenge_snd db now nonce source
    rw [h.2, ht]
    exact .quota rfl t
  | pruneBootstrap limit =>
    cases h
    exact .quota rfl _
  | pruneNonces limit =>
    cases h
    exact .nonces rfl _
  | consumeNonce id nonce =>
    obtain ⟨b, htx, -⟩ := answer_ok.mp h
    obtain ⟨-, rfl⟩ | ⟨t, -, -, rfl⟩ := consumeNonce_ok htx
    · exact .unchanged
    · exact .nonces rfl t
  | ensureCtSource source =>
    obtain ⟨u, htx, -⟩ := answer_ok.mp h
    rw [ensureCtSource_ok htx]
    obtain heq | ⟨t, heq⟩ := ensureCheckpoint_cases db now source
    · rw [heq]
      exact .unchanged
    · rw [heq]
      exact .monitor rfl _ _ _ _ _ _ (Nat.lt_succ_self _)
  | markCtFeedHealthy source position =>
    obtain ⟨u, htx, -⟩ := answer_ok.mp h
    rw [markCtFeedHealthy_ok htx]
    exact .monitor rfl _ _ _ _ _ _ (Nat.lt_succ_self _)
  | markCtAlertDelivered alert =>
    cases h
    obtain heq | ⟨t, heq⟩ := markCtAlertDelivered_cases db now alert
    · rw [heq]
      exact .unchanged
    · rw [heq]
      exact .monitor rfl _ _ _ _ _ _ (Nat.lt_succ_self _)
  | queueCtLagAlert source =>
    obtain ⟨u, htx, -⟩ := answer_ok.mp h
    obtain rfl | ⟨t, rfl⟩ := queueCtLagAlert_ok htx
    · exact .unchanged
    · exact .lag t
  | markCtLagAlertDelivered alert =>
    cases h
    obtain heq | ⟨t, heq⟩ := markCtLagAlertDelivered_cases db now alert
    · rw [heq]
      exact .unchanged
    · rw [heq]
      exact .lag t
  | recordExpectedCertificate id certificate =>
    obtain ⟨u, htx, -⟩ := answer_ok.mp h
    obtain ⟨row, -, -, rfl⟩ := recordExpectedCertificate_ok htx
    exact .monitor rfl _ _ _ _ _ _ (Nat.lt_succ_self _)
  | observeCt source position hostname fingerprint =>
    obtain ⟨b, htx, -⟩ := answer_ok.mp h
    obtain rfl | hrec := observeCt_ok htx
    · exact .unchanged
    · obtain ⟨_, _, hle, heq⟩ := ensureCheckpoint_eq db now source
      rw [heq] at hrec
      obtain ⟨_, _, _, _, _, hlt, rfl⟩ := recordObservation_eq hrec
      exact .monitor rfl _ _ _ _ _ _ (hle.trans_lt hlt)
  | _ => cases hop

end BloomRelay.Store
