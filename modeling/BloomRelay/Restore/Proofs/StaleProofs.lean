import BloomRelay.Restore.Stale
import BloomRelay.Restore.Proofs.WitnessProofs
import BloomRelay.Store.Proofs.EffectProofs

/-!
# When an operation below the witness is refused
-/

namespace BloomRelay.Restore

open Store Protocol Checked

variable {sha256 : Bytes → Bytes32} {store : StoreConfig} {db db' : Db} {now : Time} {id : Uuid}

/-! ## A transaction never reports the witness -/

/-- The computation does not end in a witness error. -/
def Plain {α : Type} (x : Except StoreError α) : Prop := ∀ msg, x ≠ .error (.witness msg)

namespace Plain

variable {α β : Type} {x : Except StoreError α}

theorem ok (a : α) : Plain (.ok a) := nofun

theorem bind {f : α → Except StoreError β} (hx : Plain x) (hf : ∀ a, Plain (f a)) :
    Plain (x >>= f) := by
  cases x with
  | error e => exact fun msg h => hx msg (by cases h; rfl)
  | ok a => exact hf a

theorem require {p : Prop} [Decidable p] {e : StoreError} (he : ∀ msg, e ≠ .witness msg) :
    Plain (Checked.require p e) := by
  unfold Checked.require
  split
  · exact ok ()
  · exact fun msg h => he msg (Except.error.inj h)

theorem found {o : Option α} {e : StoreError} (he : ∀ msg, e ≠ .witness msg) :
    Plain (Checked.found o e) := by
  cases o with
  | none => exact fun msg h => he msg (Except.error.inj h)
  | some a => exact ok a

theorem answer {f : α → Reply} {r : Except StoreError (α × Db)} (h : Plain r) :
    Plain (Store.answer f r) := by
  cases r with
  | error e => exact fun msg he => h msg (by cases he; rfl)
  | ok a => exact ok _

theorem insertOperation {o : Store.Operation} : Plain (db.insertOperation o) :=
  bind (found nofun) fun _ => ok _

theorem storeCredential {operationId : Uuid} {kind : OperationKind} {digest : Bytes32}
    {c : Credential} {auditOperation : Option Uuid} {event : AuditEvent} :
    Plain (db.storeCredential now operationId kind digest c auditOperation event) :=
  bind (bind (found nofun) fun _ => ok _) fun _ => bind insertOperation fun _ => ok _

theorem replayReceipt {existing : Store.Operation} {kind : OperationKind} {digest : Bytes32}
    {fresh : Bool} : Plain (Store.replayReceipt existing id kind digest fresh) :=
  bind (require nofun) fun _ => found nofun

theorem validateSource {source : String} : Plain (Store.validateSource source) := require nofun

theorem validateFingerprint {fingerprint : String} : Plain (Store.validateFingerprint fingerprint) :=
  require nofun

end Plain

theorem transact_plain (op : StoreOp) : Plain (op.transact sha256 store now db) := by
  cases op with
  | createBootstrapChallenge nonce source =>
    refine .answer ?_
    unfold Store.createBootstrapChallenge
    dsimp only
    split
    · exact .ok _
    · exact .bind (.found (by simp)) fun _ => .ok _
  | consumeBootstrapChallenge | markChallengeReconciled | renewTunnel | expirePendingAllocation
  | expireChallengeValuesOf => exact .answer (.ok _)
  | pruneBootstrap | pruneNonces | completeJob | deferJob | markCtAlertDelivered
  | markCtLagAlertDelivered => exact .ok _
  | consumeNonce id nonce =>
    refine .answer ?_
    unfold Store.consumeNonce
    split
    · exact .ok _
    · split
      · exact .ok _
      · exact .bind (.require (by simp)) fun _ => .ok _
  | issueBearer id operationId scope tokenHash validity =>
    refine .answer (.bind (.bind (.found (by simp)) fun _ => .bind (.require (by simp)) fun _ =>
      .ok _) fun s => ?_)
    split
    · exact .bind .replayReceipt fun _ => .ok _
    · exact .bind (.found (by simp)) fun _ => .storeCredential
  | renewBearer id operationId scope generation token newTokenHash =>
    refine .answer (.bind (.bind (.found (by simp)) fun _ => .bind (.require (by simp)) fun _ =>
      .ok _) fun s => ?_)
    split
    · exact .bind .replayReceipt fun _ => .ok _
    · exact .bind (.found (by simp)) fun _ => .bind (.require (by simp)) fun _ =>
        .bind (.found (by simp)) fun _ => .storeCredential
  | registerAcmeAccount id uri =>
    exact .answer (.bind (.require (by simp)) fun _ => .bind (.found (by simp)) fun _ => .ok _)
  | markDnsReady id =>
    refine .answer ?_
    unfold Store.markDnsReady
    split
    · exact .ok _
    · exact .ok _
  | ensureChallengeValue id generation txt =>
    refine .answer (.bind (.require (by simp)) fun _ => .bind (.found (by simp)) fun _ =>
      .bind (.require (by simp)) fun _ => .bind ?_ fun _ => .bind (.found (by simp)) fun _ => .ok _)
    unfold storeChallengeValue
    split
    · exact .ok _
    · exact .bind (.require (by simp)) fun _ => .bind (.bind (.found (by simp)) fun _ => .ok _) fun _ => .ok _
  | allocate operationId key placement id random =>
    refine .answer (.bind (.require (by simp)) fun _ => ?_)
    split
    · exact .bind (.bind (.require (by simp)) fun _ => .ok _) fun _ => .ok _
    · exact .bind (.bind (.require (by simp)) fun _ => .bind (.found (by simp)) fun _ => .ok _) fun _ =>
        .bind (.bind (.found (by simp)) fun _ => .ok _) fun _ => .bind .insertOperation fun _ => .ok _
  | claimTunnel id gatewayId ttlSeconds =>
    exact .answer (.bind (.require (by simp)) fun _ => .bind (.found (by simp)) fun _ => .ok _)
  | retire id operationId =>
    refine .answer ?_
    unfold Store.retire
    split
    · exact .bind (.require (by simp)) fun _ => .ok _
    · exact .bind (.require (by simp)) fun _ => .bind .insertOperation fun _ => .ok _
  | relocate id operationId placement =>
    refine .answer (.bind (.require (by simp)) fun _ => ?_)
    split
    · exact .bind (.require (by simp)) fun _ => .ok _
    · exact .bind (.found (by simp)) fun _ => .bind .insertOperation fun _ => .ok _
  | ensureCtSource source => exact .answer (.bind .validateSource fun _ => .ok _)
  | markCtFeedHealthy source position =>
    exact .answer (.bind .validateSource fun _ => .bind (.found (by simp)) fun _ => .ok _)
  | queueCtLagAlert source =>
    refine .answer (.bind .validateSource fun _ => ?_)
    split
    · exact .ok _
    · split
      · exact .ok _
      · exact .ok _
  | recordExpectedCertificate id certificate =>
    exact .answer (.bind (.require (by simp)) fun _ => .bind .validateFingerprint fun _ =>
      .bind (.require (by simp)) fun _ => .bind (.found (by simp)) fun _ => .bind (.require (by simp)) fun _ =>
        .bind (.require (by simp)) fun _ => .ok _)
  | observeCt source position hostname fingerprint =>
    refine .answer (.bind (.require (by simp)) fun _ => .bind .validateFingerprint fun _ =>
      .bind .validateSource fun _ => .bind (.require (by simp)) fun _ => .bind (.found (by simp)) fun _ => ?_)
    split
    · exact .bind (.found (by simp)) fun _ => .bind (.require (by simp)) fun _ => .ok _
    · refine .bind (.require (by simp)) fun _ =>
        .bind (.bind (.found (by simp)) fun _ => .ok _) fun _ => .bind ?_ fun _ => .ok _
      split
      · exact .ok _
      · refine .bind (.bind (.found (by simp)) fun _ => .ok _) fun _ => ?_
        split
        · exact .ok _
        · exact .ok _

theorem exec_plain (call : Call) : Plain (call.exec sha256 db) := by
  intro msg h
  unfold Call.exec at h
  split at h
  · split at h
    · cases h
    · cases h
  · rename_i e htx
    cases h
    exact transact_plain call.op msg htx

/-! ## Transactions with nothing to write -/

theorem ne_of_fence_lt (h : db.restoreFence < db'.restoreFence) : db' ≠ db := by
  rintro rfl
  exact lt_irrefl _ h

theorem replayReceipt_isOk {existing : Store.Operation} {kind : OperationKind} {digest : Bytes32}
    {fresh : Bool} :
    (∃ r, replayReceipt existing id kind digest fresh = .ok r) ↔
      repeatsReceipt existing id kind digest ∧ fresh = true := by
  simp only [replayReceipt, bind_eq_ok, require_eq_ok, found_eq_ok, repeatsReceipt,
    Option.isSome_iff_exists]
  constructor
  · rintro ⟨r, -, ⟨hid, hkind, hdigest, hfresh⟩, hr⟩
    exact ⟨⟨hid, hkind, hdigest, r, hr⟩, hfresh⟩
  · rintro ⟨⟨hid, hkind, hdigest, r, hr⟩, hfresh⟩
    exact ⟨r, (), ⟨hid, hkind, hdigest, hfresh⟩, hr⟩

theorem issueBearer_unchanged {operationId : Uuid} {scope : String} {tokenHash : Bytes32}
    {validity : Int} :
    (∃ r, issueBearer sha256 store db now id operationId scope tokenHash validity = .ok (r, db)) ↔
      WritesNothing sha256 now db (.issueBearer id operationId scope tokenHash validity) := by
  simp only [issueBearer, bind_eq_ok, issueScope_eq_ok, WritesNothing]
  constructor
  · rintro ⟨r, s, ⟨hs, hv⟩, h⟩
    refine ⟨hv, s, ?_⟩
    cases hop : db.operations.find? operationId with
    | some existing =>
      simp only [hop, bind_eq_ok, Except.ok.injEq, Prod.mk.injEq, and_true] at h
      obtain ⟨r', hr, -⟩ := h
      exact ⟨existing, hs, rfl, (replayReceipt_isOk.mp ⟨r', hr⟩).1⟩
    | none =>
      simp only [hop] at h
      obtain ⟨row, -, -, hstore⟩ := issueBearerTx_ok h
      obtain ⟨-, -, -, -, hfence⟩ := storeCredential_frame hstore
      exact absurd hfence (Nat.succ_ne_self _).symm
  · rintro ⟨hv, s, existing, hs, hop, hrepeat⟩
    obtain ⟨r, hr⟩ := replayReceipt_isOk.mpr ⟨hrepeat, rfl⟩
    refine ⟨r, s, ⟨hs, hv⟩, ?_⟩
    simp only [hop, bind_eq_ok, Except.ok.injEq, Prod.mk.injEq, and_true]
    exact ⟨r, hr, rfl⟩

theorem renewBearer_unchanged {operationId : Uuid} {scope : String} {generation : Nat}
    {token : String} {newTokenHash : Bytes32} :
    (∃ r, renewBearer sha256 store db now id operationId scope generation token newTokenHash =
        .ok (r, db)) ↔
      WritesNothing sha256 now db
        (.renewBearer id operationId scope generation token newTokenHash) := by
  simp only [renewBearer, bind_eq_ok, renewScope_eq_ok, WritesNothing]
  constructor
  · rintro ⟨r, s, ⟨hs, hv⟩, h⟩
    refine ⟨hv, s, ?_⟩
    cases hop : db.operations.find? operationId with
    | some existing =>
      simp only [hop, bind_eq_ok, Except.ok.injEq, Prod.mk.injEq, and_true] at h
      obtain ⟨r', hr, -⟩ := h
      obtain ⟨hrepeat, hfresh⟩ := replayReceipt_isOk.mp ⟨r', hr⟩
      exact ⟨existing, hs, rfl, by simpa using hfresh, hrepeat⟩
    | none =>
      simp only [hop] at h
      obtain ⟨row, _, -, -, -, hstore⟩ := renewBearerTx_ok h
      obtain ⟨-, -, -, -, hfence⟩ := storeCredential_frame hstore
      exact absurd hfence (Nat.succ_ne_self _).symm
  · rintro ⟨hv, s, existing, hs, hop, hfresh, hrepeat⟩
    obtain ⟨r, hr⟩ := replayReceipt_isOk.mpr ⟨hrepeat, decide_eq_true hfresh⟩
    refine ⟨r, s, ⟨hs, hv⟩, ?_⟩
    simp only [hop, bind_eq_ok, Except.ok.injEq, Prod.mk.injEq, and_true]
    exact ⟨r, hr, rfl⟩

theorem allocate_unchanged {operationId : Uuid} {key : Bytes32} {placement : String}
    {random : BitVec 128} :
    (∃ a, allocate db now operationId key placement id random = .ok (a, db)) ↔
      WritesNothing sha256 now db (.allocate operationId key placement id random) := by
  simp only [allocate, bind_eq_ok, require_eq_ok, WritesNothing]
  constructor
  · rintro ⟨a, -, hp, h⟩
    refine ⟨hp, ?_⟩
    cases hfound : db.allocated? operationId with
    | some i =>
      obtain ⟨o, ho, hi⟩ := Option.bind_eq_some_iff.mp hfound
      simp only [hfound, bind_eq_ok, allocateReplay_eq_ok] at h
      obtain ⟨-, ⟨hsame, -⟩, -⟩ := h
      exact ⟨o, i, ho, hi, hsame⟩
    | none =>
      simp only [hfound] at h
      obtain ⟨db₁, db₂, db₃, h₁, h₂, h₃, hdb⟩ := allocateTx_ok h
      obtain ⟨-, t, -, rfl⟩ := insertInstallation_ok h₁
      obtain ⟨t', -, rfl⟩ := insertReservation_ok h₂
      obtain ⟨t'', -, rfl⟩ := insertOperation_ok h₃
      exact absurd hdb.symm (ne_of_fence_lt (Nat.lt_succ_self _))
  · rintro ⟨hp, o, i, ho, hi, hkey, hplacement⟩
    have hfound : db.allocated? operationId = some i := Option.bind_eq_some_iff.mpr ⟨o, ho, hi⟩
    refine ⟨i.allocation, (), hp, ?_⟩
    simp only [hfound, bind_eq_ok, allocateReplay_eq_ok]
    exact ⟨_, ⟨⟨hkey, hplacement⟩, rfl⟩, rfl⟩

theorem retire_unchanged {operationId : Uuid} :
    (∃ u, retire sha256 db now id operationId = .ok (u, db)) ↔
      WritesNothing sha256 now db (.retire id operationId) := by
  constructor
  · rintro ⟨u, h⟩
    obtain ⟨hop, -⟩ | ⟨hnone, -, hins⟩ := retire_ok h
    · obtain ⟨existing, hex⟩ := Option.ne_none_iff_exists'.mp hop
      simp only [retire, hex, retireReplay, bind_eq_ok, require_eq_ok] at h
      obtain ⟨-, hsame, -⟩ := h
      exact ⟨existing, hex, hsame⟩
    · -- the operation is recorded even when the installation was retired before
      obtain ⟨t, ht, hdb⟩ := insertOperation_ok hins
      have hops : db.operations = t := congrArg Db.operations hdb
      have hrecorded := Table.find?_insert?_self ht
      rw [← hops, hnone] at hrecorded
      cases hrecorded
  · rintro ⟨existing, hex, hsame⟩
    refine ⟨(), ?_⟩
    simp only [retire, hex, retireReplay, bind_eq_ok, require_eq_ok]
    exact ⟨(), hsame, trivial⟩

theorem relocate_unchanged {operationId : Uuid} {placement : String} :
    (∃ u, relocate sha256 db now id operationId placement = .ok (u, db)) ↔
      WritesNothing sha256 now db (.relocate id operationId placement) := by
  constructor
  · rintro ⟨u, h⟩
    have hplacement : placementOk placement = true := by
      simp only [relocate, bind_eq_ok, require_eq_ok] at h
      exact h.choose_spec.1
    obtain ⟨hop, -⟩ | ⟨-, -, row, -, -, -, hins⟩ := relocate_ok h
    · obtain ⟨existing, hex⟩ := Option.ne_none_iff_exists'.mp hop
      simp only [relocate, hex, relocateReplay, bind_eq_ok, require_eq_ok] at h
      obtain ⟨-, -, -, hsame, -⟩ := h
      exact ⟨hplacement, existing, hex, hsame⟩
    · obtain ⟨t, -, hdb⟩ := insertOperation_ok hins
      exact absurd hdb.symm (ne_of_fence_lt (Nat.lt_succ_self _))
  · rintro ⟨hplacement, existing, hex, hsame⟩
    refine ⟨(), ?_⟩
    simp only [relocate, hex, relocateReplay, bind_eq_ok, require_eq_ok]
    exact ⟨(), hplacement, (), hsame, trivial⟩

theorem markDnsReady_unchanged :
    (∃ u, markDnsReady db now id = .ok (u, db)) ↔ WritesNothing sha256 now db (.markDnsReady id) := by
  constructor
  · rintro ⟨u, h⟩ i hi ⟨hstate, huri⟩
    unfold markDnsReady at h
    split at h
    · rename_i hupd
      simpa [hstate, huri] using updateInstallation_eq_none hupd hi
    · rename_i row db₁ hupd
      obtain ⟨_, -, -, -, rfl⟩ := updateInstallation_eq_some hupd
      simp only [Except.ok.injEq, Prod.mk.injEq] at h
      exact absurd h.2 (ne_of_fence_lt (Nat.lt_succ_self _))
  · intro hnone
    refine ⟨(), ?_⟩
    have hupd : db.updateInstallation id (fun i => i.state = .pendingDns ∧ i.acmeAccountUri ≠ none)
        (fun i => { i with state := .dnsReady }) (fun _ => rfl) = none := by
      unfold Db.updateInstallation
      split
      · rfl
      · rename_i i hi
        rw [if_neg (by simpa using hnone i hi)]
    simp only [markDnsReady, hupd]

theorem challengeLifetime_pos : 0 < challengeLifetime := by decide

theorem ensureChallengeValue_unchanged {generation : Nat} {txt : String} :
    (∃ r, ensureChallengeValue db now id generation txt = .ok (r, db)) ↔
      WritesNothing sha256 now db (.ensureChallengeValue id generation txt) := by
  constructor
  · rintro ⟨r, h⟩
    obtain ⟨hvalid, hcred, row, hrow, hready, ⟨v, hlive, hdb⟩ | ⟨-, hadd⟩⟩ :=
      ensureChallengeValue_ok h
    · have hstate : db.challengeState = db.challengeState.insertNew ⟨id, 0, none⟩ :=
        congrArg Db.challengeState hdb
      have hvalues : db.challengeValues = db.challengeValues.modify (id, txt)
          (fun v => { v with expiresAt := now + challengeLifetime }) (fun _ => rfl) :=
        congrArg Db.challengeValues hdb
      obtain ⟨hfind, -⟩ := liveValue_eq_some.mp hlive
      refine ⟨hvalid, ⟨row, hrow, hready⟩, hcred, ?_, v, hfind, ?_⟩
      · rw [hstate]
        simp [Table.find?_insertNew_self db.challengeState ⟨id, 0, none⟩]
      · have hsame : db.challengeValues.find? (id, txt) = _ := congrArg (·.find? (id, txt)) hvalues
        rw [hfind, Table.find?_modify_self, hfind] at hsame
        have hv : v = { v with expiresAt := now + challengeLifetime } := by simpa using hsame
        exact congrArg ChallengeValue.expiresAt hv
    · obtain ⟨-, db₁, hins, hdb⟩ := addChallengeValue_ok hadd
      obtain ⟨t, -, rfl⟩ := insertChallengeValue_ok hins
      exact absurd hdb.symm (ne_of_fence_lt (Nat.lt_succ_self _))
  · rintro ⟨hvalid, ⟨i, hi, hready⟩, hcred, hstate, v, hfind, hexpires⟩
    have hlive : liveValue db now id txt = some v :=
      liveValue_eq_some.mpr ⟨hfind, hexpires ▸ Nat.lt_add_of_pos_right challengeLifetime_pos⟩
    obtain ⟨s, hs⟩ := Option.isSome_iff_exists.mp hstate
    have hensure : db.ensureChallengeState id = db := by
      have := Table.insertNew_of_find? db.challengeState (r := ⟨id, 0, none⟩) (by rw [hs]; simp)
      simp only [Db.ensureChallengeState, this]
    have hrefresh : db.refreshValue id txt (now + challengeLifetime) = db := by
      have := Table.modify_eq_self db.challengeValues (k := (id, txt))
        (f := fun v => { v with expiresAt := now + challengeLifetime }) (fun _ => rfl) (by
          intro r hr
          rw [hfind] at hr
          cases hr
          rw [← hexpires])
      simp only [Db.refreshValue, this]
    have hfilter : (db.installations.find? id).filter (fun i => i.state = .dnsReady) = some i := by
      simp [hi, hready]
    refine ⟨(s.revision, epochMs (now + challengeLifetime)), ?_⟩
    simp only [ensureChallengeValue, bind_eq_ok, require_eq_ok, found_eq_ok]
    refine ⟨(), hvalid, i, hfilter, (), hcred, db, ?_, s, hs, rfl⟩
    simp only [hensure, storeChallengeValue, hlive, hrefresh]

theorem expireChallengeValuesOf_unchanged :
    (expireChallengeValuesOf db now id).2 = db ↔
      WritesNothing sha256 now db (.expireChallengeValuesOf id) := by
  constructor
  · intro h v hv hid
    by_contra hlapsed
    have hany : db.challengeValues.rows.any (fun v =>
        v.installationId = id ∧ v.expiresAt ≤ now) = true := by
      simp only [List.any_eq_true, decide_eq_true_eq]
      exact ⟨v, hv, hid, Nat.not_lt.mp hlapsed⟩
    simp only [expireChallengeValuesOf, hany, if_true] at h
    exact absurd h (ne_of_fence_lt (Nat.lt_succ_self _))
  · intro hnone
    obtain heq | ⟨⟨v, hv, hid, hle⟩, -⟩ := expireChallengeValuesOf_cases db now id
    · rw [heq]
    · exact absurd (hnone v hv hid) (Nat.not_lt.mpr hle)

theorem ensureCheckpoint_unchanged (now : Time) {source : String} :
    db.ensureCheckpoint now source = db ↔ (db.ctFeedCheckpoints.find? source).isSome = true := by
  unfold Db.ensureCheckpoint
  split
  · rename_i hnone
    have hfound : db.ctFeedCheckpoints.find? source ≠ none := (Table.insert?_eq_none_iff _).mp hnone
    simpa [Option.isSome_iff_ne_none] using hfound
  · rename_i t hsome
    have hnone : db.ctFeedCheckpoints.find? source = none :=
      ((Table.insert?_eq_some_iff _).mp hsome).1
    simp only [hnone, Option.isSome_none, Bool.false_eq_true, iff_false]
    exact ne_of_fence_lt (Nat.lt_succ_self _)

theorem ensureCtSource_unchanged {source : String} :
    (∃ u, ensureCtSource db now source = .ok (u, db)) ↔
      WritesNothing sha256 now db (.ensureCtSource source) := by
  simp only [ensureCtSource, bind_eq_ok, Except.ok.injEq, Prod.mk.injEq, WritesNothing,
    ← ensureCheckpoint_unchanged now]
  constructor
  · rintro ⟨_, _, hsource, _, hdb⟩
    exact ⟨hsource, hdb⟩
  · rintro ⟨hsource, hdb⟩
    exact ⟨(), (), hsource, trivial, hdb⟩

theorem markCtAlertDelivered_unchanged {alert : Nat} :
    markCtAlertDelivered db now alert = db ↔
      WritesNothing sha256 now db (.markCtAlertDelivered alert) := by
  unfold markCtAlertDelivered
  split
  · rename_i hany
    simp only [List.any_eq_true, decide_eq_true_eq] at hany
    obtain ⟨a, ha, hid, hpending⟩ := hany
    refine ⟨fun h => absurd h (ne_of_fence_lt (Nat.lt_succ_self _)), fun h => ?_⟩
    exact absurd hpending (h a ha hid)
  · rename_i hany
    refine ⟨fun _ a ha hid hpending => hany ?_, fun _ => rfl⟩
    simp only [List.any_eq_true, decide_eq_true_eq]
    exact ⟨a, ha, hid, hpending⟩

theorem markCtLagAlertDelivered_unchanged {alert : Nat} :
    markCtLagAlertDelivered db now alert = db ↔
      WritesNothing sha256 now db (.markCtLagAlertDelivered alert) := by
  unfold markCtLagAlertDelivered
  split
  · rename_i hany
    simp only [List.any_eq_true, decide_eq_true_eq] at hany
    obtain ⟨a, ha, hid, hpending⟩ := hany
    refine ⟨fun h => absurd h (ne_of_fence_lt (Nat.lt_succ_self _)), fun h => ?_⟩
    exact absurd hpending (h a ha hid)
  · rename_i hany
    refine ⟨fun _ a ha hid hpending => hany ?_, fun _ => rfl⟩
    simp only [List.any_eq_true, decide_eq_true_eq]
    exact ⟨a, ha, hid, hpending⟩

theorem queueCtLagAlert_unchanged {source : String} :
    (∃ u, queueCtLagAlert db now source = .ok (u, db)) ↔
      WritesNothing sha256 now db (.queueCtLagAlert source) := by
  simp only [queueCtLagAlert, bind_eq_ok, WritesNothing]
  constructor
  · rintro ⟨_, _, hsource, h⟩
    refine ⟨hsource, fun c hc hlag => ?_⟩
    have hfilter : (db.ctFeedCheckpoints.find? source).filter
        (fun c => c.observedAt + minutes 15 < now) = some c := by simp [hc, hlag]
    simp only [hfilter] at h
    split at h
    · rename_i hnone
      exact Option.isSome_iff_ne_none.mpr ((Table.insert?_eq_none_iff _).mp hnone)
    · simp only [Except.ok.injEq, Prod.mk.injEq] at h
      exact absurd h.2 (ne_of_fence_lt (Nat.lt_succ_self _))
  · rintro ⟨hsource, h⟩
    refine ⟨(), (), hsource, ?_⟩
    split
    · rfl
    · rename_i c hc
      obtain ⟨hfind, hlag⟩ := Option.filter_eq_some_iff.mp hc
      have htaken := h c hfind (by simpa using hlag)
      split
      · rfl
      · rename_i t ht
        have hnone := ((Table.insert?_eq_some_iff _).mp ht).1
        rw [hnone] at htaken
        cases htaken

theorem observeCt_unchanged {source : String} {position : Nat} {hostname fingerprint : String} :
    (∃ b, observeCt db now source position hostname fingerprint = .ok (b, db)) ↔
      WritesNothing sha256 now db (.observeCt source position hostname fingerprint) := by
  simp only [observeCt, bind_eq_ok, found_eq_ok, require_eq_ok, WritesNothing]
  constructor
  · rintro ⟨b, _, hhost, _, hprint, _, hsource, _, ⟨hpos, hlt⟩, c, hc, h⟩
    refine ⟨hhost, hprint, hsource, hpos, hlt, ?_⟩
    split at h
    · rename_i hle
      simp only [bind_eq_ok, found_eq_ok, require_eq_ok] at h
      obtain ⟨previous, hprev, -, hsame, -⟩ := h
      -- a checkpoint that was just inserted is at position 0
      cases hins : db.ctFeedCheckpoints.insert? ⟨source, 0, now⟩ with
      | none =>
        simp only [Db.ensureCheckpoint, hins] at hc hprev
        exact ⟨c, previous, hc, hle, hprev, hsame⟩
      | some t =>
        simp only [Db.ensureCheckpoint, hins, Db.advanceFence] at hc
        have hnew := Table.find?_insert?_self hins
        rw [hc] at hnew
        cases hnew
        exact absurd hle (by simp only; omega)
    · simp only [bind_eq_ok, require_eq_ok] at h
      obtain ⟨-, -, h⟩ := h
      obtain ⟨_, _, hle, heq⟩ := ensureCheckpoint_eq db now source
      rw [heq] at h
      obtain ⟨_, _, _, _, fence, hlt, hdb⟩ := recordObservation_eq h
      have hfence : db.restoreFence = fence := congrArg Db.restoreFence hdb
      exact absurd (hle.trans_lt hlt) (hfence ▸ lt_irrefl fence)
  · rintro ⟨hhost, hprint, hsource, hpos, hlt, c, previous, hc, hle, hprev, hsame⟩
    have hensure : db.ensureCheckpoint now source = db :=
      (ensureCheckpoint_unchanged now).mpr (by rw [hc]; rfl)
    refine ⟨previous.expected, (), hhost, (), hprint, (), hsource, (), ⟨hpos, hlt⟩, c, ?_, ?_⟩
    · rw [hensure]
      exact hc
    · rw [if_pos hle]
      simp only [bind_eq_ok, found_eq_ok, require_eq_ok, hensure]
      exact ⟨previous, hprev, (), hsame, rfl⟩

/-! ## All of them -/

/-- The answer of an operation that always acknowledges says nothing about what it wrote. -/
theorem acknowledged_unchanged {α : Type} {op : StoreOp} {f : α → Reply}
    {r : Except StoreError (α × Db)} {Q : Prop}
    (htx : op.transact sha256 store now db = answer f r)
    (hack : ∀ reply, acknowledges op reply = true) (h : (∃ a, r = .ok (a, db)) ↔ Q) :
    (∃ reply, op.transact sha256 store now db = .ok (reply, db) ∧ acknowledges op reply = true) ↔
      Q := by
  rw [← h]
  constructor
  · rintro ⟨reply, hok, -⟩
    obtain ⟨a, ha, -⟩ := answer_ok.mp (htx.symm.trans hok)
    exact ⟨a, ha⟩
  · rintro ⟨a, ha⟩
    exact ⟨f a, htx.trans (answer_ok.mpr ⟨a, ha, rfl⟩), hack _⟩

/-- An operation that always advances the fence. -/
theorem advancing_unchanged {op : StoreOp}
    (h : ∀ reply db', op.transact sha256 store now db = .ok (reply, db') →
      acknowledges op reply = true → db.restoreFence < db'.restoreFence) :
    (∃ reply, op.transact sha256 store now db = .ok (reply, db) ∧ acknowledges op reply = true) ↔
      False := by
  refine ⟨?_, False.elim⟩
  rintro ⟨reply, htx, hack⟩
  exact lt_irrefl _ (h reply db htx hack)

/-- Among the operations that can advance the fence, and write before they check, exactly these
succeed and acknowledge with the database as it was. -/
theorem transact_unchanged (store : StoreConfig) {op : StoreOp} (hfenced : fenced op = true)
    (hfirst : verifiesFirst op = false) :
    (∃ reply, op.transact sha256 store now db = .ok (reply, db) ∧ acknowledges op reply = true) ↔
      WritesNothing sha256 now db op := by
  cases op with
  | createBootstrapChallenge | consumeBootstrapChallenge | pruneBootstrap | pruneNonces
  | consumeNonce | markChallengeReconciled | renewTunnel => cases hfenced
  | completeJob | deferJob => cases hfirst
  | issueBearer => exact acknowledged_unchanged rfl (fun _ => rfl) issueBearer_unchanged
  | renewBearer => exact acknowledged_unchanged rfl (fun _ => rfl) renewBearer_unchanged
  | allocate => exact acknowledged_unchanged rfl (fun _ => rfl) allocate_unchanged
  | retire => exact acknowledged_unchanged rfl (fun _ => rfl) retire_unchanged
  | relocate => exact acknowledged_unchanged rfl (fun _ => rfl) relocate_unchanged
  | markDnsReady => exact acknowledged_unchanged rfl (fun _ => rfl) markDnsReady_unchanged
  | ensureChallengeValue =>
    exact acknowledged_unchanged rfl (fun _ => rfl) ensureChallengeValue_unchanged
  | ensureCtSource => exact acknowledged_unchanged rfl (fun _ => rfl) ensureCtSource_unchanged
  | queueCtLagAlert => exact acknowledged_unchanged rfl (fun _ => rfl) queueCtLagAlert_unchanged
  | observeCt => exact acknowledged_unchanged rfl (fun _ => rfl) observeCt_unchanged
  | expireChallengeValuesOf id =>
    rw [← expireChallengeValuesOf_unchanged]
    simp only [StoreOp.transact, answer_total]
    constructor
    · rintro ⟨reply, ⟨-, hdb⟩, -⟩
      exact hdb.symm
    · intro hdb
      exact ⟨_, ⟨rfl, hdb.symm⟩, rfl⟩
  | markCtAlertDelivered id =>
    rw [← markCtAlertDelivered_unchanged]
    simp [StoreOp.transact, acknowledges]
  | markCtLagAlertDelivered id =>
    rw [← markCtLagAlertDelivered_unchanged]
    simp [StoreOp.transact, acknowledges]
  | registerAcmeAccount id uri =>
    refine advancing_unchanged fun reply db' h _ => ?_
    obtain ⟨u, htx, -⟩ := answer_ok.mp h
    obtain ⟨row, -, -, rfl⟩ := registerAcmeAccount_ok htx
    exact Nat.lt_succ_self _
  | claimTunnel id gatewayId ttlSeconds =>
    refine advancing_unchanged fun reply db' h _ => ?_
    obtain ⟨g, htx, -⟩ := answer_ok.mp h
    obtain ⟨row, -, -, -, -, rfl⟩ := claimTunnel_ok htx
    exact Nat.lt_succ_self _
  | markCtFeedHealthy source position =>
    refine advancing_unchanged fun reply db' h _ => ?_
    obtain ⟨u, htx, -⟩ := answer_ok.mp h
    rw [markCtFeedHealthy_ok htx]
    exact Nat.lt_succ_self _
  | recordExpectedCertificate id certificate =>
    refine advancing_unchanged fun reply db' h _ => ?_
    obtain ⟨u, htx, -⟩ := answer_ok.mp h
    obtain ⟨row, -, -, rfl⟩ := recordExpectedCertificate_ok htx
    exact Nat.lt_succ_self _
  | expirePendingAllocation id =>
    -- an allocation that is not pending any more is answered without an acknowledgement
    refine advancing_unchanged fun reply db' h hack => ?_
    simp only [StoreOp.transact, answer_total] at h
    obtain heq | ⟨row, -, -, heq⟩ := expirePendingAllocation_cases db now id
    · rw [h.1, heq] at hack
      cases hack
    · rw [h.2, heq]
      exact Nat.lt_succ_self _

end BloomRelay.Restore
