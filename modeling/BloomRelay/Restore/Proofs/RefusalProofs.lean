import BloomRelay.Restore.Proofs.StaleProofs

/-!
# Requests to a process whose database is below its witness

An operation commits before it acknowledges, so below the witness it is refused with the database as it
was exactly when it had nothing to write, or checks first. Each write advances the fence, and a process
that serves enough of them has caught up.
-/

namespace BloomRelay.Restore

open Store Protocol

variable {p : Setup} {s s' : Service} {call : Call}

/-! ## Acknowledging -/

theorem acknowledge_db (s : Service) : (p.acknowledge s).2.db = s.db := by
  unfold Setup.acknowledge
  split <;> rfl

theorem acknowledge_of_below (hbelow : Below p.remote s.db.restoreRevision s.witnesses)
    (hskip : skipsRemote p.remote s.db.restoreRevision s.witnesses = false) :
    p.acknowledge s = (.error (.witness WitnessError.staleDatabase.message), s) := by
  simp only [Setup.acknowledge, verifyAndAdvance_of_below hbelow hskip]

theorem acknowledge_of_skipsRemote
    (hskip : skipsRemote p.remote s.db.restoreRevision s.witnesses = true) :
    p.acknowledge s = (.ok (), s) := by
  simp only [Setup.acknowledge, verifyAndAdvance_of_skipsRemote hskip]

/-! ## A transaction and its acknowledgement -/

theorem exec_of_transact {reply : Reply} {db db' : Db}
    (h : call.op.transact p.sha256 call.store call.now db = .ok (reply, db'))
    (hrange : db'.inRange = true) : call.exec p.sha256 db = .ok (reply, db') := by
  simp only [Call.exec, h, hrange, if_true]

/-- Whatever the acknowledgement says, the commit stays. -/
theorem commit_db (s : Service) : (p.commit call s).2.db = call.after p.sha256 s.db := by
  unfold Setup.commit Call.after
  cases call.exec p.sha256 s.db with
  | error e => rfl
  | ok r =>
    obtain ⟨reply, db⟩ := r
    have hdb := acknowledge_db (p := p) { s with db := db }
    dsimp only
    split
    · split
      · rename_i hack
        rw [hack] at hdb
        exact hdb
      · rename_i hack
        rw [hack] at hdb
        exact hdb
    · rfl

theorem after_fence_le (sha256 : Bytes → Bytes32) (call : Call) (db : Db) :
    db.restoreFence ≤ (call.after sha256 db).restoreFence := by
  rcases (call_effect sha256 call db).fence with hlt | ⟨heq, -⟩
  · exact hlt.le
  · exact heq.ge

theorem commit_of_unchanged {reply : Reply} (hrange : s.db.inRange = true)
    (hbelow : Below p.remote s.db.restoreRevision s.witnesses)
    (hskip : skipsRemote p.remote s.db.restoreRevision s.witnesses = false)
    (htx : call.op.transact p.sha256 call.store call.now s.db = .ok (reply, s.db))
    (hack : acknowledges call.op reply = true) :
    p.commit call s = (.error (.witness WitnessError.staleDatabase.message), s) := by
  simp only [Setup.commit, exec_of_transact htx hrange, hack, if_true,
    acknowledge_of_below hbelow hskip]

/-- What a refused commit with nothing written must have been. -/
theorem unchanged_of_commit {msg : String}
    (herror : (p.commit call s).1 = .error (.witness msg)) (hdb : (p.commit call s).2.db = s.db) :
    skipsRemote p.remote s.db.restoreRevision s.witnesses = false ∧
      ∃ reply, call.op.transact p.sha256 call.store call.now s.db = .ok (reply, s.db) ∧
        acknowledges call.op reply = true := by
  rw [commit_db] at hdb
  cases hexec : call.exec p.sha256 s.db with
  | error e =>
    simp only [Setup.commit, hexec] at herror
    cases herror
    exact absurd hexec (exec_plain call msg)
  | ok r =>
    obtain ⟨reply, db⟩ := r
    have hsame : db = s.db := by simpa only [Call.after, hexec] using hdb
    subst hsame
    obtain ⟨htx, -⟩ := exec_ok hexec
    cases hack : acknowledges call.op reply with
    | false => simp [Setup.commit, hexec, hack] at herror
    | true =>
      refine ⟨?_, reply, htx, hack⟩
      by_contra hskip
      have hok := acknowledge_of_skipsRemote (p := p) (s := s) (by simpa using hskip)
      simp [Setup.commit, hexec, hack, hok] at herror

/-! ## One request -/

/-- A job's attempt is recorded only after the check. -/
theorem perform_of_verifiesFirst (call : Call) (hfirst : verifiesFirst call.op = true)
    (hbelow : Below p.remote s.db.restoreRevision s.witnesses)
    (hskip : skipsRemote p.remote s.db.restoreRevision s.witnesses = false) :
    p.perform call s = (.error (.witness WitnessError.staleDatabase.message), s) := by
  simp only [Setup.perform, hfirst, if_true, acknowledge_of_below hbelow hskip]

theorem job_fence {op : StoreOp} {sha256 : Bytes → Bytes32} {store : StoreConfig} {now : Time}
    {db db' : Db} {reply : Reply} (hfirst : verifiesFirst op = true)
    (h : op.transact sha256 store now db = .ok (reply, db')) :
    db'.restoreFence = db.restoreFence := by
  cases op with
  | completeJob | deferJob =>
    cases h
    rfl
  | _ => cases hfirst

/-- Where the cache hides the witness, the attempt is recorded and answered. -/
theorem perform_of_skipsRemote (hfirst : verifiesFirst call.op = true)
    (hskip : skipsRemote p.remote s.db.restoreRevision s.witnesses = true) (msg : String) :
    (p.perform call s).1 ≠ .error (.witness msg) := by
  intro herror
  simp only [Setup.perform, hfirst, if_true, acknowledge_of_skipsRemote hskip] at herror
  cases hexec : call.exec p.sha256 s.db with
  | error e =>
    simp only [Setup.commit, hexec] at herror
    cases herror
    exact absurd hexec (exec_plain call msg)
  | ok r =>
    obtain ⟨reply, db⟩ := r
    have hfence : db.restoreRevision = s.db.restoreRevision := job_fence hfirst (exec_ok hexec).1
    have hok : p.acknowledge { s with db := db } = (.ok (), { s with db := db }) :=
      acknowledge_of_skipsRemote (by rw [hfence]; exact hskip)
    cases hack : acknowledges call.op reply with
    | false => simp [Setup.commit, hexec, hack] at herror
    | true => simp [Setup.commit, hexec, hack, hok] at herror

theorem perform_refused_iff (call : Call) (hrange : s.db.inRange = true)
    (hbelow : Below p.remote s.db.restoreRevision s.witnesses) (hfenced : fenced call.op = true) :
    ((∃ msg, (p.perform call s).1 = .error (.witness msg)) ∧ (p.perform call s).2.db = s.db) ↔
      skipsRemote p.remote s.db.restoreRevision s.witnesses = false ∧
        (verifiesFirst call.op = true ∨ WritesNothing p.sha256 call.now s.db call.op) := by
  cases hfirst : verifiesFirst call.op with
  | true =>
    constructor
    · rintro ⟨⟨msg, herror⟩, -⟩
      refine ⟨?_, .inl rfl⟩
      by_contra hskip
      exact perform_of_skipsRemote hfirst (by simpa using hskip) msg herror
    · rintro ⟨hskip, -⟩
      rw [perform_of_verifiesFirst call hfirst hbelow hskip]
      exact ⟨⟨_, rfl⟩, rfl⟩
  | false =>
    have hperform : p.perform call s = p.commit call s := by
      simp only [Setup.perform, hfirst, Bool.false_eq_true, if_false]
    rw [hperform]
    simp only [Bool.false_eq_true, false_or, ← transact_unchanged call.store hfenced hfirst]
    constructor
    · rintro ⟨⟨msg, herror⟩, hdb⟩
      exact unchanged_of_commit herror hdb
    · rintro ⟨hskip, reply, htx, hack⟩
      rw [commit_of_unchanged hrange hbelow hskip htx hack]
      exact ⟨⟨_, rfl⟩, rfl⟩

/-! ## Sweeps -/

section Sweep

variable {store : StoreConfig} {time : Nat → Time} {op : Uuid → StoreOp}

theorem sweep_fence_le (ids : List Uuid) (k n : Nat) (s : Service) :
    s.db.restoreFence ≤ (p.sweep store time op k ids n s).2.db.restoreFence := by
  induction ids generalizing k n s with
  | nil => exact le_rfl
  | cons id ids ih =>
    have hfirst : s.db.restoreFence ≤
        (p.commit ⟨store, time k, op id⟩ s).2.db.restoreFence := by
      rw [commit_db]
      exact after_fence_le _ _ _
    unfold Setup.sweep
    split
    · rename_i e s₁ hcommit
      rw [hcommit] at hfirst
      exact hfirst
    · rename_i reply s₁ hcommit
      rw [hcommit] at hfirst
      exact hfirst.trans (ih _ _ s₁)

/-- A sweep whose first transaction has something to write is never refused with nothing written. -/
theorem sweep_not_refused {id : Uuid} {ids : List Uuid} {k n : Nat} {msg : String}
    (hfirst : ∀ reply db', (⟨store, time k, op id⟩ : Call).exec p.sha256 s.db = .ok (reply, db') →
      s.db.restoreFence < db'.restoreFence)
    (herror : (p.sweep store time op k (id :: ids) n s).1 = .error (.witness msg)) :
    (p.sweep store time op k (id :: ids) n s).2.db ≠ s.db := by
  cases hexec : (⟨store, time k, op id⟩ : Call).exec p.sha256 s.db with
  | error e =>
    have hcommit : p.commit ⟨store, time k, op id⟩ s = (.error e, s) := by
      simp only [Setup.commit, hexec]
    simp only [Setup.sweep, hcommit] at herror
    cases herror
    exact absurd hexec (exec_plain _ msg)
  | ok r =>
    obtain ⟨reply, db⟩ := r
    have hlt := hfirst reply db hexec
    have hdb : (p.commit ⟨store, time k, op id⟩ s).2.db = db := by
      rw [commit_db]
      simp only [Call.after, hexec]
    refine ne_of_fence_lt (hlt.trans_le ?_)
    rw [← hdb]
    unfold Setup.sweep
    split
    · rename_i e s₁ hcommit
      rw [hcommit]
    · rename_i reply s₁ hcommit
      rw [hcommit]
      exact sweep_fence_le ids _ _ s₁

end Sweep

theorem mem_pendingExpired {db : Db} {now : Time} {limit : Nat} {id : Uuid}
    (h : id ∈ pendingExpired db now limit) :
    ∃ row, db.installations.find? id = some row ∧ row.state = .pendingDns ∧
      row.createdAt + hours 24 < now := by
  obtain ⟨row, hrow, rfl⟩ := List.mem_map.mp h
  have hmem := List.mem_of_mem_take hrow
  rw [List.mem_mergeSort, List.mem_filter] at hmem
  obtain ⟨hrows, hcond⟩ := hmem
  simp only [decide_eq_true_eq] at hcond
  exact ⟨row, (Table.mem_rows_iff _).mp hrows, hcond⟩

theorem expirePendingAllocation_fence {db : Db} {now : Time} {id : Uuid} {row : Installation}
    (hrow : db.installations.find? id = some row) (hstate : row.state = .pendingDns)
    (hold : row.createdAt + hours 24 < now) :
    db.restoreFence < (expirePendingAllocation db now id).2.restoreFence := by
  have hupd : ∃ r, db.updateInstallation id
      (fun i => i.state = .pendingDns ∧ i.createdAt + hours 24 < now) (Installation.retire now)
      (Installation.retire_installationId now) = some r := by
    simp only [Db.updateInstallation, hrow]
    rw [if_pos (decide_eq_true ⟨hstate, hold⟩)]
    exact ⟨_, rfl⟩
  obtain ⟨⟨row', db'⟩, hr⟩ := hupd
  obtain ⟨_, -, -, -, rfl⟩ := updateInstallation_eq_some hr
  simp only [expirePendingAllocation, hr]
  exact Nat.lt_succ_self _

theorem mem_lapsedInstallations {db : Db} {now : Time} {limit : Nat} {id : Uuid}
    (h : id ∈ lapsedInstallations db now limit) :
    ∃ v ∈ db.challengeValues.rows, v.installationId = id ∧ v.expiresAt ≤ now := by
  have hmem := List.mem_eraseDups.mp (List.mem_of_mem_take h)
  obtain ⟨v, hv, rfl⟩ := List.mem_map.mp hmem
  obtain ⟨hrows, hle⟩ := List.mem_filter.mp hv
  exact ⟨v, hrows, rfl, by simpa using hle⟩

theorem expireChallengeValuesOf_fence {db : Db} {now : Time} {id : Uuid} {v : ChallengeValue}
    (hv : v ∈ db.challengeValues.rows) (hid : v.installationId = id) (hle : v.expiresAt ≤ now) :
    db.restoreFence < (expireChallengeValuesOf db now id).2.restoreFence := by
  have hany : db.challengeValues.rows.any (fun v =>
      v.installationId = id ∧ v.expiresAt ≤ now) = true := by
    simp only [List.any_eq_true, decide_eq_true_eq]
    exact ⟨v, hv, hid, hle⟩
  simp only [expireChallengeValuesOf, hany, if_true]
  exact Nat.lt_succ_self _

/-- Neither sweep ever meets the contract: it answers without a check, or writes first. -/
theorem sweep_request_not_refused {r : Request}
    (hop : ∀ op, r.operation ≠ .single op) : ¬ RefusedUnchanged p r s := by
  rintro ⟨⟨msg, herror⟩, hdb⟩
  cases hoperation : r.operation with
  | single op => exact hop op hoperation
  | expirePendingAllocations limit =>
    simp only [Request.run, hoperation] at herror hdb
    split at herror
    · rename_i hlimit
      rw [if_pos hlimit] at hdb
      cases hids : pendingExpired s.db r.now limit.toNat with
      | nil =>
        rw [hids] at herror
        cases herror
      | cons id ids =>
        rw [hids] at herror hdb
        obtain ⟨row, hrow, hstate, hold⟩ := mem_pendingExpired (hids ▸ List.mem_cons_self)
        refine sweep_not_refused (fun reply db' hexec => ?_) herror hdb
        obtain ⟨htx, -⟩ := exec_ok hexec
        simp only [StoreOp.transact, answer_total] at htx
        rw [htx.2]
        exact expirePendingAllocation_fence hrow hstate (Nat.lt_add_right _ hold)
    · cases herror
  | expireChallengeValues limit =>
    simp only [Request.run, hoperation] at herror hdb
    split at herror
    · rename_i hlimit
      rw [if_pos hlimit] at hdb
      cases hids : lapsedInstallations s.db r.now limit.toNat with
      | nil =>
        rw [hids] at herror
        cases herror
      | cons id ids =>
        rw [hids] at herror hdb
        obtain ⟨v, hv, hid, hle⟩ := mem_lapsedInstallations (hids ▸ List.mem_cons_self)
        refine sweep_not_refused (fun reply db' hexec => ?_) herror hdb
        obtain ⟨htx, -⟩ := exec_ok hexec
        simp only [StoreOp.transact, answer_total] at htx
        rw [htx.2]
        exact expireChallengeValuesOf_fence hv hid (Nat.le_add_right_of_le hle)
    · cases herror

/-! ## Sequences of requests -/

theorem fence_of_not_fenced {op : StoreOp} {sha256 : Bytes → Bytes32} {store : StoreConfig}
    {now : Time} {db db' : Db} {reply : Reply} (hop : fenced op = false)
    (h : op.transact sha256 store now db = .ok (reply, db')) :
    db'.restoreFence = db.restoreFence := by
  cases op with
  | createBootstrapChallenge nonce source =>
    obtain ⟨b, htx, -⟩ := answer_ok.mp h
    obtain ⟨t, rfl⟩ := createBootstrapChallenge_ok htx
    rfl
  | consumeBootstrapChallenge nonce source =>
    simp only [StoreOp.transact, answer_total] at h
    obtain ⟨t, ht⟩ := consumeBootstrapChallenge_snd db now nonce source
    rw [h.2, ht]
  | pruneBootstrap limit | pruneNonces limit =>
    cases h
    rfl
  | consumeNonce id nonce =>
    obtain ⟨b, htx, -⟩ := answer_ok.mp h
    obtain ⟨-, rfl⟩ | ⟨t, -, -, rfl⟩ := consumeNonce_ok htx
    · rfl
    · rfl
  | markChallengeReconciled id revision =>
    simp only [StoreOp.transact, answer_total] at h
    obtain heq | ⟨_, -, -, heq⟩ := markChallengeReconciled_cases db id revision
    · rw [h.2, heq]
    · rw [h.2, heq]
      rfl
  | renewTunnel id gatewayId generation =>
    simp only [StoreOp.transact, answer_total] at h
    obtain heq | ⟨-, heq⟩ := renewTunnel_cases db now id gatewayId generation
    · rw [h.2, heq]
    · rw [h.2, heq]
      rfl
  | _ => cases hop

/-- The process is where it was as far as the witness is concerned. -/
structure StillBelow (p : Setup) (s s' : Service) : Prop where
  revision : s'.db.restoreRevision = s.db.restoreRevision
  witnesses : s'.witnesses = s.witnesses
  inRange : s'.db.inRange = true

theorem stillBelow_of_commit (hrange : s.db.inRange = true)
    (hbelow : Below p.remote s.db.restoreRevision s.witnesses)
    (hskip : skipsRemote p.remote s.db.restoreRevision s.witnesses = false)
    (hop : fenced call.op = false) : StillBelow p s (p.commit call s).2 := by
  cases hexec : call.exec p.sha256 s.db with
  | error e =>
    simp only [Setup.commit, hexec]
    exact ⟨rfl, rfl, hrange⟩
  | ok r =>
    obtain ⟨reply, db⟩ := r
    obtain ⟨htx, hin⟩ := exec_ok hexec
    have hrev : db.restoreRevision = s.db.restoreRevision := fence_of_not_fenced hop htx
    cases hack : acknowledges call.op reply with
    | false =>
      simp only [Setup.commit, hexec, hack, Bool.false_eq_true, if_false]
      exact ⟨hrev, rfl, hin⟩
    | true =>
      have hrefused : p.acknowledge { s with db := db } = _ :=
        acknowledge_of_below (s := { s with db := db }) (by rw [hrev]; exact hbelow)
          (by rw [hrev]; exact hskip)
      simp only [Setup.commit, hexec, hack, if_true, hrefused]
      exact ⟨hrev, rfl, hin⟩

/-- A request that is refused leaves everything as it was. -/
theorem run_of_refusable {r : Request} (hrange : s.db.inRange = true)
    (hbelow : Below p.remote s.db.restoreRevision s.witnesses)
    (hfenced : r.operation.fenced = true) (h : Refusable p r s) :
    r.run p s = (.error (.witness WitnessError.staleDatabase.message), s) := by
  obtain ⟨hskip, hcase⟩ := h
  cases hop : r.operation with
  | expirePendingAllocations | expireChallengeValues => simp [hop] at hcase
  | single op =>
    simp only [hop] at hcase
    rw [hop] at hfenced
    have hrun : r.run p s = p.perform ⟨r.store, r.now, op⟩ s := by simp only [Request.run, hop]
    rw [hrun]
    cases hfirst : verifiesFirst op with
    | true =>
      exact perform_of_verifiesFirst ⟨r.store, r.now, op⟩ hfirst hbelow hskip
    | false =>
      rw [hfirst] at hcase
      obtain ⟨reply, htx, hack⟩ := (transact_unchanged r.store hfenced hfirst).mpr
        (hcase.resolve_left Bool.false_ne_true)
      simp only [Setup.perform, hfirst, Bool.false_eq_true, if_false]
      exact commit_of_unchanged hrange hbelow hskip htx hack

theorem stillBelow_of_step {r : Request} (hrange : s.db.inRange = true)
    (hbelow : Below p.remote s.db.restoreRevision s.witnesses)
    (hskip : skipsRemote p.remote s.db.restoreRevision s.witnesses = false)
    (hr : r.operation.fenced = true → Refusable p r s) : StillBelow p s (r.run p s).2 := by
  cases hfenced : r.operation.fenced with
  | true =>
    rw [run_of_refusable hrange hbelow hfenced (hr hfenced)]
    exact ⟨rfl, rfl, hrange⟩
  | false =>
    cases hop : r.operation with
    | expirePendingAllocations | expireChallengeValues =>
      rw [hop] at hfenced
      cases hfenced
    | single op =>
      rw [hop] at hfenced
      have hfirst : verifiesFirst op = false := by
        cases op with
        | completeJob | deferJob => cases hfenced
        | _ => rfl
      have hrun : r.run p s = p.commit ⟨r.store, r.now, op⟩ s := by
        simp only [Request.run, hop, Setup.perform, hfirst, Bool.false_eq_true, if_false]
      rw [hrun]
      exact stillBelow_of_commit hrange hbelow hskip hfenced

/-- Below the witness, a request that can advance the fence or records a job's attempt is refused with
the database as it was if and only if it is `Refusable`. And along every sequence of requests in which
all of those are, each of them is refused and `verify_and_advance` keeps returning
`StaleDatabase`. -/
theorem stale_database_refused_iff (hrange : s.db.inRange = true)
    (hbelow : Below p.remote s.db.restoreRevision s.witnesses) :
    (∀ r : Request, r.operation.fenced = true → (RefusedUnchanged p r s ↔ Refusable p r s)) ∧
    (skipsRemote p.remote s.db.restoreRevision s.witnesses = false →
      ∀ tr s', Run (ServiceStep p) s tr s' →
        (∀ e ∈ tr, e.label.operation.fenced = true → Refusable p e.label e.src) →
        (∀ e ∈ tr, e.label.operation.fenced = true → RefusedUnchanged p e.label e.src) ∧
        verifyAndAdvance p.etag p.remote s'.db.restoreRevision s'.db.restorePristine s'.witnesses =
          (.error .staleDatabase, s'.witnesses)) := by
  constructor
  · intro r hfenced
    cases hop : r.operation with
    | single op =>
      rw [hop] at hfenced
      have hiff := perform_refused_iff ⟨r.store, r.now, op⟩ hrange hbelow hfenced
      simpa only [RefusedUnchanged, Refusable, Request.run, hop] using hiff
    | expirePendingAllocations limit | expireChallengeValues limit =>
      have hno : ¬ RefusedUnchanged p r s := sweep_request_not_refused (by simp [hop])
      simp [Refusable, hop, hno]
  · intro hskip tr s' hrun hall
    -- the state is the same for the witness all along, so every request meets the same check
    have hinv : StillBelow p s s' ∧
        ∀ e ∈ tr, e.label.operation.fenced = true → RefusedUnchanged p e.label e.src := by
      revert hall
      refine hrun.invariant (fun tr t =>
        (∀ e ∈ tr, e.label.operation.fenced = true → Refusable p e.label e.src) →
          StillBelow p s t ∧
          ∀ e ∈ tr, e.label.operation.fenced = true → RefusedUnchanged p e.label e.src) ?_ ?_
      · exact fun _ => ⟨⟨rfl, rfl, hrange⟩, fun e he => (List.not_mem_nil he).elim⟩
      · rintro tr t r _ _ ih rfl hall
        obtain ⟨hstill, hrefused⟩ := ih fun e he => hall e (List.mem_cons_of_mem _ he)
        have hbelow' : Below p.remote t.db.restoreRevision t.witnesses := by
          rw [hstill.revision, hstill.witnesses]
          exact hbelow
        have hskip' : skipsRemote p.remote t.db.restoreRevision t.witnesses = false := by
          rw [hstill.revision, hstill.witnesses]
          exact hskip
        have hr := hall _ List.mem_cons_self
        have hstep := stillBelow_of_step hstill.inRange hbelow' hskip' hr
        refine ⟨⟨hstep.revision.trans hstill.revision, hstep.witnesses.trans hstill.witnesses,
          hstep.inRange⟩, fun e he hfenced => ?_⟩
        rcases List.mem_cons.mp he with rfl | hold
        · have hrun := run_of_refusable hstill.inRange hbelow' hfenced (hr hfenced)
          exact ⟨⟨_, congrArg Prod.fst hrun⟩, congrArg (fun x => x.2.db) hrun⟩
        · exact hrefused e hold hfenced
    obtain ⟨hstill, hrefused⟩ := hinv
    refine ⟨hrefused, verifyAndAdvance_of_below ?_ ?_⟩
    · rw [hstill.revision, hstill.witnesses]
      exact hbelow
    · rw [hstill.revision, hstill.witnesses]
      exact hskip

/-! ## A process that catches up -/

/-- A process without a remote witness. -/
def localSetup : Setup := ⟨fun _ => 0, fun _ => "", false⟩

/-- A new database beside a witness of revision 3: the database was restored. -/
def restoredService : Service := ⟨.migrated, writtenFile 3, none, none⟩

def allocateRequest (operationId id : Uuid) (random : BitVec 128) : Request :=
  ⟨.default, 1, fun _ => 0, .single (.allocate operationId 5 "edge-1" id random)⟩

/-- The restored database after two allocations. -/
def caughtUp : Except StoreError Reply × Service :=
  (allocateRequest 2 8 10).run localSetup ((allocateRequest 1 7 9).run localSetup restoredService).2

/-- An attempt of a job is refused. -/
theorem stale_database_refused_job :
    RefusedUnchanged localSetup ⟨.default, 1, fun _ => 0, .single (.completeJob 1)⟩
      restoredService := by
  have hbelow : Below false 1 restoredService.witnesses := ⟨3, by decide +kernel, by decide⟩
  exact ((stale_database_refused_iff (p := localSetup) (s := restoredService) rfl hbelow).1 _ rfl).mpr
    ⟨by decide +kernel, .inl rfl⟩

/-- Two allocations on a database two revisions below its witness. The first answers with a witness
error but is committed; the second brings the database level with the witness and succeeds, and the
check that refused the restored database passes. -/
theorem stale_database_catches_up :
    Below localSetup.remote restoredService.db.restoreRevision restoredService.witnesses ∧
    ((allocateRequest 1 7 9).run localSetup restoredService).1 =
      .error (.witness WitnessError.staleDatabase.message) ∧
    ((allocateRequest 1 7 9).run localSetup restoredService).2.db ≠ restoredService.db ∧
    ¬ RefusedUnchanged localSetup (allocateRequest 1 7 9) restoredService ∧
    (∃ reply, caughtUp.1 = .ok reply) ∧
    (verifyAndAdvance localSetup.etag localSetup.remote caughtUp.2.db.restoreRevision
      caughtUp.2.db.restorePristine caughtUp.2.witnesses).1 = .ok () := by
  have hchanged : ((allocateRequest 1 7 9).run localSetup restoredService).2.db ≠
      restoredService.db := by decide +kernel
  refine ⟨⟨3, by decide +kernel, by decide⟩, by decide +kernel, hchanged, fun h => hchanged h.2, ?_,
    by decide +kernel⟩
  have hok : caughtUp.1.isOk = true := by decide +kernel
  cases hrun : caughtUp.1 with
  | ok reply => exact ⟨reply, rfl⟩
  | error e =>
    rw [hrun] at hok
    cases hok

end BloomRelay.Restore
