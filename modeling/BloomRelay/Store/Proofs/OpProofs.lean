import BloomRelay.Store.Ops
import BloomRelay.Lib.Proofs.TableProofs

/-!
# What each transaction does

One lemma per transaction: from a successful answer, the checks that passed and the database it left,
written as the statements that were executed. Everything else about a transaction is derived from its
lemma here, and no later proof unfolds the transaction again.
-/

namespace BloomRelay.Store

open Protocol Checked

variable {sha256 : Bytes → Bytes32} {store : StoreConfig} {db db' : Db} {now : Time}
  {id operationId : Uuid}

/-! ## Statements -/

theorem updateInstallation_eq_some {p : Installation → Bool} {f : Installation → Installation}
    {hf : ∀ r, (f r).installationId = r.installationId} {row : Installation}
    (h : db.updateInstallation id p f hf = some (row, db')) :
    ∃ r, db.installations.find? id = some r ∧ p r = true ∧ row = f r ∧
      db' = db.modifyInstallation id f hf := by
  unfold Db.updateInstallation at h
  split at h
  · cases h
  · rename_i r hr
    split at h
    · rename_i hp
      simp only [Option.some.injEq, Prod.mk.injEq] at h
      exact ⟨r, hr, hp, h.1.symm, h.2.symm⟩
    · cases h

theorem updateInstallation_eq_none {p : Installation → Bool} {f : Installation → Installation}
    {hf : ∀ r, (f r).installationId = r.installationId}
    (h : db.updateInstallation id p f hf = none) {r : Installation}
    (hr : db.installations.find? id = some r) : p r = false := by
  unfold Db.updateInstallation at h
  rw [hr] at h
  by_contra hp
  simp [hp] at h

/-- An installation row in state `state`, as the reads of the store look for it. -/
theorem find_filter_state {state : AllocationState} {r : Installation}
    (h : (db.installations.find? id).filter (fun i => i.state = state) = some r) :
    db.installations.find? id = some r ∧ r.state = state := by
  simpa [Option.filter_eq_some_iff] using h

/-! ## Credentials -/

theorem asStr_of_parse {scope : String} {s : BearerScope} (h : BearerScope.parse? scope = some s) :
    s.asStr = scope := by
  unfold BearerScope.parse? at h
  split_ifs at h with htunnel hchallenge
  · cases h
    exact htunnel.symm
  · cases h
    exact hchallenge.symm

theorem storeCredential_ok {kind : OperationKind} {digest : Bytes32} {c : Credential}
    {auditOperation : Option Uuid} {event : AuditEvent} {r : Nat × Nat}
    (h : db.storeCredential now operationId kind digest c auditOperation event = .ok (r, db')) :
    ∃ db₁ db₂, db.insertCredential c = .ok db₁ ∧
      (if c.scope = .tunnel then db₁.dropLease c.installationId else db₁).insertOperation
        ⟨operationId, c.installationId, kind, digest,
          .receipt c.generation (epochMs c.expiresAt), now⟩ = .ok db₂ ∧
      r = (c.generation, epochMs c.expiresAt) ∧
      db' = db₂.audit now c.installationId auditOperation event := by
  simp only [Db.storeCredential, bind_eq_ok, Except.ok.injEq, Prod.mk.injEq] at h
  obtain ⟨db₁, h₁, db₂, h₂, hr, hdb⟩ := h
  exact ⟨db₁, db₂, h₁, h₂, hr.symm, hdb.symm⟩

theorem insertOperation_error {o : Operation} {e : StoreError} (h : db.insertOperation o = .error e) :
    e = .unavailable ∧ db.operations.find? o.operationId ≠ none := by
  simp only [Db.insertOperation, bind_eq_error, found_eq_error] at h
  rcases h with ⟨hnone, rfl⟩ | ⟨_, -, hno⟩
  · exact ⟨rfl, (Table.insert?_eq_none_iff _).mp hnone⟩
  · cases hno

/-- A credential is not stored if its generation or its operation ID is taken. -/
theorem storeCredential_error {kind : OperationKind} {digest : Bytes32} {c : Credential}
    {audited : Option Uuid} {event : AuditEvent} {e : StoreError}
    (h : db.storeCredential now operationId kind digest c audited event = .error e) :
    e = .unavailable ∧ (db.credentials.find? (c.installationId, c.scope, c.generation) ≠ none ∨
      db.operations.find? operationId ≠ none) := by
  simp only [Db.storeCredential] at h
  rcases bind_eq_error.mp h with h | ⟨db₁, hins, h⟩
  · simp only [Db.insertCredential, bind_eq_error, found_eq_error] at h
    rcases h with ⟨hnone, rfl⟩ | ⟨_, -, hno⟩
    · exact ⟨rfl, .inl ((Table.insert?_eq_none_iff _).mp hnone)⟩
    · cases hno
  · simp only [Db.insertCredential, bind_eq_ok, Except.ok.injEq] at hins
    obtain ⟨t, -, rfl⟩ := hins
    rcases bind_eq_error.mp h with h | ⟨_, -, hno⟩
    · obtain ⟨he, htaken⟩ := insertOperation_error h
      refine ⟨he, .inr ?_⟩
      split_ifs at htaken <;> exact htaken
    · cases hno

/-- The credential row an issue stores. -/
def issuedCredential (store : StoreConfig) (now : Time) (id : Uuid) (scope : BearerScope)
    (tokenHash : Bytes32) (validitySeconds : Int) (row : Installation) : Credential :=
  ⟨id, scope, row.generation + 1, tokenHash,
    now + seconds (min validitySeconds.toNat store.credentialWindows.validity), none⟩

/-- The credential row a renewal stores. -/
def renewedCredential (store : StoreConfig) (now : Time) (id : Uuid) (scope : BearerScope)
    (newTokenHash : Bytes32) (row : Installation) : Credential :=
  ⟨id, scope, row.generation + 1, newTokenHash,
    now + seconds store.credentialWindows.validity, none⟩

theorem issueBearerTx_ok {scope : BearerScope} {tokenHash : Bytes32} {validitySeconds : Int}
    {r : Nat × Nat}
    (h : issueBearerTx sha256 store db now id operationId scope tokenHash validitySeconds =
      .ok (r, db')) :
    ∃ row, db.installations.find? id = some row ∧ row.state ≠ .retired ∧
      ((db.modifyInstallation id Installation.bump Installation.bump_installationId).revoke now id scope
        (fun c => c.revokedAt = none)).storeCredential now operationId (.issue scope)
        (issueDigest sha256 scope validitySeconds tokenHash)
        (issuedCredential store now id scope tokenHash validitySeconds row) none .credentialRotated =
          .ok (r, db') := by
  simp only [issueBearerTx, bind_eq_ok, found_eq_ok] at h
  obtain ⟨⟨row', db₁⟩, hupd, hstore⟩ := h
  obtain ⟨row, hrow, hp, rfl, rfl⟩ := updateInstallation_eq_some hupd
  exact ⟨row, hrow, by simpa using hp, hstore⟩

@[simp] theorem issueScope_eq_ok {scope : String} {validitySeconds : Int} {s : BearerScope} :
    issueScope scope validitySeconds = .ok s ↔
      BearerScope.parse? scope = some s ∧ 60 ≤ validitySeconds ∧ validitySeconds ≤ 86400 := by
  simp only [issueScope, bind_eq_ok, found_eq_ok, require_eq_ok, Except.ok.injEq]
  constructor
  · rintro ⟨s, hs, -, hv, rfl⟩
    exact ⟨hs, hv⟩
  · rintro ⟨hs, hv⟩
    exact ⟨s, hs, (), hv, rfl⟩

@[simp] theorem renewScope_eq_ok {scope currentToken : String} {s : BearerScope} :
    renewScope scope currentToken = .ok s ↔
      BearerScope.parse? scope = some s ∧ bearerLengthOk currentToken = true := by
  simp only [renewScope, bind_eq_ok, found_eq_ok, require_eq_ok, Except.ok.injEq]
  constructor
  · rintro ⟨s, hs, -, hlen, rfl⟩
    exact ⟨hs, hlen⟩
  · rintro ⟨hs, hlen⟩
    exact ⟨s, hs, (), hlen, rfl⟩

@[simp] theorem issueScope_eq_error {scope : String} {validitySeconds : Int} {e : StoreError} :
    issueScope scope validitySeconds = .error e ↔
      (BearerScope.parse? scope = none ∨ ¬ (60 ≤ validitySeconds ∧ validitySeconds ≤ 86400)) ∧
        .invalidRequest = e := by
  cases hs : BearerScope.parse? scope with
  | none => simp [issueScope, hs, found, bind, Except.bind]
  | some s => simp [issueScope, hs, bind_eq_error]

@[simp] theorem renewScope_eq_error {scope currentToken : String} {e : StoreError} :
    renewScope scope currentToken = .error e ↔
      (BearerScope.parse? scope = none ∨ ¬ bearerLengthOk currentToken = true) ∧
        .invalidRequest = e := by
  cases hs : BearerScope.parse? scope with
  | none => simp [renewScope, hs, found, bind, Except.bind]
  | some s => simp [renewScope, hs, bind_eq_error]

@[simp] theorem allocateReplay_eq_ok {i : Installation} {key : Bytes32} {placement : String}
    {a : Allocation} : allocateReplay i key placement = .ok a ↔
      (i.adminPublicKey = key ∧ i.placement = placement) ∧ i.allocation = a := by
  simp [allocateReplay, bind_eq_ok]

@[simp] theorem allocateReplay_eq_error {i : Installation} {key : Bytes32} {placement : String}
    {e : StoreError} : allocateReplay i key placement = .error e ↔
      ¬ (i.adminPublicKey = key ∧ i.placement = placement) ∧ .conflict = e := by
  simp [allocateReplay, bind_eq_error]

/-- A repeated operation ID gets the recorded receipt and nothing is written. -/
theorem issueBearer_ok {scope : String} {tokenHash : Bytes32} {validitySeconds : Int}
    {r : Nat × Nat}
    (h : issueBearer sha256 store db now id operationId scope tokenHash validitySeconds =
      .ok (r, db')) :
    ∃ s, BearerScope.parse? scope = some s ∧ 60 ≤ validitySeconds ∧ validitySeconds ≤ 86400 ∧
      ((db.operations.find? operationId ≠ none ∧ db' = db) ∨
        (db.operations.find? operationId = none ∧
          issueBearerTx sha256 store db now id operationId s tokenHash validitySeconds =
            .ok (r, db'))) := by
  simp only [issueBearer, bind_eq_ok, issueScope_eq_ok] at h
  obtain ⟨s, ⟨hs, hv⟩, h⟩ := h
  refine ⟨s, hs, hv.1, hv.2, ?_⟩
  split at h
  · rename_i existing hex
    simp only [bind_eq_ok, Except.ok.injEq, Prod.mk.injEq] at h
    obtain ⟨_, _, _, hdb⟩ := h
    exact .inl ⟨by rw [hex]; simp, hdb.symm⟩
  · rename_i hnone
    exact .inr ⟨hnone, h⟩

theorem renewableCredential_eq_some {scope : BearerScope} {generation : Nat} {c : Credential}
    (h : renewableCredential store db now id scope generation = some c) :
    ∃ row, db.installations.find? id = some row ∧ row.state = .dnsReady ∧
      c ∈ db.credentials.rows ∧ c.installationId = id ∧ c.scope = scope ∧
      (c.generation : Int) = i64OfU64 generation ∧ c.revokedAt = none ∧
      now < c.expiresAt + seconds store.credentialWindows.renewalGrace ∧
      ∀ n ∈ db.credentials.rows, n.installationId = id → n.scope = scope →
        n.generation ≤ c.generation := by
  unfold renewableCredential at h
  split at h
  · cases h
  · rename_i row hrow
    obtain ⟨hfind, hp⟩ := Option.filter_eq_some_iff.mp h
    have hmem := List.mem_of_find?_eq_some hfind
    have hsel := List.find?_some hfind
    simp only [decide_eq_true_eq] at hsel hp
    obtain ⟨hid, hscope, hgen, hlive, hgrace⟩ := hsel
    refine ⟨row, hrow, hp.1, hmem, hid, hscope, hgen, hlive, hgrace, fun n hn hni hns => ?_⟩
    by_contra hlt
    refine hp.2 (List.any_eq_true.mpr ⟨n, hn, ?_⟩)
    simp only [decide_eq_true_eq]
    exact ⟨hni.trans hid.symm, hns.trans hscope.symm, by omega⟩

theorem renewBearerTx_ok {scope : BearerScope} {generation : Nat} {currentToken : String}
    {newTokenHash : Bytes32} {r : Nat × Nat}
    (h : renewBearerTx sha256 store db now id operationId scope generation currentToken
      newTokenHash = .ok (r, db')) :
    ∃ row current, db.installations.find? id = some row ∧
      renewableCredential store db now id scope generation = some current ∧
      current.tokenHash = sha256 (utf8 currentToken) ∧
      ((db.modifyInstallation id Installation.bump Installation.bump_installationId).revoke now id scope
        (fun c => (c.generation : Int) = i64OfU64 generation)).storeCredential now operationId
        (.renew scope) (renewDigest sha256 scope generation (sha256 (utf8 currentToken)) newTokenHash)
        (renewedCredential store now id scope newTokenHash row) (some operationId)
        (if current.expiresAt ≤ now then .credentialRenewedAfterExpiry else .credentialRenewed) =
          .ok (r, db') := by
  simp only [renewBearerTx, bind_eq_ok, found_eq_ok, require_eq_ok] at h
  obtain ⟨current, hcur, _, htok, ⟨row', db₁⟩, hupd, hstore⟩ := h
  obtain ⟨row, hrow, _, rfl, rfl⟩ := updateInstallation_eq_some hupd
  exact ⟨row, current, hrow, hcur, htok, hstore⟩

theorem renewBearer_ok {scope : String} {generation : Nat} {currentToken : String}
    {newTokenHash : Bytes32} {r : Nat × Nat}
    (h : renewBearer sha256 store db now id operationId scope generation currentToken newTokenHash =
      .ok (r, db')) :
    ∃ s, BearerScope.parse? scope = some s ∧ bearerLengthOk currentToken = true ∧
      ((db.operations.find? operationId ≠ none ∧ db' = db) ∨
        (db.operations.find? operationId = none ∧
          renewBearerTx sha256 store db now id operationId s generation currentToken newTokenHash =
            .ok (r, db'))) := by
  simp only [renewBearer, bind_eq_ok, renewScope_eq_ok] at h
  obtain ⟨s, ⟨hs, hlen⟩, h⟩ := h
  refine ⟨s, hs, hlen, ?_⟩
  split at h
  · rename_i existing hex
    simp only [bind_eq_ok, Except.ok.injEq, Prod.mk.injEq] at h
    obtain ⟨_, _, _, hdb⟩ := h
    exact .inl ⟨by rw [hex]; simp, hdb.symm⟩
  · rename_i hnone
    exact .inr ⟨hnone, h⟩

/-! ## Installations -/

theorem insertInstallation_ok {r : Installation} (h : db.insertInstallation r = .ok db') :
    (∀ x ∈ db.installations.rows, x.hostname ≠ r.hostname) ∧
      ∃ t, db.installations.insert? r = some t ∧ db' = { db with installations := t } := by
  simp only [Db.insertInstallation, bind_eq_ok, found_eq_ok, require_eq_ok, Except.ok.injEq] at h
  obtain ⟨_, hfresh, t, ht, rfl⟩ := h
  exact ⟨hfresh, t, ht, rfl⟩

theorem insertReservation_ok {r : HostnameReservation} (h : db.insertReservation r = .ok db') :
    ∃ t, db.hostnameReservations.insert? r = some t ∧
      db' = { db with hostnameReservations := t } := by
  simp only [Db.insertReservation, bind_eq_ok, found_eq_ok, Except.ok.injEq] at h
  obtain ⟨t, ht, rfl⟩ := h
  exact ⟨t, ht, rfl⟩

theorem insertOperation_ok {o : Operation} (h : db.insertOperation o = .ok db') :
    ∃ t, db.operations.insert? o = some t ∧ db' = { db with operations := t } := by
  simp only [Db.insertOperation, bind_eq_ok, found_eq_ok, Except.ok.injEq] at h
  obtain ⟨t, ht, rfl⟩ := h
  exact ⟨t, ht, rfl⟩

theorem insertCredential_ok {c : Credential} (h : db.insertCredential c = .ok db') :
    ∃ t, db.credentials.insert? c = some t ∧ db' = { db with credentials := t } := by
  simp only [Db.insertCredential, bind_eq_ok, found_eq_ok, Except.ok.injEq] at h
  obtain ⟨t, ht, rfl⟩ := h
  exact ⟨t, ht, rfl⟩

theorem insertChallengeValue_ok {v : ChallengeValue} (h : db.insertChallengeValue v = .ok db') :
    ∃ t, db.challengeValues.insert? v = some t ∧ db' = { db with challengeValues := t } := by
  simp only [Db.insertChallengeValue, bind_eq_ok, found_eq_ok, Except.ok.injEq] at h
  obtain ⟨t, ht, rfl⟩ := h
  exact ⟨t, ht, rfl⟩

theorem insertObservation_ok {o : CtObservation} (h : db.insertObservation o = .ok db') :
    ∃ t, db.ctObservations.insert? o = some t ∧ db' = { db with ctObservations := t } := by
  simp only [Db.insertObservation, bind_eq_ok, found_eq_ok, Except.ok.injEq] at h
  obtain ⟨t, ht, rfl⟩ := h
  exact ⟨t, ht, rfl⟩

theorem insertAlert_ok {a : CtAlert} (h : db.insertAlert a = .ok db') :
    ∃ t, db.ctAlerts.insert? a = some t ∧ db' = ({ db with ctAlerts := t } : Db).advanceFence := by
  simp only [Db.insertAlert, bind_eq_ok, found_eq_ok, Except.ok.injEq] at h
  obtain ⟨t, ht, rfl⟩ := h
  exact ⟨t, ht, rfl⟩

/-- The installation row an allocation inserts. -/
def allocatedInstallation (now : Time) (adminPublicKey : Bytes32) (placement : String) (id : Uuid)
    (random : BitVec 128) : Installation :=
  ⟨id, allocatedHostname random, adminPublicKey, placement, 1, .pendingDns, none, now, none⟩

theorem allocateTx_ok {key : Bytes32} {placement : String} {random : BitVec 128} {a : Allocation}
    (h : allocateTx db now operationId key placement id random = .ok (a, db')) :
    ∃ db₁ db₂ db₃,
      db.insertInstallation (allocatedInstallation now key placement id random) = .ok db₁ ∧
      db₁.insertReservation ⟨allocatedHostname random, id, now⟩ = .ok db₂ ∧
      db₂.insertOperation ⟨operationId, id, .allocate, 0, .allocation a, now⟩ = .ok db₃ ∧
      db' = (db₃.enqueue now id .publishName [("hostname", allocatedHostname random),
        ("placement", placement)]).audit now id (some operationId) .allocated := by
  simp only [allocateTx, bind_eq_ok, Except.ok.injEq, Prod.mk.injEq] at h
  obtain ⟨db₁, h₁, db₂, h₂, db₃, h₃, rfl, hdb⟩ := h
  exact ⟨db₁, db₂, db₃, h₁, h₂, h₃, hdb.symm⟩

theorem allocate_ok {key : Bytes32} {placement : String} {random : BitVec 128} {a : Allocation}
    (h : allocate db now operationId key placement id random = .ok (a, db')) :
    db' = db ∨ placementOk placement = true ∧
      allocateTx db now operationId key placement id random = .ok (a, db') := by
  simp only [allocate, bind_eq_ok, require_eq_ok] at h
  obtain ⟨_, hplacement, h⟩ := h
  split at h
  · simp only [bind_eq_ok, Except.ok.injEq, Prod.mk.injEq] at h
    obtain ⟨_, _, _, hdb⟩ := h
    exact .inl hdb.symm
  · exact .inr ⟨hplacement, h⟩

theorem registerAcmeAccount_ok {uri : String} {u : Unit}
    (h : registerAcmeAccount store db now id uri = .ok (u, db')) :
    ∃ row, db.installations.find? id = some row ∧ row.state ≠ .retired ∧
      db' = ((db.modifyInstallation id (fun i => { i with acmeAccountUri := some uri })
        (fun _ => rfl)).enqueue now id .publishName [("hostname", row.hostname)]).audit now id none
        .acmeAccountBound := by
  simp only [registerAcmeAccount, bind_eq_ok, require_eq_ok, found_eq_ok, Except.ok.injEq,
    Prod.mk.injEq] at h
  obtain ⟨_, _, ⟨row', db₁⟩, hupd, _, hdb⟩ := h
  obtain ⟨row, hrow, hp, rfl, rfl⟩ := updateInstallation_eq_some hupd
  exact ⟨row, hrow, by simpa using hp, hdb.symm⟩

theorem markDnsReady_ok {u : Unit} (h : markDnsReady db now id = .ok (u, db')) :
    db' = db ∨ ∃ row, db.installations.find? id = some row ∧ row.state = .pendingDns ∧
      row.acmeAccountUri ≠ none ∧
      db' = (db.modifyInstallation id (fun i => { i with state := .dnsReady })
        (fun _ => rfl)).audit now id none .dnsReady := by
  unfold markDnsReady at h
  split at h
  · simp only [Except.ok.injEq, Prod.mk.injEq] at h
    exact .inl h.2.symm
  · rename_i row' db₁ hupd
    simp only [Except.ok.injEq, Prod.mk.injEq] at h
    obtain ⟨row, hrow, hp, rfl, rfl⟩ := updateInstallation_eq_some hupd
    simp only [decide_eq_true_eq] at hp
    exact .inr ⟨row, hrow, hp.1, hp.2, h.2.symm⟩

theorem claimTunnel_ok {gatewayId : String} {ttlSeconds : Int} {g : Nat}
    (h : claimTunnel db now id gatewayId ttlSeconds = .ok (g, db')) :
    ∃ row, db.installations.find? id = some row ∧ row.state = .dnsReady ∧
      row.placement = gatewayId ∧ g = row.generation + 1 ∧
      db' = ((db.modifyInstallation id Installation.bump Installation.bump_installationId).putLease
        ⟨id, g, gatewayId, now + seconds ttlSeconds.toNat⟩).audit now id none .tunnelClaimed := by
  simp only [claimTunnel, bind_eq_ok, require_eq_ok, found_eq_ok, Except.ok.injEq,
    Prod.mk.injEq] at h
  obtain ⟨_, _, ⟨row', db₁⟩, hupd, hg, hdb⟩ := h
  obtain ⟨row, hrow, hp, rfl, rfl⟩ := updateInstallation_eq_some hupd
  simp only [decide_eq_true_eq] at hp
  subst hg
  exact ⟨row, hrow, hp.1, hp.2, rfl, hdb.symm⟩

theorem tunnelIsCurrent_iff {gatewayId : String} {generation : Nat} :
    tunnelIsCurrent db now id gatewayId generation = true ↔
      ∃ l, db.tunnelLeases.find? id = some l ∧ l.gatewayId = gatewayId ∧
        (l.generation : Int) = i64OfU64 generation ∧ now < l.expiresAt := by
  simp only [tunnelIsCurrent, Option.isSome_iff_exists, Option.filter_eq_some_iff, leaseMatches,
    decide_eq_true_eq]

theorem renewTunnel_cases (db : Db) (now : Time) (id : Uuid) (gatewayId : String) (generation : Nat) :
    renewTunnel db now id gatewayId generation = (false, db) ∨
      tunnelIsCurrent db now id gatewayId generation = true ∧
      renewTunnel db now id gatewayId generation =
        (true, db.extendLease id (now + seconds 45)) := by
  unfold renewTunnel
  split
  · rename_i hcur
    exact .inr ⟨hcur, rfl⟩
  · exact .inl rfl

theorem expirePendingAllocation_cases (db : Db) (now : Time) (id : Uuid) :
    expirePendingAllocation db now id = (false, db) ∨
      ∃ row, db.installations.find? id = some row ∧ row.state = .pendingDns ∧
      expirePendingAllocation db now id = (true,
        (((db.modifyInstallation id (Installation.retire now)
        (Installation.retire_installationId now)).enqueueRemoval now
          id).audit now id none .pendingAllocationExpired)) := by
  unfold expirePendingAllocation
  split
  · exact .inl rfl
  · rename_i row' db₁ hupd
    obtain ⟨row, hrow, hp, -, rfl⟩ := updateInstallation_eq_some hupd
    simp only [decide_eq_true_eq] at hp
    exact .inr ⟨row, hrow, hp.1, rfl⟩

theorem retireOnce_cases (db : Db) (now : Time) (id operationId : Uuid) :
    db.retireOnce now id operationId = db ∧
      (∀ r, db.installations.find? id = some r → r.state = .retired) ∨
      ∃ row, db.installations.find? id = some row ∧ row.state ≠ .retired ∧
      db.retireOnce now id operationId =
        (db.modifyInstallation id (Installation.retire now)
        (Installation.retire_installationId now)).cleanUp now id
          operationId := by
  unfold Db.retireOnce
  split
  · rename_i hupd
    refine .inl ⟨rfl, fun r hr => ?_⟩
    simpa using updateInstallation_eq_none hupd hr
  · rename_i row' db₁ hupd
    obtain ⟨row, hrow, hp, -, rfl⟩ := updateInstallation_eq_some hupd
    exact .inr ⟨row, hrow, by simpa using hp, rfl⟩

theorem retire_ok {u : Unit} (h : retire sha256 db now id operationId = .ok (u, db')) :
    (db.operations.find? operationId ≠ none ∧ db' = db) ∨
      (db.operations.find? operationId = none ∧ (db.installations.find? id).isSome = true ∧
        (db.retireOnce now id operationId).insertOperation
          ⟨operationId, id, .retire, retireDigest sha256 id, .empty, now⟩ = .ok db') := by
  unfold retire at h
  split at h
  · rename_i existing hex
    simp only [bind_eq_ok, Except.ok.injEq, Prod.mk.injEq] at h
    obtain ⟨_, _, _, hdb⟩ := h
    exact .inl ⟨by rw [hex]; simp, hdb.symm⟩
  · rename_i hnone
    simp only [retireTx, bind_eq_ok, require_eq_ok, Except.ok.injEq, Prod.mk.injEq] at h
    obtain ⟨_, hsome, db₁, hop, _, rfl⟩ := h
    exact .inr ⟨hnone, hsome, hop⟩

theorem relocate_ok {placement : String} {u : Unit}
    (h : relocate sha256 db now id operationId placement = .ok (u, db')) :
    (db.operations.find? operationId ≠ none ∧ db' = db) ∨
      (db.operations.find? operationId = none ∧ placementOk placement = true ∧
        ∃ row, db.installations.find? id = some row ∧ row.state = .dnsReady ∧
          row.placement ≠ placement ∧
          ((((db.modifyInstallation id
            (fun i => { i with placement := placement, generation := i.generation + 1 })
            (fun _ => rfl)).dropLease id).enqueue now id .publishName
            [("placement", placement)]).audit now id (some operationId)
              .placementMoved).insertOperation ⟨operationId, id, .relocate,
            relocationDigest sha256 id placement, .empty, now⟩ = .ok db') := by
  simp only [relocate, bind_eq_ok, require_eq_ok] at h
  obtain ⟨_, hplacement, h⟩ := h
  split at h
  · rename_i existing hex
    simp only [bind_eq_ok, Except.ok.injEq, Prod.mk.injEq] at h
    obtain ⟨_, _, _, hdb⟩ := h
    exact .inl ⟨by rw [hex]; simp, hdb.symm⟩
  · rename_i hnone
    simp only [relocateTx, bind_eq_ok, found_eq_ok, Except.ok.injEq, Prod.mk.injEq] at h
    obtain ⟨⟨row', db₁⟩, hupd, db₂, hop, _, rfl⟩ := h
    obtain ⟨row, hrow, hp, -, rfl⟩ := updateInstallation_eq_some hupd
    simp only [decide_eq_true_eq] at hp
    exact .inr ⟨hnone, hplacement, row, hrow, hp.1, hp.2, hop⟩

/-! ## Challenge values -/

theorem addChallengeValue_ok {txt : String} (h : addChallengeValue db now id txt = .ok db') :
    (db.challengeValues.rows.filter fun v =>
      v.installationId = id ∧ now < v.expiresAt).length < maxLiveChallengeValues ∧
    ∃ db₁, (db.dropLapsed now id).insertChallengeValue ⟨id, txt, now + challengeLifetime, now⟩ =
        .ok db₁ ∧
      db' = db₁.challengeSetChanged now id .challengeValueAdded := by
  simp only [addChallengeValue, bind_eq_ok, require_eq_ok, Except.ok.injEq] at h
  obtain ⟨_, hroom, db₁, hins, hdb⟩ := h
  exact ⟨hroom, db₁, hins, hdb.symm⟩

theorem liveValue_eq_some {txt : String} {v : ChallengeValue} :
    liveValue db now id txt = some v ↔
      db.challengeValues.find? (id, txt) = some v ∧ now < v.expiresAt := by
  simp [liveValue, Option.filter_eq_some_iff]

theorem ensureChallengeValue_ok {generation : Nat} {txt : String} {r : Nat × Nat}
    (h : ensureChallengeValue db now id generation txt = .ok (r, db')) :
    validateChallengeValue txt = .ok () ∧
    challengeCredentialCurrent db now id generation = true ∧
    ∃ row, db.installations.find? id = some row ∧ row.state = .dnsReady ∧
      ((∃ v, liveValue db now id txt = some v ∧
        db' = (db.ensureChallengeState id).refreshValue id txt (now + challengeLifetime)) ∨
      (liveValue db now id txt = none ∧
        addChallengeValue (db.ensureChallengeState id) now id txt = .ok db')) := by
  simp only [ensureChallengeValue, bind_eq_ok, require_eq_ok, found_eq_ok, Except.ok.injEq,
    Prod.mk.injEq] at h
  obtain ⟨_, hvalid, row, hrow, _, hcred, db₁, hstore, s, -, -, rfl⟩ := h
  obtain ⟨hrow, hstate⟩ := find_filter_state hrow
  refine ⟨hvalid, hcred, row, hrow, hstate, ?_⟩
  unfold storeChallengeValue at hstore
  split at hstore
  · rename_i v hv
    cases hstore
    exact .inl ⟨v, hv, rfl⟩
  · rename_i hv
    exact .inr ⟨hv, hstore⟩

theorem challengeValueReady_ok {txt : String} {revision : Nat}
    (h : challengeValueReady db now id txt revision = .ok true) :
    ∃ v, liveValue db now id txt = some v ∧ ∃ s, db.challengeState.find? id = some s ∧
      s.readyRevision = some s.revision ∧ revision ≤ s.revision := by
  simp only [challengeValueReady, bind_eq_ok, require_eq_ok] at h
  obtain ⟨_, _, _, _, h⟩ := h
  split at h
  · cases h
  · rename_i s hs
    simp only [Except.ok.injEq, decide_eq_true_eq] at h
    obtain ⟨v, hv⟩ := Option.ne_none_iff_exists'.mp h.1
    exact ⟨v, hv, s, hs, h.2⟩

theorem expireChallengeValuesOf_cases (db : Db) (now : Time) (id : Uuid) :
    expireChallengeValuesOf db now id = (false, db) ∨
      (∃ v ∈ db.challengeValues.rows, v.installationId = id ∧ v.expiresAt ≤ now) ∧
      expireChallengeValuesOf db now id =
        (true, (db.dropLapsed now id).challengeSetChanged now id .challengeValueExpired) := by
  unfold expireChallengeValuesOf
  split
  · rename_i hany
    simp only [List.any_eq_true, decide_eq_true_eq] at hany
    exact .inr ⟨hany, rfl⟩
  · exact .inl rfl

theorem markChallengeReconciled_cases (db : Db) (id : Uuid) (revision : Nat) :
    markChallengeReconciled db id revision = (false, db) ∨
      ∃ s, db.challengeState.find? id = some s ∧ (s.revision : Int) = i64OfU64 revision ∧
      markChallengeReconciled db id revision = (true, db.modifyChallengeState id
        (fun s => { s with readyRevision := some s.revision }) (fun _ => rfl)) := by
  unfold markChallengeReconciled
  split
  · exact .inl rfl
  · rename_i s hs
    obtain ⟨hfind, hrev⟩ := Option.filter_eq_some_iff.mp hs
    exact .inr ⟨s, hfind, by simpa using hrev, rfl⟩

/-! ## Bootstrap challenges and nonces -/

theorem createBootstrapChallenge_ok {nonce : String} {source : IpAddr} {b : Bool}
    (h : createBootstrapChallenge db now nonce source = .ok (b, db')) :
    ∃ t, db' = { db with bootstrapChallenges := t } := by
  unfold createBootstrapChallenge at h
  dsimp only at h
  split at h
  · cases h
    exact ⟨_, rfl⟩
  · simp only [bind_eq_ok, found_eq_ok, Except.ok.injEq, Prod.mk.injEq] at h
    obtain ⟨t, -, -, rfl⟩ := h
    exact ⟨t, rfl⟩

theorem consumeBootstrapChallenge_snd (db : Db) (now : Time) (nonce : String) (source : IpAddr) :
    ∃ t, (consumeBootstrapChallenge db now nonce source).2 = { db with bootstrapChallenges := t } := by
  unfold consumeBootstrapChallenge
  split
  · exact ⟨_, rfl⟩
  · exact ⟨_, rfl⟩

theorem consumeNonce_ok {nonce : String} {b : Bool}
    (h : consumeNonce db now id nonce = .ok (b, db')) :
    (b = false ∧ db' = db) ∨
      ∃ t, b = true ∧ db.usedNonces.insert? ⟨id, nonce, now + minutes 5⟩ = some t ∧
        db' = { db with usedNonces := t } := by
  unfold consumeNonce at h
  split at h
  · cases h
    exact .inl ⟨rfl, rfl⟩
  · split at h
    · cases h
      exact .inl ⟨rfl, rfl⟩
    · rename_i t ht
      simp only [bind_eq_ok, require_eq_ok, Except.ok.injEq, Prod.mk.injEq] at h
      obtain ⟨_, _, rfl, rfl⟩ := h
      exact .inr ⟨t, rfl, ht, rfl⟩

/-! ## Certificate transparency -/

theorem ensureCheckpoint_cases (db : Db) (now : Time) (source : String) :
    db.ensureCheckpoint now source = db ∨
      ∃ t, db.ensureCheckpoint now source = ({ db with ctFeedCheckpoints := t } : Db).advanceFence := by
  unfold Db.ensureCheckpoint
  split
  · exact .inl rfl
  · exact .inr ⟨_, rfl⟩

theorem ensureCtSource_ok {source : String} {u : Unit}
    (h : ensureCtSource db now source = .ok (u, db')) : db' = db.ensureCheckpoint now source := by
  simp only [ensureCtSource, bind_eq_ok, Except.ok.injEq, Prod.mk.injEq] at h
  obtain ⟨_, _, _, hdb⟩ := h
  exact hdb.symm

theorem markCtFeedHealthy_ok {source : String} {position : Nat} {u : Unit}
    (h : markCtFeedHealthy db now source position = .ok (u, db')) :
    db' = db.modifyCheckpoint source (fun c => { c with observedAt := now }) (fun _ => rfl) := by
  simp only [markCtFeedHealthy, bind_eq_ok, found_eq_ok, Except.ok.injEq, Prod.mk.injEq] at h
  obtain ⟨_, _, _, _, _, hdb⟩ := h
  exact hdb.symm

theorem markCtAlertDelivered_cases (db : Db) (now : Time) (alert : Nat) :
    markCtAlertDelivered db now alert = db ∨
      ∃ t, markCtAlertDelivered db now alert = ({ db with ctAlerts := t } : Db).advanceFence := by
  unfold markCtAlertDelivered
  split
  · exact .inr ⟨_, rfl⟩
  · exact .inl rfl

theorem markCtLagAlertDelivered_cases (db : Db) (now : Time) (alert : Nat) :
    markCtLagAlertDelivered db now alert = db ∨
      ∃ t, markCtLagAlertDelivered db now alert =
        ({ db with ctHealthAlerts := t } : Db).advanceFence := by
  unfold markCtLagAlertDelivered
  split
  · exact .inr ⟨_, rfl⟩
  · exact .inl rfl

theorem queueCtLagAlert_ok {source : String} {u : Unit}
    (h : queueCtLagAlert db now source = .ok (u, db')) :
    db' = db ∨ ∃ t, db' = ({ db with ctHealthAlerts := t } : Db).advanceFence := by
  simp only [queueCtLagAlert, bind_eq_ok] at h
  obtain ⟨_, _, h⟩ := h
  split at h
  · cases h
    exact .inl rfl
  · split at h
    · cases h
      exact .inl rfl
    · cases h
      exact .inr ⟨_, rfl⟩

theorem recordExpectedCertificate_ok {certificate : CertificateMetadata} {u : Unit}
    (h : recordExpectedCertificate db now id certificate = .ok (u, db')) :
    ∃ row, db.installations.find? id = some row ∧ row.state = .dnsReady ∧
      db' = (db.addCertificate ⟨id, certificate.keyFingerprint, certificate.lineage,
        i64OfU64 certificate.notBeforeMs, i64OfU64 certificate.notAfterMs⟩).audit now id none
          .certificateExpected := by
  simp only [recordExpectedCertificate, bind_eq_ok, require_eq_ok, found_eq_ok, Except.ok.injEq,
    Prod.mk.injEq] at h
  obtain ⟨_, _, _, _, _, _, row, hrow, _, _, _, _, _, hdb⟩ := h
  obtain ⟨hrow, hstate⟩ := find_filter_state hrow
  exact ⟨row, hrow, hstate, hdb.symm⟩

theorem raiseAlert_ok {source : String} {position : Nat} {hostname fingerprint : String}
    (h : db.raiseAlert now source position hostname fingerprint = .ok db') :
    ∃ a db₁, db.insertAlert a = .ok db₁ ∧
      (db' = db₁ ∨ ∃ i, db' = db₁.audit now i none .unexpectedCt) := by
  simp only [Db.raiseAlert, bind_eq_ok] at h
  obtain ⟨db₁, hins, h⟩ := h
  refine ⟨_, db₁, hins, ?_⟩
  split at h
  · cases h
    exact .inl rfl
  · cases h
    exact .inr ⟨_, rfl⟩

theorem recordObservation_ok {source : String} {position : Nat} {hostname fingerprint : String}
    {b : Bool} (h : recordObservation db now source position hostname fingerprint = .ok (b, db')) :
    ∃ o db₁ db₂, db.insertObservation o = .ok db₁ ∧
      (db₂ = db₁ ∨ db₁.raiseAlert now source position hostname fingerprint = .ok db₂) ∧
      db' = db₂.modifyCheckpoint source
        (fun c => { c with position := position, observedAt := now }) (fun _ => rfl) := by
  simp only [recordObservation, bind_eq_ok, Except.ok.injEq, Prod.mk.injEq] at h
  obtain ⟨db₁, hins, db₂, halert, -, hdb⟩ := h
  refine ⟨_, db₁, db₂, hins, ?_, hdb.symm⟩
  split at halert
  · cases halert
    exact .inl rfl
  · exact .inr halert

theorem observeCt_ok {source : String} {position : Nat} {hostname fingerprint : String} {b : Bool}
    (h : observeCt db now source position hostname fingerprint = .ok (b, db')) :
    db' = db ∨ recordObservation (db.ensureCheckpoint now source) now source position hostname
      fingerprint = .ok (b, db') := by
  simp only [observeCt, bind_eq_ok, found_eq_ok, require_eq_ok] at h
  obtain ⟨_, _, _, _, _, _, _, _, checkpoint, _, h⟩ := h
  split at h
  · simp only [bind_eq_ok, found_eq_ok, require_eq_ok, Except.ok.injEq, Prod.mk.injEq] at h
    obtain ⟨_, _, _, _, _, hdb⟩ := h
    exact .inl hdb.symm
  · simp only [bind_eq_ok, require_eq_ok] at h
    obtain ⟨_, _, h⟩ := h
    exact .inr h

/-! ## Calls -/

theorem answer_ok {α : Type} {f : α → Reply} {r : Except StoreError (α × Db)} {reply : Reply} :
    answer f r = .ok (reply, db') ↔ ∃ a, r = .ok (a, db') ∧ f a = reply := by
  unfold answer
  split
  · rename_i a db₁
    simp only [Except.ok.injEq, Prod.mk.injEq]
    constructor
    · rintro ⟨rfl, rfl⟩
      exact ⟨a, ⟨rfl, rfl⟩, rfl⟩
    · rintro ⟨a', ⟨rfl, rfl⟩, rfl⟩
      exact ⟨rfl, rfl⟩
  · simp

theorem answer_error {α : Type} {f : α → Reply} {r : Except StoreError (α × Db)} {e : StoreError} :
    answer f r = .error e ↔ r = .error e := by
  unfold answer
  split
  · simp
  · simp

theorem answer_total {α : Type} {f : α → Reply} {p : α × Db} {reply : Reply} :
    answer f (.ok p) = .ok (reply, db') ↔ reply = f p.1 ∧ db' = p.2 := by
  obtain ⟨a, db₁⟩ := p
  simp [answer, eq_comm]

theorem exec_ok {call : Call} {reply : Reply} (h : call.exec sha256 db = .ok (reply, db')) :
    call.op.transact sha256 call.store call.now db = .ok (reply, db') ∧ db'.inRange = true := by
  unfold Call.exec at h
  split at h
  · rename_i reply₁ db₁ htx
    split at h
    · rename_i hin
      cases h
      exact ⟨htx, hin⟩
    · cases h
  · cases h

/-- A call either fails and changes nothing or commits what its transaction left. -/
theorem after_cases (sha256 : Bytes → Bytes32) (call : Call) (db : Db) :
    call.after sha256 db = db ∨
      ∃ reply, call.exec sha256 db = .ok (reply, call.after sha256 db) ∧
        call.op.transact sha256 call.store call.now db = .ok (reply, call.after sha256 db) ∧
        (call.after sha256 db).inRange = true := by
  unfold Call.after
  cases h : call.exec sha256 db with
  | error e => exact .inl rfl
  | ok r =>
    obtain ⟨htx, hin⟩ := exec_ok h
    exact .inr ⟨r.1, rfl, htx, hin⟩

/-- No counter of a reachable database is out of range. -/
theorem inRange_run {tr : List (Event Db Call)} (h : StoreRun sha256 tr db) : db.inRange = true := by
  refine h.state_invariant (fun db => db.inRange = true) rfl ?_
  rintro db call _ hin rfl
  obtain heq | ⟨_, _, _, hin'⟩ := after_cases sha256 call db
  · rw [heq]
    exact hin
  · exact hin'

theorem generation_lt_of_inRange (h : db.inRange = true) {r : Installation}
    (hr : db.installations.find? id = some r) : r.generation < 2 ^ 63 := by
  simp only [Db.inRange, Bool.and_eq_true, List.all_eq_true, decide_eq_true_eq] at h
  exact h.1.1.2 r (db.installations.find?_mem hr)

/-- The generations stay in range when one that has room is bumped. -/
theorem generations_bump {row : Installation} (hin : db.inRange = true)
    (hrow : db.installations.find? id = some row) (hgen : row.generation + 1 < 2 ^ 63) :
    ∀ r ∈ (db.modifyInstallation id Installation.bump
      Installation.bump_installationId).installations.rows, r.generation < 2 ^ 63 := by
  simp only [Db.inRange, Bool.and_eq_true, List.all_eq_true, decide_eq_true_eq] at hin
  intro r hr
  obtain ⟨r₀, hr₀, rfl⟩ := List.mem_map.mp hr
  split_ifs with hkey
  · have hfind := db.installations.mem_rows_iff.mp hr₀
    rw [of_decide_eq_true hkey, hrow] at hfind
    cases hfind
    exact hgen
  · exact hin.1.1.2 r₀ hr₀

/-- A gateway's claim of an installation that is placed there succeeds, unless a counter is at its
end. -/
theorem exists_claimTunnel {gatewayId : String} {ttlSeconds : Int} {row : Installation} (now : Time)
    (hin : db.inRange = true) (hrow : db.installations.find? id = some row)
    (hstate : row.state = .dnsReady) (hplacement : row.placement = gatewayId)
    (hgateway : gatewayId.isEmpty = false) (httl : 5 ≤ ttlSeconds ∧ ttlSeconds ≤ 60)
    (hgen : row.generation + 1 < 2 ^ 63) (hfence : db.restoreFence + 1 < 2 ^ 63) :
    ∃ g db', claimTunnel db now id gatewayId ttlSeconds = .ok (g, db') ∧ db'.inRange = true := by
  have hupd : db.updateInstallation id (fun i => i.state = .dnsReady ∧ i.placement = gatewayId)
      Installation.bump Installation.bump_installationId =
      some (row.bump, db.modifyInstallation id Installation.bump Installation.bump_installationId) := by
    simp [Db.updateInstallation, hrow, hstate, hplacement]
  refine ⟨row.bump.generation, ((db.modifyInstallation id Installation.bump
    Installation.bump_installationId).putLease ⟨id, row.bump.generation, gatewayId,
      now + seconds ttlSeconds.toNat⟩).audit now id none .tunnelClaimed, ?_, ?_⟩
  · simp only [claimTunnel, bind_eq_ok, require_eq_ok, found_eq_ok]
    exact ⟨(), ⟨hgateway, httl⟩, _, hupd, rfl⟩
  · have hrows := generations_bump hin hrow hgen
    simp only [Db.inRange, Bool.and_eq_true, List.all_eq_true, decide_eq_true_eq] at hin ⊢
    exact ⟨⟨⟨hfence, hrows⟩, hin.1.2⟩, hin.2⟩

theorem i64OfU64_of_lt {n : Nat} (h : n < 2 ^ 63) : i64OfU64 n = n := if_pos h

end BloomRelay.Store
