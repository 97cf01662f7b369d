import BloomRelay.Store.Proofs.ChallengeSetProofs
import BloomRelay.Store.Proofs.CredentialProofs
import BloomRelay.Store.Proofs.OperationProofs

/-!
# Failures with the database up

Every error of the database is `unavailable`, also those of one that is up: a value that it does not bind
or convert, and a violated constraint. Here is which calls of the control API can run into one. No
constraint is violated in a reachable state, as long as what the relay draws at random is new; the values
that clients supply unchecked are those of a report and of a readiness query.
-/

namespace BloomRelay.Store

open Protocol Checked

variable {sha256 : Bytes → Bytes32} {store : StoreConfig} {db db' : Db} {now : Time}
  {id operationId : Uuid} {e : StoreError} {tr : List (Event Db Call)}

/-! ## Values -/

theorem timestampOk_iff {ms : Int} :
    timestampOk ms = true ↔ -210866803200000 ≤ ms ∧ ms < 9224318015999999 := by
  rw [timestampOk, Bool.and_eq_true, decide_eq_true_iff, decide_eq_true_iff]
  unfold doubleOfMs
  split_ifs <;> omega

/-- What `record_expected_certificate` checks. -/
structure Acceptable (db : Db) (id : Uuid) (certificate : CertificateMetadata) : Prop where
  hostname : validateHostname certificate.hostname = .ok ()
  fingerprint : validateFingerprint certificate.keyFingerprint = .ok ()
  lineage : certificate.lineage.isEmpty = false ∧ certificate.lineage.utf8ByteSize ≤ 128
  validity : certificate.notBeforeMs < certificate.notAfterMs
  installation : ∃ i, db.installations.find? id = some i ∧ i.state = .dnsReady ∧
    i.hostname = certificate.hostname ∧ i.acmeAccountUri = some certificate.acmeAccountUri

theorem Acceptable.filter {certificate : CertificateMetadata} (h : Acceptable db id certificate) :
    ∃ i, (db.installations.find? id).filter (fun i => i.state = .dnsReady) = some i ∧
      i.hostname = certificate.hostname ∧ i.acmeAccountUri = some certificate.acmeAccountUri := by
  obtain ⟨i, hi, hstate, hmatch⟩ := h.installation
  refine ⟨i, ?_, hmatch⟩
  rw [hi, Option.filter_some, if_pos (decide_eq_true hstate)]

theorem recordExpectedCertificate_ok_iff {certificate : CertificateMetadata} :
    (∃ answer, recordExpectedCertificate db now id certificate = .ok answer) ↔
      Acceptable db id certificate ∧ storable certificate = true := by
  simp only [recordExpectedCertificate, bind_eq_ok, require_eq_ok, found_eq_ok]
  constructor
  · rintro ⟨_, -, hhost, _, hprint, -, ⟨hempty, hlength, hvalidity⟩, i, hi, -, hmatch, -, hstorable, -⟩
    obtain ⟨hfind, hstate⟩ := find_filter_state hi
    exact ⟨⟨hhost, hprint, ⟨hempty, hlength⟩, hvalidity, i, hfind, hstate, hmatch⟩, hstorable⟩
  · rintro ⟨h, hstorable⟩
    obtain ⟨i, hi, hmatch⟩ := h.filter
    exact ⟨_, (), h.hostname, (), h.fingerprint, (), ⟨h.lineage.1, h.lineage.2, h.validity⟩, i, hi, (),
      hmatch, (), hstorable, rfl⟩

/-- A report that passes the checks but that the database does not take. -/
theorem recordExpectedCertificate_unavailable {certificate : CertificateMetadata}
    (h : Acceptable db id certificate) (hno : ¬ storable certificate = true) :
    recordExpectedCertificate db now id certificate = .error .unavailable := by
  obtain ⟨i, hi, hmatch⟩ := h.filter
  simp only [recordExpectedCertificate, bind_eq_error, require_eq_ok, found_eq_ok, require_eq_error]
  exact .inr ⟨(), h.hostname, .inr ⟨(), h.fingerprint, .inr ⟨(), ⟨h.lineage.1, h.lineage.2, h.validity⟩,
    .inr ⟨i, hi, .inr ⟨(), hmatch, .inl ⟨hno, trivial⟩⟩⟩⟩⟩⟩

/-- Any other is refused by one of the checks. -/
theorem recordExpectedCertificate_error {certificate : CertificateMetadata}
    (h : recordExpectedCertificate db now id certificate = .error e) :
    e = .invalidRequest ∨ e = .conflict ∨ Acceptable db id certificate ∧ ¬ storable certificate = true := by
  simp only [recordExpectedCertificate, bind_eq_error, require_eq_error, require_eq_ok, found_eq_error,
    found_eq_ok] at h
  rcases h with ⟨-, rfl⟩ | ⟨-, hhost, h | ⟨_, hprint, ⟨-, rfl⟩ | ⟨-, ⟨hempty, hlength, hvalidity⟩,
    ⟨-, rfl⟩ | ⟨i, hi, ⟨-, rfl⟩ | ⟨-, hmatch, ⟨hno, -⟩ | ⟨-, -, hno⟩⟩⟩⟩⟩⟩
  · exact .inl rfl
  · exact .inl (require_eq_error.mp h).2.symm
  · exact .inl rfl
  · exact .inr (.inl rfl)
  · exact .inr (.inl rfl)
  · obtain ⟨hfind, hstate⟩ := find_filter_state hi
    exact .inr (.inr ⟨⟨hhost, hprint, ⟨hempty, hlength⟩, hvalidity, i, hfind, hstate, hmatch⟩, hno⟩)
  · cases hno

/-! ## Constraints -/

/-- The next generation of an installation has no credential yet. -/
theorem next_generation_free (h : StoreRun sha256 tr db) {row : Installation}
    (hrow : db.installations.find? id = some row) (scope : BearerScope) :
    db.credentials.find? (id, scope, row.generation + 1) = none := by
  by_contra hfound
  obtain ⟨c, hc⟩ := Option.ne_none_iff_exists'.mp hfound
  obtain ⟨hid, hrest⟩ := Prod.mk.inj (db.credentials.find?_key hc)
  obtain ⟨row', hrow', hle⟩ := credential_le_installation h (db.credentials.find?_mem hc)
  rw [hid, hrow, Option.some.injEq] at hrow'
  rw [← hrow', (Prod.mk.inj hrest).2] at hle
  omega

/-- Issues and renewals store their credential. -/
theorem storeCredential_ne_error (hrun : StoreRun sha256 tr db)
    (hfree : db.operations.find? operationId = none) {row : Installation}
    (hrow : db.installations.find? id = some row) {scope : BearerScope} {p : Credential → Bool}
    {kind : OperationKind} {digest tokenHash : Bytes32} {expiresAt : Time} {audited : Option Uuid}
    {event : AuditEvent} :
    ((db.modifyInstallation id Installation.bump Installation.bump_installationId).revoke now id scope
      p).storeCredential now operationId kind digest
        ⟨id, scope, row.bump.generation, tokenHash, expiresAt, none⟩ audited event ≠ .error e := by
  intro h
  rcases (storeCredential_error h).2 with hcredential | hoperation
  · refine hcredential ?_
    simp only [Db.revoke, Table.find?_updateWhere]
    show (db.credentials.find? (id, scope, row.generation + 1)).map _ = none
    rw [next_generation_free hrun hrow]
    rfl
  · exact hoperation hfree

theorem issueBearerTx_error {scope : BearerScope} {tokenHash : Bytes32} {validitySeconds : Int}
    (hrun : StoreRun sha256 tr db) (hfree : db.operations.find? operationId = none)
    (h : issueBearerTx sha256 store db now id operationId scope tokenHash validitySeconds = .error e) :
    e = .conflict ∧ db.updateInstallation id (fun i => i.state ≠ .retired) Installation.bump
      Installation.bump_installationId = none := by
  simp only [issueBearerTx] at h
  rcases bind_eq_error.mp h with h | ⟨⟨row, db₁⟩, hupd, h⟩
  · obtain ⟨hnone, rfl⟩ := found_eq_error.mp h
    exact ⟨rfl, hnone⟩
  · obtain ⟨r, hr, -, rfl, rfl⟩ := updateInstallation_eq_some (found_eq_ok.mp hupd)
    exact absurd h (storeCredential_ne_error hrun hfree hr)

theorem renewBearerTx_error {scope : BearerScope} {generation : Nat} {currentToken : String}
    {newTokenHash : Bytes32} (hrun : StoreRun sha256 tr db)
    (hfree : db.operations.find? operationId = none)
    (h : renewBearerTx sha256 store db now id operationId scope generation currentToken newTokenHash =
      .error e) : e = .unauthorized := by
  simp only [renewBearerTx] at h
  rcases bind_eq_error.mp h with h | ⟨current, hcurrent, h⟩
  · exact (found_eq_error.mp h).2.symm
  · obtain ⟨row, hrow, -⟩ := renewableCredential_eq_some (found_eq_ok.mp hcurrent)
    rcases bind_eq_error.mp h with h | ⟨_, -, h⟩
    · exact (require_eq_error.mp h).2.symm
    · rcases bind_eq_error.mp h with h | ⟨⟨row', db₁⟩, hupd, h⟩
      · have hfalse := updateInstallation_eq_none (found_eq_error.mp h).1 hrow
        cases hfalse
      · obtain ⟨r, hr, -, rfl, rfl⟩ := updateInstallation_eq_some (found_eq_ok.mp hupd)
        exact absurd h (storeCredential_ne_error hrun hfree hr)

theorem retire_error (h : retire sha256 db now id operationId = .error e) : e = .conflict := by
  unfold retire at h
  split at h
  · rcases bind_eq_error.mp h with h | ⟨_, -, hno⟩
    · exact (require_eq_error.mp h).2.symm
    · cases hno
  · rename_i hfree
    rcases bind_eq_error.mp h with h | ⟨_, -, h⟩
    · exact (require_eq_error.mp h).2.symm
    · rcases bind_eq_error.mp h with h | ⟨_, -, hno⟩
      · refine absurd ?_ (insertOperation_error h).2
        show (db.retireOnce now id operationId).operations.find? operationId = none
        have hsame : (db.retireOnce now id operationId).operations = db.operations := by
          unfold Db.retireOnce
          split
          · rfl
          · rename_i hupd
            obtain ⟨_, -, -, -, rfl⟩ := updateInstallation_eq_some hupd
            rfl
        rw [hsame]
        exact hfree
      · cases hno

/-- What `allocate` draws at random belongs to no installation. -/
structure Unused (db : Db) (id : Uuid) (random : BitVec 128) : Prop where
  id : db.installations.find? id = none
  hostname : ∀ i ∈ db.installations.rows, i.hostname ≠ allocatedHostname random
  reservation : db.hostnameReservations.find? (allocatedHostname random) = none

theorem allocateTx_ne_error {key : Bytes32} {placement : String} {random : BitVec 128}
    (hfree : db.operations.find? operationId = none) (hunused : Unused db id random) :
    allocateTx db now operationId key placement id random ≠ .error e := by
  intro h
  simp only [allocateTx] at h
  rcases bind_eq_error.mp h with h | ⟨db₁, hins, h⟩
  · simp only [Db.insertInstallation, bind_eq_error, require_eq_error, found_eq_error] at h
    rcases h with ⟨htaken, -⟩ | ⟨_, -, ⟨hnone, -⟩ | ⟨_, -, hno⟩⟩
    · exact htaken hunused.hostname
    · exact (Table.insert?_eq_none_iff _).mp hnone hunused.id
    · cases hno
  obtain ⟨-, t, -, rfl⟩ := insertInstallation_ok hins
  rcases bind_eq_error.mp h with h | ⟨db₂, hins, h⟩
  · simp only [Db.insertReservation, bind_eq_error, found_eq_error] at h
    rcases h with ⟨hnone, -⟩ | ⟨_, -, hno⟩
    · exact (Table.insert?_eq_none_iff _).mp hnone hunused.reservation
    · cases hno
  obtain ⟨t', -, rfl⟩ := insertReservation_ok hins
  rcases bind_eq_error.mp h with h | ⟨_, -, hno⟩
  · exact (insertOperation_error h).2 hfree
  · cases hno

theorem allocate_error {key : Bytes32} {placement : String} {random : BitVec 128}
    (hrun : StoreRun sha256 tr db) (hunused : Unused db id random)
    (h : allocate db now operationId key placement id random = .error e) :
    e = .invalidRequest ∧ placementOk placement = false ∨ e = .conflict := by
  simp only [allocate] at h
  rcases bind_eq_error.mp h with h | ⟨_, -, h⟩
  · obtain ⟨hplacement, rfl⟩ := require_eq_error.mp h
    exact .inl ⟨rfl, Bool.eq_false_iff.mpr hplacement⟩
  split at h
  · rcases bind_eq_error.mp h with h | ⟨_, -, hno⟩
    · exact .inr (allocateReplay_eq_error.mp h).2.symm
    · cases hno
  · rename_i hnone
    have hfree : db.operations.find? operationId = none := by
      cases ho : db.operations.find? operationId with
      | none => rfl
      | some o =>
        rw [Db.allocated?, ho] at hnone
        exact absurd hnone (operation_installation hrun ho)
    exact absurd h (allocateTx_ne_error hfree hunused)

theorem createBootstrapChallenge_ne_error {nonce : String} {source : IpAddr}
    (hfresh : db.bootstrapChallenges.find? nonce = none) :
    createBootstrapChallenge db now nonce source ≠ .error e := by
  intro h
  unfold createBootstrapChallenge at h
  dsimp only at h
  split at h
  · cases h
  · rcases bind_eq_error.mp h with h | ⟨_, -, hno⟩
    · exact (Table.insert?_eq_none_iff _).mp (found_eq_error.mp h).1 hfresh
    · cases hno

end BloomRelay.Store
