import BloomRelay.Store.Lifecycle
import BloomRelay.Store.Proofs.BookProofs

/-!
# Every transaction is a step in the life of every installation

First what each statement does to the view of an installation: the one it names (`…_self`) and every
other (`…_ne`). Then what each transaction does, and last `life_step`: a call takes the view of every
installation through the `LifeStep` that `Call.change` names.
-/

namespace BloomRelay.Store

open Protocol Checked

variable {sha256 : Bytes → Bytes32} {store : StoreConfig} {db db' : Db} {now : Time}
  {i id operationId : Uuid}

/-! ## Statements that no view shows -/

@[simp] theorem view_audit (op : Option Uuid) (e : AuditEvent) :
    (db.audit now id op e).view i = db.view i := rfl

@[simp] theorem view_advanceFence : db.advanceFence.view i = db.view i := rfl

theorem view_insertOperation {o : Operation} (h : db.insertOperation o = .ok db') :
    db'.view i = db.view i := by
  obtain ⟨t, -, rfl⟩ := insertOperation_ok h
  rfl

theorem view_insertReservation {r : HostnameReservation} (h : db.insertReservation r = .ok db') :
    db'.view i = db.view i := by
  obtain ⟨t, -, rfl⟩ := insertReservation_ok h
  rfl

/-! ## Statements about one installation -/

theorem view_modifyInstallation_self {f : Installation → Installation}
    {hf : ∀ r, (f r).installationId = r.installationId} {r : Installation}
    (hr : db.installations.find? i = some r) :
    (db.modifyInstallation i f hf).view i = { db.view i with row := some (f r) } := by
  ext1
  case row => simp [Db.view, Db.modifyInstallation, hr]
  all_goals rfl

theorem view_modifyInstallation_ne {f : Installation → Installation}
    {hf : ∀ r, (f r).installationId = r.installationId} (h : i ≠ id) :
    (db.modifyInstallation id f hf).view i = db.view i := by
  ext1
  case row => simp [Db.view, Db.modifyInstallation, Table.find?_modify_ne _ _ _ h]
  all_goals rfl

theorem view_insertInstallation_self {r : Installation} (h : db.insertInstallation r = .ok db')
    (hi : r.installationId = i) :
    (db.view i).row = none ∧ db'.view i = { db.view i with row := some r } := by
  obtain ⟨-, t, ht, rfl⟩ := insertInstallation_ok h
  subst hi
  refine ⟨(Table.insert?_eq_some_iff _).mp ht |>.1, ?_⟩
  ext1
  case row => simp [Db.view, Table.find?_insert?_self ht]
  all_goals rfl

theorem view_insertInstallation_ne {r : Installation} (h : db.insertInstallation r = .ok db')
    (hi : i ≠ r.installationId) : db'.view i = db.view i := by
  obtain ⟨-, t, ht, rfl⟩ := insertInstallation_ok h
  ext1
  case row => simp [Db.view, Table.find?_insert?_ne ht (Ne.symm hi)]
  all_goals rfl

theorem view_enqueue_self (db : Db) (now : Time) (i : Uuid) (kind : JobKind) (payload : List (String × String)) :
    ∃ o, NewJob i kind o ∧
      (db.enqueue now i kind payload).view i = { db.view i with jobs := (db.view i).jobs ++ [o] } := by
  refine ⟨⟨db.outbox.length + 1, i, kind, payload, 0, now, none⟩, ⟨rfl, rfl, rfl⟩, ?_⟩
  ext1
  case jobs => simp [Db.view, Db.enqueue]
  all_goals rfl

theorem view_enqueue_ne (kind : JobKind) (payload : List (String × String)) (h : i ≠ id) :
    (db.enqueue now id kind payload).view i = db.view i := by
  ext1
  case jobs => simp [Db.view, Db.enqueue, Ne.symm h]
  all_goals rfl

/-- The two clean-up jobs are queued one after the other. -/
theorem view_enqueueRemoval_self (db : Db) (now : Time) (i : Uuid) :
    ∃ o o', NewJob i .removeRecords o ∧ NewJob i .removeTxtAll o' ∧
      (db.enqueueRemoval now i).view i =
        { db.view i with jobs := (db.view i).jobs ++ [o, o'] } := by
  obtain ⟨o, ho, hv⟩ := view_enqueue_self db now i .removeRecords []
  obtain ⟨o', ho', hv'⟩ := view_enqueue_self (db.enqueue now i .removeRecords []) now i
    .removeTxtAll []
  refine ⟨o, o', ho, ho', ?_⟩
  rw [Db.enqueueRemoval, hv', hv]
  simp

theorem view_enqueueRemoval_ne (h : i ≠ id) : (db.enqueueRemoval now id).view i = db.view i := by
  rw [Db.enqueueRemoval, view_enqueue_ne _ _ h, view_enqueue_ne _ _ h]

theorem view_dropLease_self : (db.dropLease i).view i = { db.view i with lease := none } := by
  ext1
  case lease => simp [Db.view, Db.dropLease]
  all_goals rfl

theorem view_dropLease_ne (h : i ≠ id) : (db.dropLease id).view i = db.view i := by
  ext1
  case lease => simp [Db.view, Db.dropLease, Table.find?_erase_ne _ h]
  all_goals rfl

theorem view_putLease_self {l : TunnelLease} (h : l.installationId = i) :
    (db.putLease l).view i = { db.view i with lease := some l } := by
  subst h
  ext1
  case lease => simp [Db.view, Db.putLease]
  all_goals rfl

theorem view_putLease_ne {l : TunnelLease} (h : i ≠ l.installationId) :
    (db.putLease l).view i = db.view i := by
  ext1
  case lease => simp [Db.view, Db.putLease, Table.find?_upsert_ne _ (Ne.symm h)]
  all_goals rfl

theorem view_extendLease_self {l : TunnelLease} (h : db.tunnelLeases.find? i = some l)
    (expiresAt : Time) : (db.extendLease i expiresAt).view i =
      { db.view i with lease := some { l with expiresAt := expiresAt } } := by
  ext1
  case lease => simp [Db.view, Db.extendLease, h]
  all_goals rfl

theorem view_extendLease_ne (expiresAt : Time) (h : i ≠ id) :
    (db.extendLease id expiresAt).view i = db.view i := by
  ext1
  case lease => simp [Db.view, Db.extendLease, Table.find?_modify_ne _ _ _ h]
  all_goals rfl

theorem filter_revoke (scope : BearerScope) (p : Credential → Bool) :
    (db.revoke now id scope p).credentials.rows.filter (fun c => c.installationId = i) =
      (db.credentials.rows.filter fun c => c.installationId = i).map fun c =>
        if c.installationId = id ∧ c.scope = scope ∧ p c = true then
          { c with revokedAt := some now } else c := by
  have h := db.credentials.filter_updateWhere
    (fun c => c.installationId = id ∧ c.scope = scope ∧ p c = true)
    (fun c => { c with revokedAt := some now }) (fun _ => rfl)
    (q := fun c => decide (c.installationId = i)) (fun _ => rfl)
  simpa [Db.revoke] using h

theorem view_revoke_self (scope : BearerScope) (p : Credential → Bool) :
    (db.revoke now i scope p).view i = { db.view i with
      credentials := revokeIn now (fun c => c.scope = scope ∧ p c = true) (db.view i).credentials } := by
  ext1
  case credentials =>
    refine (filter_revoke scope p).trans (List.map_congr_left fun c hc => ?_)
    have hci : c.installationId = i := by simpa using (List.mem_filter.mp hc).2
    simp [hci]
  all_goals rfl

theorem view_revoke_ne (scope : BearerScope) (p : Credential → Bool) (h : i ≠ id) :
    (db.revoke now id scope p).view i = db.view i := by
  ext1
  case credentials =>
    refine (filter_revoke scope p).trans ((List.map_congr_left fun c hc => ?_).trans (List.map_id _))
    have hci : c.installationId = i := by simpa using (List.mem_filter.mp hc).2
    have hne : c.installationId ≠ id := by rw [hci]; exact h
    simp [hne]
  all_goals rfl

theorem view_insertCredential_self {c : Credential} (h : db.insertCredential c = .ok db')
    (hi : c.installationId = i) :
    db'.view i = { db.view i with credentials := (db.view i).credentials ++ [c] } := by
  obtain ⟨t, ht, rfl⟩ := insertCredential_ok h
  ext1
  case credentials => simp [Db.view, ((Table.insert?_eq_some_iff _).mp ht).2, hi]
  all_goals rfl

theorem view_insertCredential_ne {c : Credential} (h : db.insertCredential c = .ok db')
    (hi : i ≠ c.installationId) : db'.view i = db.view i := by
  obtain ⟨t, ht, rfl⟩ := insertCredential_ok h
  ext1
  case credentials => simp [Db.view, ((Table.insert?_eq_some_iff _).mp ht).2, Ne.symm hi]
  all_goals rfl

/-! ## Statements about challenge values -/

theorem view_dropValues_self : (db.dropValues i).view i = { db.view i with values := [] } := by
  ext1
  case values => simp [Db.view, valuesOf, Db.dropValues, List.filter_filter]
  all_goals rfl

theorem view_dropValues_ne (h : i ≠ id) : (db.dropValues id).view i = db.view i := by
  ext1
  case values =>
    simp only [Db.view, valuesOf, Db.dropValues, Table.rows_deleteWhere, List.filter_filter]
    refine List.filter_congr fun v _ => ?_
    by_cases hv : v.installationId = i
    · simp [hv, h]
    · simp [hv]
  all_goals rfl

theorem view_dropLapsed_self : (db.dropLapsed now i).view i =
    { db.view i with values := (db.view i).values.filter fun v => now < v.expiresAt } := by
  ext1
  case values =>
    simp only [Db.view, valuesOf, Db.dropLapsed, Table.rows_deleteWhere, List.filter_filter]
    refine List.filter_congr fun v _ => ?_
    by_cases hv : v.installationId = i
    · by_cases hlive : now < v.expiresAt
      · simp [hv, hlive]
      · simp [hv, hlive, not_lt.mp hlive]
    · simp [hv]
  all_goals rfl

theorem view_dropLapsed_ne (h : i ≠ id) : (db.dropLapsed now id).view i = db.view i := by
  ext1
  case values =>
    simp only [Db.view, valuesOf, Db.dropLapsed, Table.rows_deleteWhere, List.filter_filter]
    refine List.filter_congr fun v _ => ?_
    by_cases hv : v.installationId = i
    · simp [hv, h]
    · simp [hv]
  all_goals rfl

theorem view_insertChallengeValue_self {x : ChallengeValue}
    (h : db.insertChallengeValue x = .ok db') (hi : x.installationId = i) :
    db'.view i = { db.view i with values := (db.view i).values ++ [x] } := by
  obtain ⟨t, ht, rfl⟩ := insertChallengeValue_ok h
  ext1
  case values => simp [Db.view, valuesOf, ((Table.insert?_eq_some_iff _).mp ht).2, hi]
  all_goals rfl

theorem view_insertChallengeValue_ne {x : ChallengeValue}
    (h : db.insertChallengeValue x = .ok db') (hi : i ≠ x.installationId) :
    db'.view i = db.view i := by
  obtain ⟨t, ht, rfl⟩ := insertChallengeValue_ok h
  ext1
  case values => simp [Db.view, valuesOf, ((Table.insert?_eq_some_iff _).mp ht).2, Ne.symm hi]
  all_goals rfl

theorem filter_refreshValue (txt : String) (expiresAt : Time) :
    valuesOf (db.refreshValue id txt expiresAt) i = (valuesOf db i).map fun v =>
      if v.key = (id, txt) then { v with expiresAt := expiresAt } else v := by
  have h := db.challengeValues.filter_updateWhere (fun v => v.key = (id, txt))
    (fun v => { v with expiresAt := expiresAt }) (fun _ => rfl)
    (q := fun v => decide (v.installationId = i)) (fun _ => rfl)
  simpa [valuesOf, Db.refreshValue, Table.modify] using h

theorem view_refreshValue_self (txt : String) (expiresAt : Time) :
    (db.refreshValue i txt expiresAt).view i = { db.view i with
      values := (db.view i).values.map fun v =>
        if v.txtValue = txt then { v with expiresAt := expiresAt } else v } := by
  ext1
  case values =>
    refine (filter_refreshValue txt expiresAt).trans (List.map_congr_left fun v hv => ?_)
    have hvi : v.installationId = i := by simpa using (List.mem_filter.mp hv).2
    simp [hvi]
  all_goals rfl

theorem view_refreshValue_ne (txt : String) (expiresAt : Time) (h : i ≠ id) :
    (db.refreshValue id txt expiresAt).view i = db.view i := by
  ext1
  case values =>
    refine (filter_refreshValue txt expiresAt).trans
      ((List.map_congr_left fun v hv => ?_).trans (List.map_id _))
    have hvi : v.installationId = i := by simpa using (List.mem_filter.mp hv).2
    simp [hvi, h]
  all_goals rfl

theorem view_modifyChallengeState_self {f : ChallengeState → ChallengeState}
    {hf : ∀ s, (f s).installationId = s.installationId} :
    (db.modifyChallengeState i f hf).view i =
      { db.view i with challenge := (db.view i).challenge.map f } := by
  ext1
  case challenge => simp [Db.view, Db.modifyChallengeState]
  all_goals rfl

theorem view_modifyChallengeState_ne {f : ChallengeState → ChallengeState}
    {hf : ∀ s, (f s).installationId = s.installationId} (h : i ≠ id) :
    (db.modifyChallengeState id f hf).view i = db.view i := by
  ext1
  case challenge => simp [Db.view, Db.modifyChallengeState, Table.find?_modify_ne _ _ _ h]
  all_goals rfl

theorem view_ensureChallengeState_self :
    (db.ensureChallengeState i).view i =
      { db.view i with challenge := some (challengeStateOr i (db.view i).challenge) } := by
  ext1
  case challenge =>
    simp [Db.view, Db.ensureChallengeState, Table.find?_insertNew_self, challengeStateOr]
  all_goals rfl

theorem view_ensureChallengeState_ne (h : i ≠ id) :
    (db.ensureChallengeState id).view i = db.view i := by
  ext1
  case challenge => exact Table.find?_insertNew_ne _ (Ne.symm h)
  all_goals rfl

theorem view_challengeSetChanged_self (db : Db) (now : Time) (i : Uuid) (e : AuditEvent) :
    ∃ o, NewJob i .reconcileTxt o ∧ (db.challengeSetChanged now i e).view i = { db.view i with
      challenge := (db.view i).challenge.map ChallengeState.bump
      jobs := (db.view i).jobs ++ [o] } := by
  obtain ⟨o, ho, hv⟩ := view_enqueue_self
    (db.modifyChallengeState i ChallengeState.bump ChallengeState.bump_installationId) now i
    .reconcileTxt []
  refine ⟨o, ho, ?_⟩
  rw [Db.challengeSetChanged, view_audit, hv, view_modifyChallengeState_self]

theorem view_challengeSetChanged_ne (e : AuditEvent) (h : i ≠ id) :
    (db.challengeSetChanged now id e).view i = db.view i := by
  rw [Db.challengeSetChanged, view_audit, view_enqueue_ne _ _ h, view_modifyChallengeState_ne h]

/-! ## Transactions

A transaction that names installation `id` takes it through one step and leaves the view of every
other installation alone. -/

/-- Only installation `id` may have changed. -/
def OnlyTouches (id : Uuid) (db db' : Db) : Prop := ∀ i, i ≠ id → db'.view i = db.view i

theorem storeCredential_life {kind : OperationKind} {digest : Bytes32} {c : Credential}
    {auditOperation : Option Uuid} {event : AuditEvent} {r : Nat × Nat}
    (h : db.storeCredential now operationId kind digest c auditOperation event = .ok (r, db')) :
    r.1 = c.generation ∧ OnlyTouches c.installationId db db' ∧
      db'.view c.installationId = { db.view c.installationId with
        credentials := (db.view c.installationId).credentials ++ [c]
        lease := leaseAfterRotation c.scope (db.view c.installationId).lease } := by
  obtain ⟨db₁, db₂, hcred, hop, rfl, rfl⟩ := storeCredential_ok h
  refine ⟨rfl, fun i hi => ?_, ?_⟩
  · rw [view_audit, view_insertOperation hop]
    split
    · rw [view_dropLease_ne hi, view_insertCredential_ne hcred hi]
    · rw [view_insertCredential_ne hcred hi]
  · rw [view_audit, view_insertOperation hop]
    split
    · rename_i hs
      rw [view_dropLease_self, view_insertCredential_self hcred rfl, hs]
      rfl
    · rename_i hs
      rw [view_insertCredential_self hcred rfl, leaseAfterRotation, if_neg hs]

theorem revokeIn_congr {p q : Credential → Bool} (h : ∀ c, p c = q c) (cs : List Credential) :
    revokeIn now p cs = revokeIn now q cs := by
  rw [funext h]

/-- A row is neither moved nor renumbered by a revocation. -/
theorem exists_of_mem_revokeIn {p : Credential → Bool} {cs : List Credential} {x : Credential}
    (h : x ∈ revokeIn now p cs) : ∃ y ∈ cs, x.scope = y.scope ∧ x.generation = y.generation := by
  obtain ⟨y, hy, rfl⟩ := List.mem_map.mp h
  refine ⟨y, hy, ?_⟩
  split <;> exact ⟨rfl, rfl⟩

/-- A row that is still live was not selected. -/
theorem live_of_mem_revokeIn {p : Credential → Bool} {cs : List Credential} {x : Credential}
    (h : x ∈ revokeIn now p cs) (hlive : x.revokedAt = none) : x ∈ cs ∧ p x = false := by
  obtain ⟨y, hy, rfl⟩ := List.mem_map.mp h
  split at hlive
  · cases hlive
  · rename_i hp
    rw [if_neg hp]
    exact ⟨hy, by simpa using hp⟩

theorem issueBearerTx_life {scope : BearerScope} {tokenHash : Bytes32} {validitySeconds : Int}
    {r : Nat × Nat}
    (h : issueBearerTx sha256 store db now id operationId scope tokenHash validitySeconds =
      .ok (r, db')) :
    OnlyTouches id db db' ∧ LifeStep id (db.view id) (.issued scope r.1) (db'.view id) := by
  obtain ⟨row, hrow, hstate, hstore⟩ := issueBearerTx_ok h
  obtain ⟨hgen, hother, hself⟩ := storeCredential_life hstore
  refine ⟨fun i hi => ?_, ?_⟩
  · rw [hother i hi, view_revoke_ne _ _ hi, view_modifyInstallation_ne hi]
  · have hview : db'.view id = _ := hself
    simp only [issuedCredential, view_revoke_self, view_modifyInstallation_self hrow] at hview
    rw [hview, hgen, revokeIn_congr (q := fun c => c.scope = scope ∧ c.revokedAt = none) (by simp)]
    exact LifeStep.issued (db.view id) row now
      (issuedCredential store now id scope tokenHash validitySeconds row) hrow hstate rfl rfl rfl

theorem renewBearerTx_life {scope : BearerScope} {generation : Nat} {currentToken : String}
    {newTokenHash : Bytes32} {r : Nat × Nat}
    (h : renewBearerTx sha256 store db now id operationId scope generation currentToken
      newTokenHash = .ok (r, db')) :
    OnlyTouches id db db' ∧ LifeStep id (db.view id) (.renewed scope r.1) (db'.view id) := by
  obtain ⟨row, old, hrow, hold, -, hstore⟩ := renewBearerTx_ok h
  obtain ⟨row', hrow', hready, hmem, holdid, holdscope, holdgen, holdlive, -, hnewest⟩ :=
    renewableCredential_eq_some hold
  obtain rfl : row' = row := by rw [hrow] at hrow'; exact (Option.some.inj hrow').symm
  obtain ⟨hgen, hother, hself⟩ := storeCredential_life hstore
  refine ⟨fun i hi => ?_, ?_⟩
  · rw [hother i hi, view_revoke_ne _ _ hi, view_modifyInstallation_ne hi]
  · have hview : db'.view id = _ := hself
    simp only [renewedCredential, view_revoke_self, view_modifyInstallation_self hrow] at hview
    -- The number bound to the statement is the generation of the row that was found.
    have hnum : ∀ c : Credential, (decide (c.scope = scope ∧
        decide ((c.generation : Int) = i64OfU64 generation) = true)) =
          decide (c.scope = scope ∧ c.generation = old.generation) := by
      intro c
      rw [← holdgen]
      simp
    rw [hview, hgen, revokeIn_congr hnum]
    refine LifeStep.renewed (db.view id) row' now old
      (renewedCredential store now id scope newTokenHash row') hrow hready ?_ holdscope holdlive ?_
      rfl rfl rfl
    · exact List.mem_filter.mpr ⟨hmem, by simpa using holdid⟩
    · intro n hn hns
      obtain ⟨hn, hni⟩ := List.mem_filter.mp hn
      exact hnewest n hn (by simpa using hni) (hns.trans holdscope)

theorem allocateTx_life {key : Bytes32} {placement : String} {random : BitVec 128} {a : Allocation}
    (hvalid : placementOk placement = true)
    (h : allocateTx db now operationId key placement id random = .ok (a, db')) :
    OnlyTouches id db db' ∧ LifeStep id (db.view id) .other (db'.view id) := by
  obtain ⟨db₁, db₂, db₃, h₁, h₂, h₃, rfl⟩ := allocateTx_ok h
  refine ⟨fun i hi => ?_, ?_⟩
  · rw [view_audit, view_enqueue_ne _ _ hi, view_insertOperation h₃, view_insertReservation h₂,
      view_insertInstallation_ne h₁ hi]
  · obtain ⟨o, ho, hview⟩ := view_enqueue_self db₃ now id .publishName
      [("hostname", allocatedHostname random), ("placement", placement)]
    obtain ⟨hnone, hself⟩ := view_insertInstallation_self h₁ rfl
    have hback : db₃.view id = db₁.view id := by
      rw [view_insertOperation h₃, view_insertReservation h₂]
    have hself : db₁.view id = _ := hself
    rw [view_audit, hview, hback, hself]
    exact LifeStep.allocated _ _ o hnone rfl rfl rfl rfl ho hvalid

theorem registerAcmeAccount_life {uri : String} {u : Unit}
    (h : registerAcmeAccount store db now id uri = .ok (u, db')) :
    OnlyTouches id db db' ∧ LifeStep id (db.view id) (.bound uri) (db'.view id) := by
  obtain ⟨row, hrow, hstate, rfl⟩ := registerAcmeAccount_ok h
  refine ⟨fun i hi => ?_, ?_⟩
  · rw [view_audit, view_enqueue_ne _ _ hi, view_modifyInstallation_ne hi]
  · obtain ⟨o, ho, hview⟩ := view_enqueue_self (db.modifyInstallation id
      (fun i => { i with acmeAccountUri := some uri }) (fun _ => rfl)) now id .publishName
      [("hostname", row.hostname)]
    rw [view_audit, hview, view_modifyInstallation_self hrow]
    exact LifeStep.acmeBound (db.view id) row uri o hrow hstate ho

theorem markDnsReady_life {u : Unit} (h : markDnsReady db now id = .ok (u, db')) :
    OnlyTouches id db db' ∧ LifeStep id (db.view id) .other (db'.view id) := by
  obtain rfl | ⟨row, hrow, hstate, hacme, rfl⟩ := markDnsReady_ok h
  · exact ⟨fun _ _ => rfl, .same _⟩
  · refine ⟨fun i hi => ?_, ?_⟩
    · rw [view_audit, view_modifyInstallation_ne hi]
    · rw [view_audit, view_modifyInstallation_self hrow]
      exact .dnsReady _ row hrow hstate hacme

theorem claimTunnel_life {gatewayId : String} {ttlSeconds : Int} {g : Nat}
    (h : claimTunnel db now id gatewayId ttlSeconds = .ok (g, db')) :
    OnlyTouches id db db' ∧ LifeStep id (db.view id) (.claimed g) (db'.view id) := by
  obtain ⟨row, hrow, hstate, hplace, rfl, rfl⟩ := claimTunnel_ok h
  refine ⟨fun i hi => ?_, ?_⟩
  · rw [view_audit, view_putLease_ne hi, view_modifyInstallation_ne hi]
  · rw [view_audit, view_putLease_self rfl, view_modifyInstallation_self hrow]
    exact LifeStep.claimed (db.view id) row ⟨id, row.generation + 1, gatewayId, _⟩ hrow hstate rfl
      hplace.symm rfl

theorem renewTunnel_life (gatewayId : String) (generation : Nat) :
    OnlyTouches id db (renewTunnel db now id gatewayId generation).2 ∧
      LifeStep id (db.view id) .other ((renewTunnel db now id gatewayId generation).2.view id) := by
  obtain h | ⟨hcur, h⟩ := renewTunnel_cases db now id gatewayId generation
  · rw [h]
    exact ⟨fun _ _ => rfl, .same _⟩
  · obtain ⟨l, hl, -⟩ := tunnelIsCurrent_iff.mp hcur
    rw [h]
    refine ⟨fun i hi => ?_, ?_⟩
    · rw [view_extendLease_ne _ hi]
    · rw [view_extendLease_self hl]
      exact .leaseRenewed (db.view id) l (now + seconds 45) hl

theorem expirePendingAllocation_life :
    OnlyTouches id db (expirePendingAllocation db now id).2 ∧
      LifeStep id (db.view id)
        (if (expirePendingAllocation db now id).1 then .retired else .other)
        ((expirePendingAllocation db now id).2.view id) := by
  obtain h | ⟨row, hrow, hstate, h⟩ := expirePendingAllocation_cases db now id
  · rw [h]
    exact ⟨fun _ _ => rfl, .same _⟩
  · rw [h]
    refine ⟨fun i hi => ?_, ?_⟩
    · simp only [view_audit, view_enqueueRemoval_ne hi, view_modifyInstallation_ne hi]
    · obtain ⟨o, o', ho, ho', hview⟩ := view_enqueueRemoval_self (db.modifyInstallation id
        (Installation.retire now) (Installation.retire_installationId now)) now id
      simp only [view_audit, hview, view_modifyInstallation_self hrow, if_true]
      exact .expired (db.view id) row now o o' hrow hstate ho ho'

theorem retireOnce_life (db : Db) (now : Time) (id operationId : Uuid) :
    OnlyTouches id db (db.retireOnce now id operationId) ∧
      LifeStep id (db.view id)
        (if (db.installations.find? id).any (fun r => r.state ≠ .retired) then .retired else .other)
        ((db.retireOnce now id operationId).view id) := by
  obtain ⟨h, hret⟩ | ⟨row, hrow, hstate, h⟩ := retireOnce_cases db now id operationId
  · have hany : (db.installations.find? id).any (fun r => r.state ≠ .retired) = false := by
      cases hr : db.installations.find? id with
      | none => rfl
      | some r => simp [hret r hr]
    rw [h, hany]
    exact ⟨fun _ _ => rfl, .same _⟩
  · rw [h, Db.cleanUp]
    refine ⟨fun i hi => ?_, ?_⟩
    · simp only [view_audit, view_dropValues_ne hi, view_enqueueRemoval_ne hi, view_dropLease_ne hi,
        view_modifyInstallation_ne hi]
    · obtain ⟨o, o', ho, ho', hview⟩ := view_enqueueRemoval_self ((db.modifyInstallation id
        (Installation.retire now) (Installation.retire_installationId now)).dropLease id) now id
      simp only [view_audit, view_dropValues_self, hview, view_dropLease_self,
        view_modifyInstallation_self hrow, hrow, Option.any_some, hstate, ne_eq, not_false_eq_true,
        decide_true, if_true]
      exact .retired (db.view id) row now o o' hrow hstate ho ho'

theorem retire_life {u : Unit} (h : retire sha256 db now id operationId = .ok (u, db'))
    (hnew : db.operations.find? operationId = none) :
    OnlyTouches id db db' ∧ LifeStep id (db.view id)
      (if (db.installations.find? id).any (fun r => r.state ≠ .retired) then .retired else .other)
      (db'.view id) := by
  obtain ⟨hold, -⟩ | ⟨-, -, hop⟩ := retire_ok h
  · exact absurd hnew hold
  · obtain ⟨hother, hself⟩ := retireOnce_life db now id operationId
    refine ⟨fun i hi => ?_, ?_⟩
    · rw [view_insertOperation hop, hother i hi]
    · rw [view_insertOperation hop]
      exact hself

theorem relocate_life {placement : String} {u : Unit}
    (h : relocate sha256 db now id operationId placement = .ok (u, db'))
    (hnew : db.operations.find? operationId = none) :
    OnlyTouches id db db' ∧ LifeStep id (db.view id) .relocated (db'.view id) := by
  obtain ⟨hold, -⟩ | ⟨-, hvalid, row, hrow, hstate, hplace, hop⟩ := relocate_ok h
  · exact absurd hnew hold
  · refine ⟨fun i hi => ?_, ?_⟩
    · rw [view_insertOperation hop, view_audit, view_enqueue_ne _ _ hi, view_dropLease_ne hi,
        view_modifyInstallation_ne hi]
    · obtain ⟨o, ho, hview⟩ := view_enqueue_self ((db.modifyInstallation id
        (fun i => { i with placement := placement, generation := i.generation + 1 })
        (fun _ => rfl)).dropLease id) now id .publishName [("placement", placement)]
      rw [view_insertOperation hop, view_audit, hview, view_dropLease_self,
        view_modifyInstallation_self hrow]
      exact .relocated (db.view id) row placement o hrow hstate hplace ho hvalid

/-- The value is live in the view exactly when the ensure finds it. -/
theorem mem_values_iff {v : ChallengeValue} {txt : String} :
    v ∈ (db.view id).values ∧ v.txtValue = txt ↔ db.challengeValues.find? (id, txt) = some v := by
  rw [Table.find?_eq_some_iff]
  simp [Db.view, valuesOf, and_assoc]

theorem addChallengeValue_life {txt : String} {row : Installation}
    (hrow : db.installations.find? id = some row) (hstate : row.state = .dnsReady)
    (hvalid : validateChallengeValue txt = .ok ()) (hlive : liveValue db now id txt = none)
    (h : addChallengeValue (db.ensureChallengeState id) now id txt = .ok db') :
    OnlyTouches id db db' ∧ LifeStep id (db.view id) .other (db'.view id) := by
  obtain ⟨hroom, db₁, hins, rfl⟩ := addChallengeValue_ok h
  refine ⟨fun i hi => ?_, ?_⟩
  · rw [view_challengeSetChanged_ne _ hi, view_insertChallengeValue_ne hins hi,
      view_dropLapsed_ne hi, view_ensureChallengeState_ne hi]
  · obtain ⟨o, ho, hview⟩ := view_challengeSetChanged_self db₁ now id .challengeValueAdded
    have hins' : db₁.view id = _ := view_insertChallengeValue_self hins rfl
    rw [hview, hins', view_dropLapsed_self, view_ensureChallengeState_self]
    refine .valueAdded (db.view id) row now ⟨id, txt, now + challengeLifetime, now⟩ o hrow hstate rfl
      ?_ hvalid ?_ rfl ho
    · intro y hy hlt htxt
      have hfind := mem_values_iff.mp ⟨hy, htxt⟩
      have hsome := liveValue_eq_some.mpr ⟨hfind, hlt⟩
      rw [hlive] at hsome
      cases hsome
    · have hfil : ((db.view id).values.filter fun y => now < y.expiresAt) =
          (db.ensureChallengeState id).challengeValues.rows.filter fun v =>
            v.installationId = id ∧ now < v.expiresAt := by
        simp only [Db.view, valuesOf, List.filter_filter, Db.ensureChallengeState]
        refine List.filter_congr fun v _ => ?_
        simp [and_comm]
      rw [hfil]
      exact hroom

theorem ensureChallengeValue_life {generation : Nat} {txt : String} {r : Nat × Nat}
    (h : ensureChallengeValue db now id generation txt = .ok (r, db')) :
    OnlyTouches id db db' ∧ LifeStep id (db.view id) .other (db'.view id) := by
  obtain ⟨hvalid, -, row, hrow, hstate, ⟨v, hv, rfl⟩ | ⟨hlive, hadd⟩⟩ := ensureChallengeValue_ok h
  · refine ⟨fun i hi => ?_, ?_⟩
    · rw [view_refreshValue_ne _ _ hi, view_ensureChallengeState_ne hi]
    · rw [view_refreshValue_self, view_ensureChallengeState_self]
      refine .refreshed (db.view id) row txt (now + challengeLifetime) hrow hstate ⟨v, ?_⟩
      exact mem_values_iff.mpr (liveValue_eq_some.mp hv).1
  · exact addChallengeValue_life hrow hstate hvalid hlive hadd

theorem expireChallengeValuesOf_life :
    OnlyTouches id db (expireChallengeValuesOf db now id).2 ∧
      LifeStep id (db.view id) .other ((expireChallengeValuesOf db now id).2.view id) := by
  obtain h | ⟨⟨v, hv, hvi, hvx⟩, h⟩ := expireChallengeValuesOf_cases db now id
  · rw [h]
    exact ⟨fun _ _ => rfl, .same _⟩
  · rw [h]
    refine ⟨fun i hi => ?_, ?_⟩
    · rw [view_challengeSetChanged_ne _ hi, view_dropLapsed_ne hi]
    · obtain ⟨o, ho, hview⟩ := view_challengeSetChanged_self (db.dropLapsed now id) now id
        .challengeValueExpired
      rw [hview, view_dropLapsed_self]
      exact .valuesLapsed (db.view id) now o
        ⟨v, List.mem_filter.mpr ⟨hv, by simpa using hvi⟩, hvx⟩ ho

theorem markChallengeReconciled_life (revision : Nat) :
    OnlyTouches id db (markChallengeReconciled db id revision).2 ∧
      LifeStep id (db.view id)
        (if (markChallengeReconciled db id revision).1 then .reconciled else .other)
        ((markChallengeReconciled db id revision).2.view id) := by
  obtain h | ⟨s, hs, -, h⟩ := markChallengeReconciled_cases db id revision
  · rw [h]
    exact ⟨fun _ _ => rfl, .same _⟩
  · rw [h]
    refine ⟨fun i hi => ?_, ?_⟩
    · rw [view_modifyChallengeState_ne hi]
    · have hs' : (db.view id).challenge = some s := hs
      rw [view_modifyChallengeState_self, hs']
      exact .reconciled (db.view id) s hs

theorem view_mapJobs {f : OutboxRow → OutboxRow}
    (hf : ∀ o, (f o).installationId = o.installationId) :
    ({ db with outbox := db.outbox.map f } : Db).view i =
      { db.view i with jobs := (db.view i).jobs.map f } := by
  ext1
  case jobs =>
    simp only [Db.view, List.filter_map]
    congr 2
    funext o
    simp [hf o]
  all_goals rfl

theorem completeJob_life (job : Nat) :
    LifeStep i (db.view i) .other ((completeJob db now job).view i) := by
  have hf : ∀ o : OutboxRow, (if o.id = job then { o with completedAt := some now } else o).id =
      o.id ∧ (if o.id = job then { o with completedAt := some now } else o).installationId =
      o.installationId ∧ (if o.id = job then { o with completedAt := some now } else o).kind =
      o.kind := by
    intro o
    split <;> exact ⟨rfl, rfl, rfl⟩
  rw [completeJob, view_mapJobs fun o => (hf o).2.1]
  exact .jobRecorded _ _ hf

theorem deferJob_life (job : Nat) :
    LifeStep i (db.view i) .other ((deferJob db now job).view i) := by
  unfold deferJob
  rw [view_mapJobs fun o => by split <;> rfl]
  exact .jobRecorded _ _ fun o => by split <;> exact ⟨rfl, rfl, rfl⟩

/-! ## Calls -/

/-- A transaction about installation `id`, seen from installation `i`. -/
theorem life_of_touches {c : Change} (h : OnlyTouches id db db' ∧
    LifeStep id (db.view id) c (db'.view id)) :
    LifeStep i (db.view i) (if id = i then c else .other) (db'.view i) := by
  split
  · rename_i hi
    subst hi
    exact h.2
  · rename_i hi
    rw [h.1 i (Ne.symm hi)]
    exact .same _

theorem Books.life {op : StoreOp} (h : Books op db db') :
    LifeStep i (db.view i) .other (db'.view i) := by
  cases h with
  | unchanged | quota | nonces | monitor | lag => exact .same _

/-- The changes of a transaction that hands out no generation and ends nothing. -/
theorem life_of_touches_other (h : OnlyTouches id db db' ∧
    LifeStep id (db.view id) .other (db'.view id)) : LifeStep i (db.view i) .other (db'.view i) := by
  simpa using life_of_touches (i := i) h

/-- Every transaction is a step in the life of every installation. -/
theorem transact_life {op : StoreOp} {reply : Reply}
    (h : op.transact sha256 store now db = .ok (reply, db')) :
    LifeStep i (db.view i) (op.change db reply i) (db'.view i) := by
  cases op with
  | issueBearer id op scope tokenHash validitySeconds =>
    obtain ⟨r, htx, rfl⟩ := answer_ok.mp h
    obtain ⟨s, hs, -, -, ⟨hold, rfl⟩ | ⟨hnew, hfresh⟩⟩ := issueBearer_ok htx
    · simpa [StoreOp.change, StoreOp.unrecorded, StoreOp.operationId?, hold] using LifeStep.same _
    · simpa [StoreOp.change, StoreOp.unrecorded, StoreOp.operationId?, hnew, hs] using
        life_of_touches (issueBearerTx_life hfresh)
  | renewBearer id op scope generation currentToken newTokenHash =>
    obtain ⟨r, htx, rfl⟩ := answer_ok.mp h
    obtain ⟨s, hs, -, ⟨hold, rfl⟩ | ⟨hnew, hfresh⟩⟩ := renewBearer_ok htx
    · simpa [StoreOp.change, StoreOp.unrecorded, StoreOp.operationId?, hold] using LifeStep.same _
    · simpa [StoreOp.change, StoreOp.unrecorded, StoreOp.operationId?, hnew, hs] using
        life_of_touches (renewBearerTx_life hfresh)
  | registerAcmeAccount id uri =>
    obtain ⟨u, htx, rfl⟩ := answer_ok.mp h
    exact life_of_touches (registerAcmeAccount_life htx)
  | markDnsReady id =>
    obtain ⟨u, htx, rfl⟩ := answer_ok.mp h
    exact life_of_touches_other (markDnsReady_life htx)
  | ensureChallengeValue id generation txt =>
    obtain ⟨u, htx, rfl⟩ := answer_ok.mp h
    exact life_of_touches_other (ensureChallengeValue_life htx)
  | markChallengeReconciled id revision =>
    obtain ⟨rfl, rfl⟩ := answer_total.mp h
    exact life_of_touches (markChallengeReconciled_life revision)
  | allocate op key placement id random =>
    obtain ⟨a, htx, rfl⟩ := answer_ok.mp h
    have hother : (StoreOp.allocate op key placement id random).change db (.allocation a) i =
        .other := by
      simp [StoreOp.change]
    rw [hother]
    obtain rfl | ⟨hvalid, hfresh⟩ := allocate_ok htx
    · exact .same _
    · exact life_of_touches_other (allocateTx_life hvalid hfresh)
  | claimTunnel id gatewayId ttlSeconds =>
    obtain ⟨g, htx, rfl⟩ := answer_ok.mp h
    exact life_of_touches (claimTunnel_life htx)
  | renewTunnel id gatewayId generation =>
    obtain ⟨rfl, rfl⟩ := answer_total.mp h
    exact life_of_touches_other (renewTunnel_life gatewayId generation)
  | expirePendingAllocation id =>
    obtain ⟨rfl, rfl⟩ := answer_total.mp h
    exact life_of_touches expirePendingAllocation_life
  | expireChallengeValuesOf id =>
    obtain ⟨rfl, rfl⟩ := answer_total.mp h
    exact life_of_touches_other expireChallengeValuesOf_life
  | retire id op =>
    obtain ⟨u, htx, rfl⟩ := answer_ok.mp h
    cases hop : db.operations.find? op with
    | none =>
      simpa [StoreOp.change, StoreOp.unrecorded, StoreOp.operationId?, hop] using
        life_of_touches (retire_life htx hop)
    | some existing =>
      obtain ⟨-, rfl⟩ | ⟨hnone, -⟩ := retire_ok htx
      · simpa [StoreOp.change, StoreOp.unrecorded, StoreOp.operationId?, hop] using LifeStep.same _
      · rw [hop] at hnone
        cases hnone
  | relocate id op placement =>
    obtain ⟨u, htx, rfl⟩ := answer_ok.mp h
    cases hop : db.operations.find? op with
    | none =>
      simpa [StoreOp.change, StoreOp.unrecorded, StoreOp.operationId?, hop] using
        life_of_touches (relocate_life htx hop)
    | some existing =>
      obtain ⟨-, rfl⟩ | ⟨hnone, -⟩ := relocate_ok htx
      · simpa [StoreOp.change, StoreOp.unrecorded, StoreOp.operationId?, hop] using LifeStep.same _
      · rw [hop] at hnone
        cases hnone
  | completeJob job =>
    cases h
    exact completeJob_life job
  | deferJob job =>
    cases h
    exact deferJob_life job
  | createBootstrapChallenge | consumeBootstrapChallenge | pruneBootstrap | pruneNonces | consumeNonce
  | ensureCtSource | markCtFeedHealthy | markCtAlertDelivered | queueCtLagAlert
  | markCtLagAlertDelivered | recordExpectedCertificate | observeCt =>
    exact (books_of_transact h rfl).life

/-- A call takes every installation through the step that `Call.change` names. -/
theorem life_step (call : Call) (db : Db) (i : Uuid) :
    LifeStep i (db.view i) (call.change sha256 db i) ((call.after sha256 db).view i) := by
  unfold Call.change Call.after
  cases h : call.exec sha256 db with
  | error e => exact .same _
  | ok r => exact transact_life (exec_ok h).1

/-- Which transaction makes which change to installation `i`. -/
inductive ChangedBy (i : Uuid) : StoreOp → Change → Prop where
  | other (op : StoreOp) : ChangedBy i op .other
  | claimed (gatewayId : String) (ttlSeconds : Int) (g : Nat) :
      ChangedBy i (.claimTunnel i gatewayId ttlSeconds) (.claimed g)
  | issued (op : Uuid) (scope : String) (hash : Bytes32) (validity : Int) (s : BearerScope) (g : Nat) :
      ChangedBy i (.issueBearer i op scope hash validity) (.issued s g)
  | renewed (op : Uuid) (scope : String) (generation : Nat) (token : String) (hash : Bytes32)
      (s : BearerScope) (g : Nat) :
      ChangedBy i (.renewBearer i op scope generation token hash) (.renewed s g)
  | bound (uri : String) : ChangedBy i (.registerAcmeAccount i uri) (.bound uri)
  | relocated (op : Uuid) (placement : String) : ChangedBy i (.relocate i op placement) .relocated
  | retired (op : Uuid) : ChangedBy i (.retire i op) .retired
  | expired : ChangedBy i (.expirePendingAllocation i) .retired
  | reconciled (revision : Nat) : ChangedBy i (.markChallengeReconciled i revision) .reconciled

theorem changedBy (op : StoreOp) (db : Db) (reply : Reply) (i : Uuid) :
    ChangedBy i op (op.change db reply i) := by
  unfold StoreOp.change
  split
  · split
    · split_ifs with hid
      · exact hid ▸ .claimed _ _ _
      · exact .other _
    · split_ifs with hid
      · generalize BearerScope.parse? _ = scope
        cases scope with
        | none => exact .other _
        | some s => exact hid ▸ .issued _ _ _ _ s _
      · exact .other _
    · split_ifs with hid
      · generalize BearerScope.parse? _ = scope
        cases scope with
        | none => exact .other _
        | some s => exact hid ▸ .renewed _ _ _ _ _ s _
      · exact .other _
    · split_ifs with hid
      · exact hid ▸ .bound _
      · exact .other _
    · split_ifs with hid
      · exact hid ▸ .relocated _ _
      · exact .other _
    · split_ifs with hid
      · exact hid ▸ .retired _
      · exact .other _
      · exact .other _
    · split_ifs with hid
      · exact hid ▸ .expired
      · exact .other _
      · exact .other _
    · split_ifs with hid
      · exact hid ▸ .reconciled _
      · exact .other _
      · exact .other _
    · exact .other _
  · exact .other _

theorem call_changedBy (sha256 : Bytes → Bytes32) (call : Call) (db : Db) (i : Uuid) :
    ChangedBy i call.op (call.change sha256 db i) := by
  unfold Call.change
  split
  · exact .other _
  · exact changedBy call.op db _ i

/-- No step of its life changes an installation's hostname or admin key. -/
theorem LifeStep.named {i : Uuid} {v v' : View} {change : Change} {r : Installation}
    (h : LifeStep i v change v') (hr : v.row = some r) :
    ∃ r', v'.row = some r' ∧ r'.hostname = r.hostname ∧ r'.adminPublicKey = r.adminPublicKey := by
  cases h with
  | allocated _ _ hrow =>
    rw [hrow] at hr
    cases hr
  | issued r' _ _ hrow | renewed r' _ _ _ hrow | acmeBound r' _ _ hrow | dnsReady r' hrow
  | claimed r' _ hrow | relocated r' _ _ hrow | retired r' _ _ _ hrow | expired r' _ _ _ hrow =>
    obtain rfl : r' = r := Option.some.inj (hrow.symm.trans hr)
    exact ⟨_, rfl, rfl, rfl⟩
  | _ => exact ⟨r, hr, rfl, rfl⟩

/-- A run of the store, seen from installation `i`. -/
def lifeOf (sha256 : Bytes → Bytes32) (i : Uuid) (e : Event Db Call) : Event View Change :=
  ⟨e.src.view i, e.label.change sha256 e.src i, e.dst.view i⟩

/-- Every run of the store is a life of every installation. -/
theorem life_run {tr : List (Event Db Call)} (h : StoreRun sha256 tr db) (i : Uuid) :
    LifeRun i (tr.map (lifeOf sha256 i)) (db.view i) := by
  refine h.simulate (fun db => db.view i) (fun db call => call.change sha256 db i) ?_
  rintro db call _ rfl
  exact life_step call db i

end BloomRelay.Store
