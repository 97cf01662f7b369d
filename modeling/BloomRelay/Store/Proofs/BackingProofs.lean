import BloomRelay.Store.Proofs.LinearProofs
import BloomRelay.Store.Proofs.CredentialProofs

/-!
# The credential behind a receipt

Credential rows stay, revoked or not, and a renewal records its receipt in the transaction that stores
the row. So a recorded receipt of a renewal always has a row behind it.
-/

namespace BloomRelay.Store

open Protocol Checked

variable {sha256 : Bytes → Bytes32} {db db' : Db} {c : Credential} {call : Call} {reply : Reply}

/-- The two rows differ at most in their revocation. -/
def SameCredential (c c' : Credential) : Prop :=
  c'.installationId = c.installationId ∧ c'.scope = c.scope ∧ c'.generation = c.generation ∧
    c'.tokenHash = c.tokenHash ∧ c'.expiresAt = c.expiresAt

theorem exists_mem_revokeIn (now : Time) (p : Credential → Bool) {cs : List Credential} (hc : c ∈ cs) :
    ∃ c' ∈ revokeIn now p cs, SameCredential c c' := by
  refine ⟨_, List.mem_map_of_mem hc, ?_⟩
  split_ifs <;> exact ⟨rfl, rfl, rfl, rfl, rfl⟩

theorem credential_of_lifeStep {i : Uuid} {v v' : View} {change : Change}
    (h : LifeStep i v change v') (hc : c ∈ v.credentials) :
    ∃ c' ∈ v'.credentials, SameCredential c c' := by
  have hrotated : ∀ (now : Time) (p : Credential → Bool) (new : Credential),
      ∃ c' ∈ revokeIn now p v.credentials ++ [new], SameCredential c c' := by
    intro now p new
    obtain ⟨c', hc', hsame⟩ := exists_mem_revokeIn now p hc
    exact ⟨c', List.mem_append_left _ hc', hsame⟩
  cases h with
  | issued | renewed => exact hrotated _ _ _
  | _ => exact ⟨c, hc, rfl, rfl, rfl, rfl, rfl⟩

/-- No call deletes a credential row. -/
theorem credential_stays (call : Call) (hc : c ∈ db.credentials.rows) :
    ∃ c' ∈ (call.after sha256 db).credentials.rows, SameCredential c c' := by
  have hview : c ∈ (db.view c.installationId).credentials :=
    List.mem_filter.mpr ⟨hc, decide_eq_true rfl⟩
  obtain ⟨c', hc', hsame⟩ := credential_of_lifeStep (life_step call db c.installationId) hview
  exact ⟨c', (List.mem_filter.mp hc').1, hsame⟩

/-! ## Live rows -/

theorem kept_of_exec (h : call.exec sha256 db = .ok (reply, db'))
    (hrot : rotates c.scope (call.change sha256 db c.installationId) = false)
    (hc : c ∈ db.credentials.rows) : c ∈ db'.credentials.rows := by
  have hview : c ∈ (db.view c.installationId).credentials :=
    List.mem_filter.mpr ⟨hc, decide_eq_true rfl⟩
  have hlife : LifeStep c.installationId (db.view c.installationId)
      (call.change sha256 db c.installationId) ((call.after sha256 db).view c.installationId) :=
    life_step call db c.installationId
  rw [after_of_exec h] at hlife
  exact (List.mem_filter.mp (kept_of_lifeStep hlife hrot hview)).1

/-- The usable credential is not newer than its installation. -/
theorem OnlyUsable.generation_le {id : Uuid} {scope : BearerScope} {row : Installation}
    {tr : List (Event Db Call)} (h : OnlyUsable db id scope c) (hrun : StoreRun sha256 tr db)
    (hrow : db.installations.find? id = some row) : c.generation ≤ row.generation := by
  obtain ⟨row', hrow', hle⟩ := credential_le_installation hrun h.mem
  rw [h.owner, hrow, Option.some.injEq] at hrow'
  exact hrow' ▸ hle

/-! ## Recorded receipts -/

/-- The row a renewal stores, with the receipt that it records. -/
theorem renewBearerTx_stores {store : StoreConfig} {now : Time} {id operationId : Uuid}
    {scope : BearerScope} {generation : Nat} {currentToken : String} {newTokenHash : Bytes32}
    {r : Nat × Nat}
    (h : renewBearerTx sha256 store db now id operationId scope generation currentToken
      newTokenHash = .ok (r, db')) :
    ∃ row c, db.installations.find? id = some row ∧ c = renewedCredential store now id scope newTokenHash row ∧
      c ∈ db'.credentials.rows ∧ r = (c.generation, epochMs c.expiresAt) := by
  obtain ⟨row, current, hrow, -, -, hstore⟩ := renewBearerTx_ok h
  obtain ⟨db₁, db₂, hinsert, hop, hr, rfl⟩ := storeCredential_ok hstore
  obtain ⟨t, ht, rfl⟩ := insertCredential_ok hinsert
  obtain ⟨u, -, rfl⟩ := insertOperation_ok hop
  refine ⟨row, _, hrow, rfl, ?_, hr⟩
  have hrows := ((Table.insert?_eq_some_iff _).mp ht).2
  have hmem : renewedCredential store now id scope newTokenHash row ∈ t.rows := by
    rw [hrows]
    exact List.mem_append_right _ (List.mem_singleton.mpr rfl)
  split_ifs <;> exact hmem

/-- A recorded receipt of a renewal is that of a credential row. -/
def Backed (db : Db) : Prop :=
  ∀ operationId o scope, db.operations.find? operationId = some o → o.kind = .renew scope →
    ∃ c ∈ db.credentials.rows, c.installationId = o.installationId ∧ c.scope = scope ∧
      o.result = .receipt c.generation (epochMs c.expiresAt)

theorem Backed.stays (h : Backed db) (call : Call) {operationId : Uuid} {o : Operation}
    {scope : BearerScope} (ho : db.operations.find? operationId = some o) (hkind : o.kind = .renew scope) :
    ∃ c ∈ (call.after sha256 db).credentials.rows, c.installationId = o.installationId ∧
      c.scope = scope ∧ o.result = .receipt c.generation (epochMs c.expiresAt) := by
  obtain ⟨c, hc, hid, hscope, hresult⟩ := h operationId o scope ho hkind
  obtain ⟨c', hc', hid', hscope', hgeneration', -, hexpires'⟩ := credential_stays call hc
  refine ⟨c', hc', hid'.trans hid, hscope'.trans hscope, ?_⟩
  rw [hgeneration', hexpires']
  exact hresult

/-- A transaction that records a renewal is one. -/
theorem renewal_of_records {op : StoreOp} {o : Operation} {q : Request} {scope : BearerScope}
    (hreq : op.request? sha256 = some (o.operationId, q)) (hq : q.RecordedAs sha256 o)
    (hkind : o.kind = .renew scope) :
    ∃ id text generation token hash, op = .renewBearer id o.operationId text generation token hash ∧
      BearerScope.parse? text = some scope ∧ o.installationId = id := by
  have hq' := hq.kind
  rw [hkind] at hq'
  cases op with
  | renewBearer id operationId text generation token hash =>
    cases hreq
    obtain ⟨parsed, hparsed, heq⟩ := Option.map_eq_some_iff.mp hq'
    cases heq
    exact ⟨id, text, generation, token, hash, rfl, hparsed, hq.installation id rfl⟩
  | issueBearer id operationId text hash validity =>
    cases hreq
    obtain ⟨parsed, -, heq⟩ := Option.map_eq_some_iff.mp hq'
    cases heq
  | allocate | retire | relocate =>
    cases hreq
    cases hq'
  | _ => cases hreq

theorem backed_of_run {tr : List (Event Db Call)} (h : StoreRun sha256 tr db) : Backed db := by
  refine h.state_invariant Backed (fun _ _ _ ho => by cases ho) ?_
  rintro db call _ hinv rfl operationId o scope ho hkind
  have hrecords : Records sha256 call.op db (call.after sha256 db) := call_records call db
  cases hrecords with
  | same heq =>
    rw [heq] at ho
    exact hinv.stays call ho hkind
  | new o' q hins hreq hq hinst =>
    by_cases hid : o'.operationId = operationId
    · subst hid
      rw [Table.find?_insert?_self hins] at ho
      cases ho
      obtain ⟨id, text, generation, token, hash, hop, hparsed, hinstallation⟩ :=
        renewal_of_records hreq hq hkind
      have hfree : db.operations.find? o.operationId = none :=
        ((db.operations.insert?_eq_some_iff).mp hins).1
      obtain heq | ⟨reply, -, htx, -⟩ := after_cases sha256 call db
      · -- a call that changes nothing records nothing
        have hfound := Table.find?_insert?_self hins
        rw [heq, hfree] at hfound
        cases hfound
      · rw [hop] at htx
        obtain ⟨r, htx, -⟩ := answer_ok.mp htx
        obtain ⟨parsed, hparsed', -, hsome | ⟨-, htx⟩⟩ := renewBearer_ok htx
        · exact absurd hfree hsome.1
        · obtain rfl : scope = parsed := Option.some.inj (hparsed.symm.trans hparsed')
          obtain ⟨row, c, -, rfl, hmem, hr⟩ := renewBearerTx_stores htx
          have hrecord := Table.find?_insert?_self (renewBearerTx_records htx)
          rw [Table.find?_insert?_self hins, Option.some.injEq] at hrecord
          refine ⟨_, hmem, hinstallation.symm, rfl, ?_⟩
          rw [hrecord, hr]
    · rw [Table.find?_insert?_ne hins hid] at ho
      exact hinv.stays call ho hkind

end BloomRelay.Store
