import BloomRelay.Client.Rotation
import BloomRelay.Gateway.Proofs.SessionProofs
import BloomRelay.Protocol.Proofs.TextProofs
import BloomRelay.Store.Proofs.BackingProofs

/-!
# The Broker is never locked out by its own rotations

The credential that the store accepts is always one that the Broker has: the one in its file, or the one
it has put aside. What the Broker puts into its file on a receipt is the credential that the store
accepts. Both hold for any interleaving, however often a request is lost, repeated or served late, as
long as nobody else rotates the scope.
-/

namespace BloomRelay.Client

open Protocol Store Control Checked

variable {b : Broker} {s s' : Rotation} {sent : SentRenewal} {clock : Time}

/-! ## What the handler makes of a request -/

theorem renewal?_eq_some {op : StoreOp} {r : Renewal} (h : renewal? op = some r) :
    op = .renewBearer r.installationId r.operationId r.scope r.generation r.currentToken
      r.newTokenHash := by
  cases op with
  | renewBearer =>
    obtain rfl := Option.some.inj h
    rfl
  | _ => cases h

theorem bearerOf_bearer (bearer : String) : bearerOf (some ("Bearer " ++ bearer)) = some bearer :=
  stripPrefix?_append "Bearer " bearer

/-- The transaction is about what the request says. -/
theorem SentRenewal.renewal?_eq_some {r : Renewal} (h : sent.renewal? clock = some r) :
    r.installationId = sent.request.installationId ∧ r.operationId = sent.request.operationId ∧
      r.scope = (if sent.request.scope = .tunnel then "tunnel" else "dns_challenge") ∧
      r.generation = sent.request.generation ∧ r.currentToken = sent.bearer ∧
      (hexDecode sent.request.newTokenSha256.toList).bind bytes32? = some r.newTokenHash := by
  unfold SentRenewal.renewal? at h
  split at h
  · rename_i serving hserving
    simp only [renewCredential, bind_eq_ok, require_eq_ok, found_eq_ok, bearerOf_bearer,
      Option.some.injEq] at hserving
    obtain ⟨_, -, bearer, rfl, bytes, hbytes, hash, hhash, hserving⟩ := hserving
    cases hserving
    cases h
    exact ⟨rfl, rfl, rfl, rfl, rfl, by rw [hbytes, Option.bind_some, hhash]⟩
  · cases h

/-! ## What a step of a renewal does -/

variable {sha256 : Bytes → Bytes32} {o o' : Overlap} {a : OverlapAction} {call : Call} {r : Renewal}
  {scope : BearerScope}

/-- What a step of a call that renews does to the database, with the answer that it gives. -/
inductive RenewStep (sha256 : Bytes → Bytes32) (o o' : Overlap) (r : Renewal) (scope : BearerScope) :
    Option (Except StoreError Reply) → Prop where
  /-- The step gives no receipt. -/
  | quiet {answer : Option (Except StoreError Reply)} (hdb : o'.db = o.db)
      (hanswer : ∀ reply, answer ≠ some (.ok reply)) : RenewStep sha256 o o' r scope answer
  /-- The receipt is the recorded one. -/
  | replayed {record : Operation} {generation expiresAtMs : Nat} (hdb : o'.db = o.db)
      (hrecord : o.db.operations.find? r.operationId = some record)
      (hid : record.installationId = r.installationId) (hkind : record.kind = .renew scope)
      (hresult : record.result = .receipt generation expiresAtMs) :
      RenewStep sha256 o o' r scope (some (.ok (.receipt generation expiresAtMs)))
  /-- The bearer is renewed. -/
  | renewed {store : StoreConfig} {now : Time} {receipt : Nat × Nat}
      (htx : renewBearerTx sha256 store o.db now r.installationId r.operationId scope r.generation
        r.currentToken r.newTokenHash = .ok (receipt, o'.db)) :
      RenewStep sha256 o o' r scope (some (.ok (.receipt receipt.1 receipt.2)))

theorem receipt?_eq_some {result : OperationResult} {receipt : Nat × Nat}
    (h : result.receipt? = some receipt) : result = .receipt receipt.1 receipt.2 := by
  cases result with
  | receipt generation expiresAtMs =>
    obtain rfl := Option.some.inj h
    rfl
  | _ => cases h

/-- The lookup of a renewal answers with the recorded receipt. -/
theorem recorded_of_lookup_renew {now : Time} {db : Db} {reply : Reply} {id operationId : Uuid}
    {text token : String} {generation : Nat} {hash : Bytes32}
    (hscope : BearerScope.parse? text = some scope)
    (h : (StoreOp.renewBearer id operationId text generation token hash).lookup sha256 now db =
      .ok (some reply)) :
    ∃ record generation expiresAtMs, reply = .receipt generation expiresAtMs ∧
      db.operations.find? operationId = some record ∧ record.installationId = id ∧
      record.kind = .renew scope ∧ record.result = .receipt generation expiresAtMs := by
  obtain ⟨parsed, hparsed, h⟩ := bind_eq_ok.mp h
  obtain rfl : scope = parsed :=
    Option.some.inj (hscope.symm.trans (renewScope_eq_ok.mp hparsed).1)
  obtain ⟨record, hrecord, h⟩ := recordedReply_eq_ok.mp h
  obtain ⟨receipt, hreceipt, hreply⟩ := bind_eq_ok.mp h
  obtain ⟨_, hmatch, hresult⟩ := bind_eq_ok.mp hreceipt
  obtain ⟨hid, hkind, -, -⟩ := require_eq_ok.mp hmatch
  cases hreply
  exact ⟨record, receipt.1, receipt.2, rfl, hrecord, hid, hkind,
    receipt?_eq_some (found_eq_ok.mp hresult)⟩

theorem renewStep_of_step (hstarted : Started sha256 o) (hs : OverlapStep sha256 o a o')
    (hcall : o.call? a = some call) (hr : renewal? call.op = some r)
    (hscope : BearerScope.parse? r.scope = some scope) :
    RenewStep sha256 o o' r scope ((o.answer? sha256 a).map Prod.snd) := by
  have hop := renewal?_eq_some hr
  by_cases hans : ∃ call' reply, o.answer? sha256 a = some (call', .ok reply)
  · obtain ⟨call', reply, hans⟩ := hans
    obtain rfl : call' = call := Option.some.inj ((call_of_answer hans).symm.trans hcall)
    rw [hans, Option.map_some]
    rcases answered_cases hstarted hs hans with ⟨hlookup, hdb⟩ | ⟨now, db, -, hbody⟩
    · rw [hop] at hlookup
      obtain ⟨record, generation, expiresAtMs, rfl, hrecord, hid, hkind, hresult⟩ :=
        recorded_of_lookup_renew hscope hlookup
      exact .replayed hdb hrecord hid hkind hresult
    · rw [hop] at hbody
      obtain ⟨receipt, htx, rfl⟩ := answer_ok.mp hbody
      obtain ⟨parsed, hparsed, htx⟩ := bind_eq_ok.mp htx
      obtain rfl : scope = parsed := Option.some.inj (hscope.symm.trans (found_eq_ok.mp hparsed))
      exact .renewed htx
  · have hnone : ∀ call' reply, o.answer? sha256 a ≠ some (call', .ok reply) :=
      fun call' reply h => hans ⟨call', reply, h⟩
    refine .quiet (db_of_unanswered hstarted hs hnone) fun reply hreply => ?_
    obtain ⟨answer, hanswer, heq⟩ := Option.map_eq_some_iff.mp hreply
    refine hnone answer.1 reply (hanswer.trans ?_)
    rw [← heq]

/-! ## The files -/

theorem trimLineEnds_of_tokenForm {token : String} (h : tokenForm token = true) :
    trimLineEnds token = token := by
  unfold trimLineEnds
  have hlast : ∀ c ∈ token.toList, (c == '\n' || c == '\r') = false := by
    intro c hc
    simp only [tokenForm, Bool.and_eq_true, List.all_eq_true] at h
    have hform := h.2 c hc
    by_contra hend
    rw [Bool.not_eq_false, Bool.or_eq_true, beq_iff_eq, beq_iff_eq] at hend
    rcases hend with rfl | rfl <;> exact absurd hform (by decide)
  have hkept : token.toList.rdropWhile (fun c => c == '\n' || c == '\r') = token.toList := by
    rw [List.rdropWhile_eq_self_iff]
    intro hne
    rw [hlast _ (List.getLast_mem hne)]
    exact Bool.false_ne_true
  rw [hkept, String.ofList_toList]

/-- The Broker can read the file that it has written. -/
theorem readCredential_credentialFile {token : String} (h : tokenForm token = true) :
    readCredential (some (credentialFile token)) = .ok token := by
  have hlength : token.utf8ByteSize ≤ 128 := by
    simp only [tokenForm, Bool.and_eq_true, decide_eq_true_eq] at h
    exact h.1.2
  have htrim := trimLineEnds_of_tokenForm h
  have hsmall : token.utf8ByteSize ≤ 256 := by omega
  simp only [readCredential, bind_eq_ok, found_eq_ok, require_eq_ok]
  have hmode : (0o600 : Nat) &&& 0o077 = 0 := by decide
  refine ⟨credentialFile token, rfl, (), ⟨rfl, hsmall⟩, (), hmode, token, rfl, (), ?_, ?_⟩
  · rw [htrim]
    exact h
  · rw [htrim]

/-! ## What the Broker holds -/

/-- The credential is the one in the Broker's file. -/
def InFile (b : Broker) (s : Rotation) (c : Credential) : Prop :=
  c.generation = s.generation ∧ ∃ token, readCredential (some s.file) = .ok token ∧
    c.tokenHash = b.crypto.sha256 (utf8 token)

/-- The credential is the one that the Broker has put aside: its renewal is recorded. -/
def PutAside (b : Broker) (s : Rotation) (c : Credential) : Prop :=
  s.generation < c.generation ∧ ∃ p record, s.pending = some p ∧
    c.tokenHash = b.crypto.sha256 (utf8 p.newToken) ∧
    s.store.db.operations.find? p.operationId = some record ∧
    record.result = .receipt c.generation (epochMs c.expiresAt)

/-- A request of the Broker is one of a finished rotation, or one of the rotation under way. -/
structure Fits (b : Broker) (file : CredentialFile) (generation : Nat) (pending : Option Pending)
    (sent : SentRenewal) : Prop where
  installationId : sent.request.installationId = b.installationId
  scope : sent.request.scope = wireScope b.scope
  older : sent.request.generation ≤ generation
  current : sent.request.generation = generation → ∃ p, pending = some p ∧
    sent.request.operationId = p.operationId ∧
    sent.request.newTokenSha256 = sha256Hex b.crypto (utf8 p.newToken) ∧
    readCredential (some file) = .ok sent.bearer

/-- The receipt is recorded. -/
def ReceiptRecorded (b : Broker) (db : Db) (receipt : CredentialIssueReceipt) : Prop :=
  ∃ record, db.operations.find? receipt.operationId = some record ∧
    record.installationId = b.installationId ∧ record.kind = .renew b.scope ∧
    record.result = .receipt receipt.generation receipt.expiresAtMs

structure RotationInv (b : Broker) (s : Rotation) : Prop where
  store : ∃ tr, OverlapRun b.crypto.sha256 tr s.store
  readable : ∃ token, readCredential (some s.file) = .ok token
  pending : ∀ p, s.pending = some p → tokenForm p.newToken = true
  held : ∃ c, OnlyUsable s.store.db b.installationId b.scope c ∧ (InFile b s c ∨ PutAside b s c)
  sent : ∀ sent ∈ s.sent, Fits b s.file s.generation s.pending sent
  receipts : ∀ receipt ∈ s.receipts, ReceiptRecorded b s.store.db receipt

theorem RotationInv.started (h : RotationInv b s) : Started b.crypto.sha256 s.store := by
  obtain ⟨tr, hrun⟩ := h.store
  exact started_of_run hrun

theorem RotationInv.storeRun (h : RotationInv b s) :
    ∃ tr, StoreRun b.crypto.sha256 tr s.store.db := by
  obtain ⟨tr, hrun⟩ := h.store
  exact storeRun_of_overlap hrun

/-- What a step of the store leaves as it is. -/
theorem RotationInv.overlapped (h : RotationInv b s) {store : Overlap}
    (hstep : OverlapStep b.crypto.sha256 s.store a store) :
    (∃ tr, OverlapRun b.crypto.sha256 tr store) ∧
    (∀ operationId record, s.store.db.operations.find? operationId = some record →
      store.db.operations.find? operationId = some record) ∧
    ∀ receipt ∈ s.receipts, ReceiptRecorded b store.db receipt := by
  have hfind : ∀ operationId record, s.store.db.operations.find? operationId = some record →
      store.db.operations.find? operationId = some record :=
    fun _ _ hrecord => overlapStep_find h.started hstep hrecord
  obtain ⟨tr, hrun⟩ := h.store
  refine ⟨⟨_, hrun.snoc hstep⟩, hfind, fun receipt hreceipt => ?_⟩
  obtain ⟨record, hrecord, hrest⟩ := h.receipts receipt hreceipt
  exact ⟨record, hfind _ _ hrecord, hrest⟩

theorem generation_le_of_held {c : Credential} (h : InFile b s c ∨ PutAside b s c) :
    s.generation ≤ c.generation := by
  rcases h with hfile | haside
  · exact hfile.1.ge
  · exact haside.1.le

theorem wireScope_text (scope : BearerScope) :
    BearerScope.parse? (if wireScope scope = .tunnel then "tunnel" else "dns_challenge") =
      some scope := by
  cases scope <;> decide

/-! ## Steps -/

/-- Another call that does not rotate the scope. -/
def Alone (b : Broker) (e : RotationEvent) : Prop :=
  ∀ a call, e.label = .store a → e.src.store.call? a = some call →
    rotates b.scope (call.change b.crypto.sha256 e.src.store.db b.installationId) = false

/-- What the Broker holds when only the database changed and the usable credential stayed. -/
theorem held_of_kept {store : Overlap} {c : Credential}
    (hstore : ∃ tr, OverlapRun b.crypto.sha256 tr store)
    (hc : OnlyUsable s.store.db b.installationId b.scope c) (hheld : InFile b s c ∨ PutAside b s c)
    (hmem : c ∈ store.db.credentials.rows)
    (hfind : ∀ operationId record, s.store.db.operations.find? operationId = some record →
      store.db.operations.find? operationId = some record) {receipts : List CredentialIssueReceipt} :
    ∃ c, OnlyUsable store.db b.installationId b.scope c ∧
      (InFile b { s with store, receipts } c ∨ PutAside b { s with store, receipts } c) := by
  obtain ⟨tr, hrun⟩ := hstore
  obtain ⟨calls, hcalls⟩ := storeRun_of_overlap hrun
  have honly : OnlyUsable store.db c.installationId c.scope c := onlyUsable_of_run hcalls hmem hc.live
  rw [hc.owner, hc.scope_eq] at honly
  refine ⟨c, honly, ?_⟩
  rcases hheld with hfile | ⟨hlt, p, record, hp, hhash, hrecord, hrest⟩
  · exact .inl hfile
  · exact .inr ⟨hlt, p, record, hp, hhash, hfind _ _ hrecord, hrest⟩

theorem RotationInv.store_step (h : RotationInv b s) (halone : Alone b ⟨s, .store a, s'⟩)
    (hs : RotationStep b s (.store a) s') : RotationInv b s' := by
  obtain ⟨store, hstep, rfl⟩ := Option.map_eq_some_iff.mp hs
  obtain ⟨hrun, hfind, hreceipts⟩ := h.overlapped hstep
  obtain ⟨c, hc, hheld⟩ := h.held
  have hmem : c ∈ store.db.credentials.rows := by
    rcases overlapStep_db h.started hstep with hdb | ⟨call, reply, hans, hexec⟩
    · rw [hdb]
      exact hc.mem
    · have hrot := halone a call rfl (call_of_answer hans)
      rw [← hc.scope_eq, ← hc.owner] at hrot
      exact kept_of_exec hexec hrot hc.mem
  exact ⟨hrun, h.readable, h.pending, held_of_kept hrun hc hheld hmem hfind, h.sent, hreceipts⟩

theorem RotationInv.prepare_step {newToken : String} {operationId : Uuid} (h : RotationInv b s)
    (hs : RotationStep b s (.prepare newToken operationId) s') : RotationInv b s' := by
  simp only [RotationStep, Rotation.step] at hs
  split_ifs at hs with hnew
  cases hs
  obtain ⟨hnone, hform⟩ := hnew
  refine ⟨h.store, h.readable, ?_, ?_, ?_, h.receipts⟩
  · intro p hp
    cases hp
    exact hform
  · obtain ⟨c, hc, hfile | ⟨-, p, _, hp, -⟩⟩ := h.held
    · exact ⟨c, hc, .inl hfile⟩
    · rw [hnone] at hp
      cases hp
  · intro sent hsent
    have hfits := h.sent sent hsent
    refine ⟨hfits.installationId, hfits.scope, hfits.older, fun heq => ?_⟩
    obtain ⟨p, hp, -⟩ := hfits.current heq
    rw [hnone] at hp
    cases hp

theorem RotationInv.send_step {nonce : String} {nowMs : Nat} (h : RotationInv b s)
    (hs : RotationStep b s (.send nonce nowMs) s') : RotationInv b s' := by
  simp only [RotationStep, Rotation.step] at hs
  split at hs
  · cases hs
  · rename_i p hp
    split at hs
    · rename_i request hrequest
      cases hs
      refine ⟨h.store, h.readable, h.pending, h.held, ?_, h.receipts⟩
      intro sent hsent
      rcases List.mem_cons.mp hsent with rfl | hsent
      · simp only [renewRequest, bind_eq_ok, Except.ok.injEq] at hrequest
        obtain ⟨_, -, _, -, token, hread, rfl⟩ := hrequest
        exact ⟨rfl, rfl, le_rfl, fun _ => ⟨p, hp, rfl, rfl, hread⟩⟩
      · exact h.sent sent hsent
    · cases hs

/-- A receipt that is recorded for the rotation under way and is newer than what the Broker has is that of
the credential it has put aside. -/
theorem RotationInv.agrees (h : RotationInv b s) {p : Pending} {receipt : CredentialIssueReceipt}
    (hp : s.pending = some p) (hop : receipt.operationId = p.operationId)
    (hnewer : s.generation < receipt.generation)
    (hrecorded : ReceiptRecorded b s.store.db receipt) :
    ∃ c, OnlyUsable s.store.db b.installationId b.scope c ∧ c.generation = receipt.generation ∧
      epochMs c.expiresAt = receipt.expiresAtMs ∧ c.tokenHash = b.crypto.sha256 (utf8 p.newToken) := by
  obtain ⟨record, hrecord, hid, hkind, hresult⟩ := hrecorded
  obtain ⟨c, hc, hfile | ⟨-, p', record', hp', hhash, hrecord', hresult'⟩⟩ := h.held
  · -- the record would have a credential behind it that is newer than the newest one
    obtain ⟨tr, hrun⟩ := h.storeRun
    obtain ⟨c', hc', hid', hscope', hresult'⟩ := backed_of_run hrun _ record b.scope hrecord hkind
    have hle : c'.generation ≤ c.generation := hc.newest c' hc' (hid'.trans hid) hscope'
    rw [hresult] at hresult'
    injection hresult' with hgeneration
    have hfileGeneration := hfile.1
    omega
  · rw [hp, Option.some.injEq] at hp'
    subst hp'
    rw [hop, hrecord', Option.some.injEq] at hrecord
    subst hrecord
    rw [hresult] at hresult'
    injection hresult' with hgeneration hexpires
    exact ⟨c, hc, hgeneration.symm, hexpires.symm, hhash⟩

/-- The credential behind a receipt that the Broker accepts is the usable one. -/
theorem RotationInv.receives {receipt : CredentialIssueReceipt} {nowMs : Nat} (h : RotationInv b s)
    (hs : RotationStep b s (.receive receipt nowMs) s') :
    ∃ p c, s.pending = some p ∧ s.generation < receipt.generation ∧
      s' = { s with
        file := credentialFile p.newToken
        generation := receipt.generation
        pending := none } ∧
      OnlyUsable s.store.db b.installationId b.scope c ∧ c.generation = receipt.generation ∧
      epochMs c.expiresAt = receipt.expiresAtMs ∧ c.tokenHash = b.crypto.sha256 (utf8 p.newToken) := by
  simp only [RotationStep, Rotation.step] at hs
  split at hs
  · cases hs
  · rename_i p hp
    split_ifs at hs with hmem
    split at hs
    · rename_i receipt' haccept
      cases hs
      simp only [acceptReceipt, bind_eq_ok, require_eq_ok, Except.ok.injEq] at haccept
      obtain ⟨_, ⟨-, -, hop, hnewer, -⟩, rfl⟩ := haccept
      obtain ⟨c, hc⟩ := h.agrees hp hop hnewer (h.receipts receipt hmem)
      exact ⟨p, c, hp, hnewer, rfl, hc⟩
    · cases hs

theorem RotationInv.receive_step {receipt : CredentialIssueReceipt} {nowMs : Nat} (h : RotationInv b s)
    (hs : RotationStep b s (.receive receipt nowMs) s') : RotationInv b s' := by
  obtain ⟨p, c, hp, hnewer, rfl, hc, hgeneration, -, hhash⟩ := h.receives hs
  have hread := readCredential_credentialFile (h.pending p hp)
  refine ⟨h.store, ⟨_, hread⟩, ?_, ⟨c, hc, .inl ⟨hgeneration, _, hread, hhash⟩⟩, ?_, h.receipts⟩
  · intro p' hp'
    cases hp'
  · intro sent hsent
    have hfits := h.sent sent hsent
    have hlt : sent.request.generation < receipt.generation := hfits.older.trans_lt hnewer
    refine ⟨hfits.installationId, hfits.scope, hlt.le, fun heq => ?_⟩
    exact absurd heq hlt.ne

/-- The row that a renewal with a request of the Broker starts from is the one in its file, so that the
request is one of the rotation under way. -/
theorem RotationInv.renews (h : RotationInv b s) {store : StoreConfig} {now : Time}
    {token : String} {newTokenHash : Bytes32} {receipt : Nat × Nat} {db : Db}
    (hfits : Fits b s.file s.generation s.pending sent)
    (htx : renewBearerTx b.crypto.sha256 store s.store.db now b.installationId sent.request.operationId
      b.scope sent.request.generation token newTokenHash = .ok (receipt, db)) :
    sent.request.generation = s.generation := by
  obtain ⟨row, current, hrow, hcurrent, -, -⟩ := renewBearerTx_ok htx
  obtain ⟨-, -, -, hmem, hid, hscope, hgeneration, hlive, -⟩ := renewableCredential_eq_some hcurrent
  obtain ⟨c, hc, hheld⟩ := h.held
  obtain rfl : current = c := hc.only current hmem hid hscope hlive
  obtain ⟨tr, hrun⟩ := h.storeRun
  have hle : current.generation ≤ row.generation := hc.generation_le hrun hrow
  have hrange : row.generation < 2 ^ 63 := generation_lt_of_inRange (inRange_run hrun) hrow
  have hbound : s.generation ≤ current.generation := generation_le_of_held hheld
  have hsent := hfits.older
  rw [i64OfU64_of_lt (by omega)] at hgeneration
  omega

theorem RotationInv.serve_step (h : RotationInv b s)
    (hs : RotationStep b s (.serve sent clock a) s') : RotationInv b s' := by
  simp only [RotationStep, Rotation.step] at hs
  split_ifs at hs with hserve
  obtain ⟨hsent, hsome, hcall⟩ := hserve
  obtain ⟨store, hstep, rfl⟩ := Option.map_eq_some_iff.mp hs
  obtain ⟨r, hr⟩ := Option.isSome_iff_exists.mp hsome
  rw [hr] at hcall
  obtain ⟨call, hcall, hrenewal⟩ := Option.bind_eq_some_iff.mp hcall
  obtain ⟨hid, hop, hscope, hgeneration, hbearer, hhash⟩ := sent.renewal?_eq_some hr
  have hfits := h.sent sent hsent
  have hparsed : BearerScope.parse? r.scope = some b.scope := by
    rw [hscope, hfits.scope]
    exact wireScope_text b.scope
  obtain ⟨hrun, hfind, hold⟩ := h.overlapped hstep
  obtain ⟨c, hc, hheld⟩ := h.held
  have heffect := renewStep_of_step h.started hstep hcall hrenewal hparsed
  have hanswer : (s.store.answer? b.crypto.sha256 a).bind (fun answer => sent.receipt? answer.2) =
      ((s.store.answer? b.crypto.sha256 a).map Prod.snd).bind sent.receipt? := by
    rw [Option.bind_map]
    rfl
  rw [hanswer]
  generalize (s.store.answer? b.crypto.sha256 a).map Prod.snd = answer at heffect
  cases heffect with
  | quiet hdb hnone =>
    have hnothing : answer.bind sent.receipt? = none := by
      cases answer with
      | none => rfl
      | some result =>
        cases result with
        | error e => rfl
        | ok reply => exact absurd rfl (hnone reply)
    rw [hnothing, Option.toList_none, List.nil_append]
    refine ⟨hrun, h.readable, h.pending, held_of_kept hrun hc hheld ?_ hfind, h.sent, hold⟩
    rw [hdb]
    exact hc.mem
  | @replayed record generation expiresAtMs hdb hrecord hrid hkind hresult =>
    refine ⟨hrun, h.readable, h.pending, held_of_kept hrun hc hheld ?_ hfind, h.sent, ?_⟩
    · rw [hdb]
      exact hc.mem
    · intro receipt hreceipt
      rcases List.mem_cons.mp hreceipt with rfl | hreceipt
      · rw [hop] at hrecord
        exact ⟨record, hfind _ _ hrecord, by rw [hrid, hid, hfits.installationId], hkind, hresult⟩
      · exact hold receipt hreceipt
  | @renewed config now receipt htx =>
    rw [hid, hop, hgeneration, hfits.installationId] at htx
    have hcurrent := h.renews hfits htx
    obtain ⟨p, hp, hpop, hptoken, hread⟩ := hfits.current hcurrent
    obtain ⟨row, c', hrow, hc', hmem, hreceipt⟩ := renewBearerTx_stores htx
    have hrecord := Table.find?_insert?_self (renewBearerTx_records htx)
    obtain ⟨tr, hoverlap⟩ := hrun
    obtain ⟨calls, hcalls⟩ := storeRun_of_overlap hoverlap
    have honly : OnlyUsable store.db b.installationId b.scope c' := by
      have honly := onlyUsable_of_run hcalls hmem (by rw [hc']; rfl)
      rw [hc'] at honly ⊢
      exact honly
    -- the new row is newer than every row there was
    have hnewer : s.generation < c'.generation := by
      obtain ⟨tr', hcalls'⟩ := h.storeRun
      have hle : c.generation ≤ row.generation := hc.generation_le hcalls' hrow
      have hbound : s.generation ≤ c.generation := generation_le_of_held hheld
      have hbump : c'.generation = row.generation + 1 := by rw [hc']; rfl
      omega
    have htoken : c'.tokenHash = b.crypto.sha256 (utf8 p.newToken) := by
      rw [hptoken, bytes32?_sha256Hex, Option.some.injEq] at hhash
      rw [hc', hhash]
      rfl
    have hresult : OperationResult.receipt receipt.1 receipt.2 =
        .receipt c'.generation (epochMs c'.expiresAt) := by rw [hreceipt]
    refine ⟨⟨tr, hoverlap⟩, h.readable, h.pending, ⟨c', honly, .inr ⟨hnewer, p, _, hp, htoken,
      hpop ▸ hrecord, hresult⟩⟩, h.sent, ?_⟩
    intro receipt' hreceipt'
    rcases List.mem_cons.mp hreceipt' with rfl | hreceipt'
    · exact ⟨_, hrecord, rfl, rfl, rfl⟩
    · exact hold receipt' hreceipt'

theorem RotationInv.step {l : RotationAction} (h : RotationInv b s) (halone : Alone b ⟨s, l, s'⟩)
    (hs : RotationStep b s l s') : RotationInv b s' := by
  cases l with
  | store a => exact h.store_step halone hs
  | prepare newToken operationId => exact h.prepare_step hs
  | send nonce nowMs => exact h.send_step hs
  | serve sent clock a => exact h.serve_step hs
  | receive receipt nowMs => exact h.receive_step hs

/-- A Broker that has the usable credential in its file and has not begun a rotation. -/
structure Ready (b : Broker) (s : Rotation) : Prop where
  store : ∃ tr, OverlapRun b.crypto.sha256 tr s.store
  current : ∃ c, c ∈ s.store.db.credentials.rows ∧ c.installationId = b.installationId ∧
    c.scope = b.scope ∧ c.revokedAt = none ∧ InFile b s c
  pending : s.pending = none
  sent : s.sent = []
  receipts : s.receipts = []

theorem Ready.inv (h : Ready b s) : RotationInv b s := by
  obtain ⟨c, hmem, hid, hscope, hlive, hfile⟩ := h.current
  obtain ⟨tr, hrun⟩ := h.store
  obtain ⟨calls, hcalls⟩ := storeRun_of_overlap hrun
  have honly := onlyUsable_of_run hcalls hmem hlive
  rw [hid, hscope] at honly
  obtain ⟨-, token, hread, -⟩ := id hfile
  refine ⟨h.store, ⟨token, hread⟩, ?_, ⟨c, honly, .inl hfile⟩, ?_, ?_⟩
  · intro p hp
    rw [h.pending] at hp
    cases hp
  · intro sent hsent
    rw [h.sent] at hsent
    cases hsent
  · intro receipt hreceipt
    rw [h.receipts] at hreceipt
    cases hreceipt

theorem rotationInv_of_run {s₀ : Rotation} {tr : List RotationEvent} (h₀ : Ready b s₀)
    (h : Run (RotationStep b) s₀ tr s) (halone : ∀ e ∈ tr, Alone b e) : RotationInv b s := by
  induction h with
  | refl => exact h₀.inv
  | snoc _ hs ih =>
    have hbefore := ih fun e he => halone e (List.mem_cons_of_mem _ he)
    exact hbefore.step (halone _ List.mem_cons_self) hs

/-- Whatever is lost, repeated or late: while nobody else rotates the scope, the credential that the store
accepts is the one in the Broker's file or the one it has put aside; it is the one in the file while no
rotation is under way; and each receipt that the Broker accepts is that of the credential which its file
then holds. -/
theorem rotation_never_locks_out {s₀ : Rotation} {tr : List RotationEvent} (h₀ : Ready b s₀)
    (h : Run (RotationStep b) s₀ tr s) (halone : ∀ e ∈ tr, Alone b e) :
    (∃ c, OnlyUsable s.store.db b.installationId b.scope c ∧ (InFile b s c ∨
      ∃ p, s.pending = some p ∧ c.tokenHash = b.crypto.sha256 (utf8 p.newToken))) ∧
    (s.pending = none → ∃ c, OnlyUsable s.store.db b.installationId b.scope c ∧ InFile b s c) ∧
    ∀ e ∈ tr, ∀ receipt nowMs, e.label = .receive receipt nowMs →
      ∃ c, OnlyUsable e.dst.store.db b.installationId b.scope c ∧ InFile b e.dst c ∧
        c.generation = receipt.generation ∧ epochMs c.expiresAt = receipt.expiresAtMs := by
  have hinv := rotationInv_of_run h₀ h halone
  refine ⟨?_, ?_, ?_⟩
  · obtain ⟨c, hc, hfile | ⟨-, p, -, hp, hhash, -⟩⟩ := hinv.held
    · exact ⟨c, hc, .inl hfile⟩
    · exact ⟨c, hc, .inr ⟨p, hp, hhash⟩⟩
  · intro hnone
    obtain ⟨c, hc, hfile | ⟨-, p, -, hp, -⟩⟩ := hinv.held
    · exact ⟨c, hc, hfile⟩
    · rw [hnone] at hp
      cases hp
  · rintro ⟨src, l, dst⟩ he receipt nowMs rfl
    obtain ⟨later, earlier, rfl⟩ := List.append_of_mem he
    obtain ⟨hbefore, hs, -⟩ := h.split
    have hsrc : RotationInv b src := by
      refine rotationInv_of_run h₀ hbefore fun e' he' => halone e' ?_
      exact List.mem_append_right _ (List.mem_cons_of_mem _ he')
    obtain ⟨p, c, hp, -, rfl, hc, hgeneration, hexpires, hhash⟩ := hsrc.receives hs
    have hread := readCredential_credentialFile (hsrc.pending p hp)
    exact ⟨c, hc, ⟨hgeneration, _, hread, hhash⟩, hgeneration, hexpires⟩

/-! ## A receipt that is lost -/

/-- The Broker of an installation, with a hash that tells its tokens apart. -/
def homeBroker : Broker :=
  ⟨⟨Routing.bearerHash, fun _ => none, fun _ => true, fun _ => none, fun _ _ _ => false⟩, 7, .tunnel⟩

def homeRotation : Rotation :=
  ⟨⟨Routing.sessionDb, fun _ => none⟩, credentialFile Routing.firstBearer, 3, none, [], []⟩

def homeNonce : String := "00000000-0000-4000-8000-000000000001"

def homeSent : SentRenewal :=
  ⟨⟨wireVersion, 7, .tunnel, 3, 9, homeNonce, 30000, sha256Hex homeBroker.crypto (utf8 Routing.secondBearer)⟩,
    Routing.firstBearer⟩

def homeCall (now : Time) : Call :=
  ⟨.default, now, .renewBearer 7 9 "tunnel" 3 Routing.firstBearer (Routing.bearerHash (utf8 Routing.secondBearer))⟩

/-- The Broker calls, the answer is lost, it calls again, and the answer arrives. -/
def homeActions : List RotationAction :=
  [.prepare Routing.secondBearer 9, .send homeNonce 0, .serve homeSent 0 (.call (homeCall 60)),
    .send homeNonce 0, .serve homeSent 0 (.call (homeCall 70)),
    .receive ⟨wireVersion, .tunnel, 4, 9, 86400000⟩ 1]

theorem homeRotation_ready : Ready homeBroker homeRotation := by
  have hrow : (Routing.sessionDb.credentials.rows.find? fun c => c.installationId = 7 ∧
      c.scope = .tunnel ∧ c.revokedAt = none ∧ c.generation = 3 ∧
      c.tokenHash = Routing.bearerHash (utf8 Routing.firstBearer)).isSome = true := by decide +kernel
  obtain ⟨c, hc⟩ := Option.isSome_iff_exists.mp hrow
  have hsel := List.find?_some hc
  simp only [decide_eq_true_eq] at hsel
  obtain ⟨hid, hscope, hlive, hgeneration, hhash⟩ := hsel
  have hread := readCredential_credentialFile (show tokenForm Routing.firstBearer = true by decide +kernel)
  exact ⟨overlapRun_of_storeRun (storeRun_runOf _ _), ⟨c, List.mem_of_find?_eq_some hc, hid, hscope, hlive,
    hgeneration, _, hread, hhash⟩, rfl, rfl, rfl⟩

theorem rotation_never_locks_out_finished :
    ∃ tr s, Run (RotationStep homeBroker) homeRotation tr s ∧ s.pending = none ∧
      ∃ c, OnlyUsable s.store.db 7 .tunnel c ∧ InFile homeBroker s c ∧ c.generation = 4 := by
  have hplay : (Run.play (Rotation.step homeBroker) homeRotation homeActions).map (fun s =>
      (s.pending, s.generation)) = some (none, 4) := by decide +kernel
  obtain ⟨s, hs, heq⟩ := Option.map_eq_some_iff.mp hplay
  obtain ⟨hnone, hgeneration⟩ := Prod.mk.inj heq
  obtain ⟨tr, hrun, hlabels⟩ := Run.of_play hs
  -- no other call is made
  have halone : ∀ e ∈ tr, Alone homeBroker e := by
    intro e he a call hl
    have hlabel := hlabels e he
    rw [hl] at hlabel
    simp [homeActions] at hlabel
  obtain ⟨-, hfile, -⟩ := rotation_never_locks_out homeRotation_ready hrun halone
  obtain ⟨c, hc, hin⟩ := hfile hnone
  exact ⟨tr, s, hrun, hnone, c, hc, hin, hin.1.trans hgeneration⟩

end BloomRelay.Client
