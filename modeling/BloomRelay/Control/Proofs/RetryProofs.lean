import BloomRelay.Control.Handlers
import BloomRelay.Control.Proofs.AdminProofs
import BloomRelay.Store.Issuance
import BloomRelay.Store.Proofs.UnavailableProofs
import Mathlib.Algebra.Order.BigOperators.Group.List

/-!
# Which answers a client may retry

A client retries a request only if the answer says that it may. The answer may say so when the
database, the restore witness or the signer is not available, and when time or other requests can clear
what the store refused the request for. What the store refuses for good has to be answered with a
status that ends the request; a value that a database which is up cannot store is refused for good.
-/

namespace BloomRelay.Control

open Protocol Store Checked

/-! ## Honest answers -/

/-- What a call fails with when the database or the restore witness is not available. With the database
up a call can fail with `unavailable` as well. -/
def infrastructure : StoreError → Bool
  | .unavailable | .migration | .witness _ => true
  | .conflict | .invalidRequest | .unauthorized => false

/-- What may fail around a request: the store, whatever the request is, and the signer. -/
structure Surroundings where
  fault : Option StoreError
  signerUp : Bool
  infra : ∀ e ∈ fault, infrastructure e = true

/-- What the store call of a handler returns. -/
def outcome (cfg : ApiConfig) (around : Surroundings) (db : Db) (now : Time) (call : StoreCall) :
    Except StoreError Reply :=
  match around.fault with
  | some e => .error e
  | none => call.run cfg.crypto.sha256 cfg.store now db

/-- The answer asks the client to come back. -/
def ApiError.retries (err : ApiError) : Prop := err.retryable = true ∨ err.status = 503

/-- The answer ends the request. -/
def ApiError.final (err : ApiError) : Prop :=
  400 ≤ err.status ∧ err.status < 500 ∧ err.retryable = false

def Retired (db : Db) (id : Uuid) : Prop :=
  ∃ i, db.installations.find? id = some i ∧ i.state = .retired

/-- The installation a store call of a handler is about. -/
def StoreCall.installationId? : StoreCall → Option Uuid
  | .transaction (.issueBearer id _ _ _ _) | .transaction (.renewBearer id _ _ _ _ _)
  | .transaction (.registerAcmeAccount id _) | .transaction (.ensureChallengeValue id _ _)
  | .transaction (.retire id _) | .transaction (.recordExpectedCertificate id _)
  | .allocationStatus id | .challengeValueReady id _ _ => some id
  | .transaction _ => none

def StoreCall.operationId? : StoreCall → Option Uuid
  | .transaction op => op.operationId?
  | _ => none

/-- The database takes the values that the client has supplied, where no check comes before it. -/
def StoreCall.storable : StoreCall → Bool
  | .transaction (.recordExpectedCertificate _ certificate) => Store.storable certificate
  | .challengeValueReady _ value _ => textOk value
  | _ => true

/-- The refusal stays as long as the request does: it is malformed, not authorized, has a value that the
database cannot store, its operation ID belongs to another operation, or its installation is retired. -/
def Permanent (db : Db) (call : StoreCall) (e : StoreError) : Prop :=
  e = .invalidRequest ∨ e = .unauthorized ∨ e = .unavailable ∧ call.storable = false ∨
    e = .conflict ∧ ((∃ id ∈ call.operationId?, db.operations.find? id ≠ none) ∨
      ∃ id ∈ call.installationId?, Retired db id)

/-- After some more calls or some time the store gives the same request another answer. -/
def Clearable (cfg : ApiConfig) (db : Db) (now : Time) (call : StoreCall) : Prop :=
  ∃ tr db' now', Run (StoreStep cfg.crypto.sha256) db tr db' ∧ now ≤ now' ∧
    call.run cfg.crypto.sha256 cfg.store now' db' ≠ call.run cfg.crypto.sha256 cfg.store now db

/-- The answers of a handler to its store call tell the truth about retrying. -/
structure Honest (cfg : ApiConfig) (db : Db) (now : Time) (serving : Serving) : Prop where
  retries : ∀ (around : Surroundings) err,
    serving.answer around.signerUp (outcome cfg around db now serving.call) = .error err →
      err.retries → around.fault ≠ none ∨ (serving.signs = true ∧ around.signerUp = false) ∨
        Clearable cfg db now serving.call
  permanent : ∀ signerUp e, serving.call.run cfg.crypto.sha256 cfg.store now db = .error e →
    Permanent db serving.call e → ∃ err, serving.answer signerUp (.error e) = .error err ∧ err.final

variable {cfg : ApiConfig} {db db' : Db} {now : Time} {serving : Serving} {e : StoreError}

/-- Only what the store call itself returns has to be looked at. -/
theorem honest_of_run
    (hok : ∀ reply err, serving.call.run cfg.crypto.sha256 cfg.store now db = .ok reply →
      serving.onOk reply = .error err → err.retries → Clearable cfg db now serving.call)
    (herr : ∀ e, serving.call.run cfg.crypto.sha256 cfg.store now db = .error e →
      ((serving.onError e).retries → Clearable cfg db now serving.call) ∧
        (Permanent db serving.call e → (serving.onError e).final)) :
    Honest cfg db now serving := by
  refine ⟨?_, fun _ e hrun hperm => ⟨_, rfl, (herr e hrun).2 hperm⟩⟩
  intro around err hanswer hretries
  obtain ⟨fault, signerUp, infra⟩ := around
  cases fault with
  | some e => exact .inl (Option.some_ne_none e)
  | none =>
    dsimp only [outcome] at hanswer
    refine .inr ?_
    cases hrun : serving.call.run cfg.crypto.sha256 cfg.store now db with
    | error e =>
      rw [hrun] at hanswer
      cases hanswer
      exact .inr ((herr e hrun).1 hretries)
    | ok reply =>
      rw [hrun] at hanswer
      dsimp only [Serving.answer] at hanswer
      split at hanswer
      · rename_i err' hans
        cases hanswer
        exact .inr (hok reply _ hrun hans hretries)
      · split_ifs at hanswer with hsigns
        rw [Bool.and_eq_true, Bool.not_eq_true'] at hsigns
        exact .inl hsigns

/-- A permanent refusal with an answer that does not end the request. -/
theorem not_honest_of_run (hrun : serving.call.run cfg.crypto.sha256 cfg.store now db = .error e)
    (hperm : Permanent db serving.call e) (hfinal : ¬ (serving.onError e).final) :
    ¬ Honest cfg db now serving := by
  intro h
  obtain ⟨err, herr, hends⟩ := h.permanent true e hrun hperm
  cases herr
  exact hfinal hends

theorem not_final_unavailable : ¬ unavailable.final := fun h => absurd h.2.1 (by decide)

theorem final_invalid : invalid.final := ⟨by decide, by decide, rfl⟩
theorem final_unauthorized : unauthorized.final := ⟨by decide, by decide, rfl⟩
theorem final_conflict : conflict.final := ⟨by decide, by decide, rfl⟩

theorem not_retries_of_final {err : ApiError} (h : err.final) : ¬ err.retries := by
  obtain ⟨-, hlt, hflag⟩ := h
  rintro (hretry | hstatus)
  · rw [hflag] at hretry
    cases hretry
  · omega

/-- An answer that ends the request is honest about a refusal. -/
theorem honest_of_final {call : StoreCall} {err : ApiError} (h : err.final) :
    (err.retries → Clearable cfg db now call) ∧ (Permanent db call e → err.final) :=
  ⟨fun hr => absurd hr (not_retries_of_final h), fun _ => h⟩

/-! ## Store calls -/

section Calls

variable {sha256 : Bytes → Bytes32} {store : StoreConfig} {op : StoreOp}

/-- A call fails because a counter is at its end, or as its transaction does. -/
theorem run_transaction_error (h : (StoreCall.transaction op).run sha256 store now db = .error e) :
    (e = .unavailable ∧ ∃ reply db', op.transact sha256 store now db = .ok (reply, db') ∧
        db'.inRange ≠ true) ∨
      op.transact sha256 store now db = .error e := by
  dsimp only [StoreCall.run, Call.exec] at h
  cases htx : op.transact sha256 store now db with
  | error e' =>
    rw [htx] at h
    cases h
    exact .inr rfl
  | ok p =>
    rw [htx] at h
    dsimp only at h
    split_ifs at h with hrange
    · cases h
    · cases h
      exact .inl ⟨rfl, p.1, p.2, rfl, hrange⟩

/-- Nothing of the relay's own fails in a call: no counter is at its end, and what the relay has drawn
at random is new. -/
structure Unhindered (cfg : ApiConfig) (db : Db) (now : Time) (call : StoreCall) : Prop where
  counters : ∀ op reply db', call = .transaction op →
    op.transact cfg.crypto.sha256 cfg.store now db = .ok (reply, db') → db'.inRange = true
  nonce : ∀ nonce source, call = .transaction (.createBootstrapChallenge nonce source) →
    db.bootstrapChallenges.find? nonce = none
  allocation : ∀ operationId key placement id random,
    call = .transaction (.allocate operationId key placement id random) → Unused db id random

theorem Unhindered.transact_error (hown : Unhindered cfg db now (.transaction op))
    (h : (StoreCall.transaction op).run cfg.crypto.sha256 cfg.store now db = .error e) :
    op.transact cfg.crypto.sha256 cfg.store now db = .error e := by
  rcases run_transaction_error h with ⟨-, reply, db', htx, hrange⟩ | htx
  · exact absurd (hown.counters op reply db' rfl htx) hrange
  · exact htx

theorem run_of_transact_error (h : op.transact sha256 store now db = .error e) :
    (StoreCall.transaction op).run sha256 store now db = .error e := by
  dsimp only [StoreCall.run, Call.exec]
  rw [h]
  rfl

theorem replayReceipt_error_cases {o : Operation} {id : Uuid} {kind : OperationKind}
    {digest : Bytes32} {fresh : Bool} (hreceipt : o.kind = kind → o.result.receipt? ≠ none)
    (h : replayReceipt o id kind digest fresh = .error e) :
    e = .conflict ∧ ¬ (o.installationId = id ∧ o.kind = kind ∧ o.requestDigest = digest ∧
      fresh = true) := by
  simp only [replayReceipt, bind_eq_error, require_eq_error, require_eq_ok, found_eq_error] at h
  rcases h with ⟨hno, rfl⟩ | ⟨_, hsame, hnone, -⟩
  · exact ⟨rfl, hno⟩
  · exact absurd hnone (hreceipt hsame.2.1)

end Calls

/-! ## Recorded receipts -/

/-- The record is one of an issue or a renewal. -/
def rotates (o : Operation) : Prop := ∃ scope, o.kind = .issue scope ∨ o.kind = .renew scope

theorem storeCredential_records {operationId : Uuid} {kind : OperationKind} {digest : Bytes32}
    {c : Credential} {auditOperation : Option Uuid} {event : AuditEvent} {r : Nat × Nat}
    (h : db.storeCredential now operationId kind digest c auditOperation event = .ok (r, db')) :
    ∃ o, db.operations.insert? o = some db'.operations ∧ o.result.receipt? ≠ none := by
  obtain ⟨db₁, db₂, hcredential, hoperation, -, rfl⟩ := storeCredential_ok h
  obtain ⟨t, -, rfl⟩ := insertCredential_ok hcredential
  obtain ⟨t', hinsert, rfl⟩ := insertOperation_ok hoperation
  refine ⟨⟨operationId, c.installationId, kind, digest,
    .receipt c.generation (epochMs c.expiresAt), now⟩, ?_, Option.some_ne_none _⟩
  by_cases htunnel : c.scope = .tunnel
  · rw [if_pos htunnel] at hinsert
    exact hinsert
  · rw [if_neg htunnel] at hinsert
    exact hinsert

section Receipts

variable {sha256 : Bytes → Bytes32} {tr : List (Event Db Call)}

/-- What an issue or a renewal newly records has a receipt. -/
theorem receipt_of_records {call : Call} {o : Operation} {q : Request}
    (hins : db.operations.insert? o = some (call.after sha256 db).operations)
    (hreq : call.op.request? sha256 = some (o.operationId, q)) (hq : q.RecordedAs sha256 o)
    (hrotates : rotates o) : o.result.receipt? ≠ none := by
  obtain heq | ⟨reply, -, htx, -⟩ := after_cases sha256 call db
  · rw [heq] at hins
    exact absurd hins Table.insert?_ne_self
  · have hrecorded : (∃ o', db.operations.insert? o' = some (call.after sha256 db).operations ∧
        o'.result.receipt? ≠ none) → o.result.receipt? ≠ none := by
      rintro ⟨o', hins', hreceipt⟩
      rw [Table.insert?_inj hins hins']
      exact hreceipt
    obtain ⟨scope, hkind⟩ := hrotates
    have hqkind := hq.kind
    generalize hop : call.op = op at hreq htx
    cases op with
    | issueBearer id operationId scope hash validity =>
      obtain ⟨_, hissue, -⟩ := answer_ok.mp htx
      obtain ⟨_, -, -, -, ⟨-, hsame⟩ | ⟨-, hnew⟩⟩ := issueBearer_ok hissue
      · rw [hsame] at hins
        exact absurd hins Table.insert?_ne_self
      · obtain ⟨_, -, -, hstore⟩ := issueBearerTx_ok hnew
        have hnew := storeCredential_records hstore
        exact hrecorded hnew
    | renewBearer id operationId scope generation token hash =>
      obtain ⟨_, hrenew, -⟩ := answer_ok.mp htx
      obtain ⟨_, -, -, ⟨-, hsame⟩ | ⟨-, hnew⟩⟩ := renewBearer_ok hrenew
      · rw [hsame] at hins
        exact absurd hins Table.insert?_ne_self
      · obtain ⟨_, _, -, -, -, hstore⟩ := renewBearerTx_ok hnew
        have hnew := storeCredential_records hstore
        exact hrecorded hnew
    | allocate | retire | relocate =>
      cases hreq
      have hother := Option.some.inj hqkind
      rcases hkind with hkind | hkind
      · rw [← hother] at hkind
        cases hkind
      · rw [← hother] at hkind
        cases hkind
    | _ => cases hreq

theorem receipt_run (h : StoreRun sha256 tr db) {operationId : Uuid} {o : Operation}
    (ho : db.operations.find? operationId = some o) (hrotates : rotates o) :
    o.result.receipt? ≠ none := by
  have hall : ∀ id o, db.operations.find? id = some o → rotates o → o.result.receipt? ≠ none := by
    refine h.state_invariant (fun db => ∀ id o, db.operations.find? id = some o → rotates o →
      o.result.receipt? ≠ none) nofun ?_
    rintro db call _ hinv rfl id o ho hrotates
    have hrecords : Records sha256 call.op db (call.after sha256 db) := call_records call db
    cases hrecords with
    | same heq =>
      rw [heq] at ho
      exact hinv id o ho hrotates
    | new o' q hins hreq hq =>
      by_cases hid : o'.operationId = id
      · subst hid
        rw [Table.find?_insert?_self hins] at ho
        cases ho
        exact receipt_of_records hins hreq hq hrotates
      · rw [Table.find?_insert?_ne hins hid] at ho
        exact hinv id o ho hrotates
  exact hall operationId o ho hrotates

end Receipts

/-! ## What passing authentication says about the installation -/

section Stays

variable {sha256 : Bytes → Bytes32} {tr : List (Event Db Call)} {id : Uuid}

theorem installation_run (h : Run (StoreStep sha256) db tr db')
    (hid : db.installations.find? id ≠ none) : db'.installations.find? id ≠ none := by
  refine h.state_invariant (fun db => db.installations.find? id ≠ none) hid ?_
  rintro db call _ hfound rfl
  exact installation_stays call hfound

/-- An installation never gets back to waiting for its serving DNS. -/
theorem not_pending_of_step {v v' : View} {change : Change} {r : Installation}
    (h : LifeStep id v change v') (hr : v.row = some r) (hstate : r.state ≠ .pendingDns) :
    ∃ r', v'.row = some r' ∧ r'.state ≠ .pendingDns := by
  cases h with
  | allocated _ _ hrow =>
    rw [hrow] at hr
    cases hr
  | issued r' _ _ hrow | renewed r' _ _ _ hrow | acmeBound r' _ _ hrow | claimed r' _ hrow
  | relocated r' _ _ hrow =>
    obtain rfl : r' = r := Option.some.inj (hrow.symm.trans hr)
    exact ⟨_, rfl, hstate⟩
  | dnsReady r' hrow | retired r' _ _ _ hrow | expired r' _ _ _ hrow => exact ⟨_, rfl, nofun⟩
  | _ => exact ⟨r, hr, hstate⟩

theorem not_pending_run (h : Run (StoreStep sha256) db tr db')
    (hdb : ∃ i, db.installations.find? id = some i ∧ i.state ≠ .pendingDns) :
    ∃ i, db'.installations.find? id = some i ∧ i.state ≠ .pendingDns := by
  refine h.state_invariant
    (fun db => ∃ i, db.installations.find? id = some i ∧ i.state ≠ .pendingDns) hdb ?_
  rintro db call _ ⟨i, hi, hstate⟩ rfl
  have hstep : LifeStep id (db.view id) (call.change sha256 db id) ((call.after sha256 db).view id) :=
    life_step call db id
  exact not_pending_of_step hstep hi hstate

end Stays

theorem ready_of_authenticateDns {authorization : Option String} {id : Uuid} {generation : Option Nat}
    {observed : Nat} (h : authenticateDns cfg db now authorization id generation = .ok observed) :
    ∃ i, db.installations.find? id = some i ∧ i.state = .dnsReady := by
  simp only [authenticateDns, bind_eq_ok, found_eq_ok] at h
  obtain ⟨bearer, -, h⟩ := h
  split at h
  · rename_i g hauth
    unfold authenticateBearerWithState at hauth
    split_ifs at hauth
    split at hauth
    · cases hauth
    · split at hauth
      · cases hauth
      · rename_i i hi
        obtain ⟨_, -, hpair⟩ := Option.map_eq_some_iff.mp hauth
        exact ⟨i, hi, congrArg Prod.snd hpair⟩
  · cases h
  · cases h

/-! ## What time clears -/

theorem le_add_sum (l : List Nat) (now : Nat) : ∀ x ∈ l, x ≤ now + l.sum := by
  intro x hx
  have hsum : x ≤ l.sum := List.single_le_sum (fun _ _ => Nat.zero_le _) x hx
  omega

/-- Once every challenge is a day old, the source and the relay are within quota. -/
theorem challenge_clearable {nonce : String} {source : IpAddr}
    (h : (StoreCall.transaction (.createBootstrapChallenge nonce source)).run cfg.crypto.sha256
      cfg.store now db = .ok (.flag false)) :
    Clearable cfg db now (.transaction (.createBootstrapChallenge nonce source)) := by
  have hlater := le_add_sum (db.bootstrapChallenges.rows.map fun c => c.createdAt + hours 24 + minutes 1)
    now
  refine ⟨[], db, _, .refl, Nat.le_add_right now
    (db.bootstrapChallenges.rows.map fun c => c.createdAt + hours 24 + minutes 1).sum, ?_⟩
  rw [h]
  generalize now + (db.bootstrapChallenges.rows.map fun c =>
    c.createdAt + hours 24 + minutes 1).sum = later at hlater ⊢
  have hold : ∀ c ∈ db.bootstrapChallenges.rows, c.createdAt + hours 24 + minutes 1 ≤ later :=
    fun c hc => hlater _ (List.mem_map_of_mem hc)
  have hminute : ∀ c ∈ db.bootstrapChallenges.rows, ¬ later < c.createdAt + minutes 1 := by
    intro c hc
    have hle := hold c hc
    exact Nat.not_lt_of_le ((Nat.add_le_add_right (Nat.le_add_right _ _) _).trans hle)
  have hquota : ¬ (⟨later, nonce, source⟩ : CreateTx).overQuota db := by
    unfold CreateTx.overQuota
    dsimp only
    rw [List.filter_eq_nil_iff.mpr fun c hc htrue => hminute c hc (of_decide_eq_true htrue).2,
      List.filter_eq_nil_iff.mpr fun c hc htrue => hminute c hc (of_decide_eq_true htrue),
      List.filter_eq_nil_iff.mpr fun c hc htrue =>
        Nat.not_lt_of_le (hold c hc) (of_decide_eq_true htrue).2.1]
    decide
  have hcreate := createBootstrapChallenge_eq db ⟨later, nonce, source⟩
  rw [if_neg hquota] at hcreate
  intro hrun
  dsimp only [StoreCall.run] at hrun
  cases hexec : (⟨cfg.store, later, .createBootstrapChallenge nonce source⟩ : Call).exec
      cfg.crypto.sha256 db with
  | error e =>
    rw [hexec] at hrun
    cases hrun
  | ok p =>
    rw [hexec] at hrun
    obtain ⟨htx, -⟩ := exec_ok hexec
    obtain ⟨b, hb, hflag⟩ := answer_ok.mp htx
    rw [hcreate] at hb
    simp only [bind_eq_ok, Except.ok.injEq, Prod.mk.injEq] at hb
    obtain ⟨_, -, rfl, -⟩ := hb
    have hreply : p.1 = .flag false := Except.ok.inj hrun
    rw [← hflag] at hreply
    cases hreply

/-- Once every value has lapsed, an installation that is ready takes another one. -/
theorem ensure_clearable {id : Uuid} {i : Installation} {generation : Nat} {txtValue : String}
    (hi : db.installations.find? id = some i) (hready : i.state = .dnsReady)
    (h : (StoreCall.transaction (.ensureChallengeValue id generation txtValue)).run cfg.crypto.sha256
      cfg.store now db = .error .conflict) :
    Clearable cfg db now (.transaction (.ensureChallengeValue id generation txtValue)) := by
  have hlater := le_add_sum (db.challengeValues.rows.map (·.expiresAt)) now
  refine ⟨[], db, _, .refl, Nat.le_add_right now (db.challengeValues.rows.map (·.expiresAt)).sum, ?_⟩
  rw [h]
  generalize now + (db.challengeValues.rows.map (·.expiresAt)).sum = later at hlater ⊢
  have hlapsed : (db.challengeValues.rows.filter fun v =>
      v.installationId = id ∧ later < v.expiresAt) = [] := by
    refine List.filter_eq_nil_iff.mpr fun v hv htrue => ?_
    exact Nat.not_lt_of_le (hlater _ (List.mem_map_of_mem hv)) (of_decide_eq_true htrue).2
  intro hrun
  rcases run_transaction_error hrun with ⟨hno, -⟩ | htx
  · cases hno
  · have hensure := answer_error.mp htx
    have hfilter : (db.installations.find? id).filter (fun i => i.state = .dnsReady) = some i := by
      rw [hi, Option.filter_some, if_pos (decide_eq_true hready)]
    simp only [ensureChallengeValue, bind_eq_error, require_eq_error, found_eq_error, hfilter] at hensure
    rcases hensure with ⟨-, hno⟩ | ⟨-, -, ⟨hno, -⟩ | ⟨_, -, ⟨-, hno⟩ | ⟨-, -, hstore | ⟨_, -, hrest⟩⟩⟩⟩
    · cases hno
    · cases hno
    · cases hno
    · unfold storeChallengeValue at hstore
      split at hstore
      · cases hstore
      · simp only [addChallengeValue, Db.insertChallengeValue, bind_eq_error, require_eq_error,
          found_eq_error] at hstore
        rcases hstore with ⟨hfull, -⟩ | ⟨-, -, (⟨-, hno⟩ | ⟨_, -, hno⟩) | ⟨_, -, hno⟩⟩
        · have hrows : (db.ensureChallengeState id).challengeValues.rows = db.challengeValues.rows := rfl
          rw [hrows, hlapsed] at hfull
          exact hfull (by decide)
        · cases hno
        · cases hno
        · cases hno
    · rcases hrest with ⟨-, hno⟩ | ⟨_, -, hno⟩
      · cases hno
      · cases hno

/-! ## The handlers -/

/-- An issue that the store does not refuse for good. -/
structure Issuable (sha256 : Bytes → Bytes32) (db : Db) (id operationId : Uuid) (scope : String)
    (tokenHash : Bytes32) (validitySeconds : Int) : Prop where
  validity : 60 ≤ validitySeconds ∧ validitySeconds ≤ 86400
  same : ∀ o, db.operations.find? operationId = some o → ∃ s, BearerScope.parse? scope = some s ∧
    o.installationId = id ∧ o.kind = .issue s ∧
    o.requestDigest = issueDigest sha256 s validitySeconds tokenHash
  live : db.operations.find? operationId = none → ¬ Retired db id

/-- The requests whose permanent refusals are answered as such. -/
def Answerable (sha256 : Bytes → Bytes32) (db : Db) : StoreCall → Prop
  | .transaction (.recordExpectedCertificate id certificate) =>
    Acceptable db id certificate → Store.storable certificate = true
  | .challengeValueReady _ value revision => revision < 2 ^ 63 → textOk value = true
  | .transaction (.allocate _ _ placement _ _) => placementOk placement = true
  | .transaction (.issueBearer id operationId scope tokenHash validitySeconds) =>
    Issuable sha256 db id operationId scope tokenHash validitySeconds
  | .transaction (.renewBearer _ _ _ _ bearer _) => bearerLengthOk bearer = true
  | .transaction (.ensureChallengeValue id _ txtValue) =>
    validateChallengeValue txtValue = .ok () → ¬ Retired db id
  | _ => True

theorem parse_scope (p : Prop) [Decidable p] :
    ∃ s, BearerScope.parse? (if p then "tunnel" else "dns_challenge") = some s := by
  split_ifs
  · exact ⟨.tunnel, by decide⟩
  · exact ⟨.dnsChallenge, by decide⟩

theorem honest_challenge {nonce : String} {source : IpAddr}
    (hown : Unhindered cfg db now (challenge nonce source).call) :
    Honest cfg db now (challenge nonce source) := by
  refine honest_of_run ?_ ?_
  · intro reply err hrun hanswer _
    have hflag : reply = .flag false := by
      dsimp only [challenge] at hanswer
      split at hanswer
      · rfl
      · cases hanswer
    subst hflag
    exact challenge_clearable hrun
  · intro e hrun
    have hcreate := answer_error.mp (hown.transact_error hrun)
    exact absurd hcreate (createBootstrapChallenge_ne_error (hown.nonce nonce source rfl))

theorem honest_enroll_iff {tr : List (Event Db Call)} {q : AllocateRequest} {key : Bytes32} {id : Uuid}
    {random : BitVec 128} (hreach : StoreRun cfg.crypto.sha256 tr db)
    (hown : Unhindered cfg db now (enroll cfg q key id random).call) :
    Honest cfg db now (enroll cfg q key id random) ↔ placementOk cfg.placement = true := by
  constructor
  · intro h
    by_contra hno
    refine not_honest_of_run (e := .invalidRequest) ?_ (.inl rfl) not_final_unavailable h
    refine run_of_transact_error (answer_error.mpr ?_)
    simp only [allocate, bind_eq_error, require_eq_error]
    exact .inl ⟨hno, trivial⟩
  · intro hplacement
    refine honest_of_run (fun _ _ _ hanswer => by cases hanswer) fun e hrun => ?_
    have hallocate := answer_error.mp (hown.transact_error hrun)
    rcases allocate_error hreach (hown.allocation _ _ _ _ _ rfl) hallocate with ⟨-, hno⟩ | rfl
    · rw [hplacement] at hno
      cases hno
    · exact honest_of_final final_conflict

section Credentials

variable {tr : List (Event Db Call)} {id operationId : Uuid} {tokenHash : Bytes32}

/-- An issue that is not refused for good is granted. -/
theorem issue_ne_error {sha256 : Bytes → Bytes32} {store : StoreConfig} {scope : String}
    {validitySeconds : Int} (hreach : StoreRun sha256 tr db)
    (hscope : ∃ s, BearerScope.parse? scope = some s)
    (hid : db.installations.find? id ≠ none)
    (hok : Issuable sha256 db id operationId scope tokenHash validitySeconds) :
    issueBearer sha256 store db now id operationId scope tokenHash validitySeconds ≠ .error e := by
  intro h
  obtain ⟨s, hs⟩ := hscope
  simp only [issueBearer, hs, bind_eq_error, issueScope_eq_error, issueScope_eq_ok,
    Option.some.injEq] at h
  rcases h with ⟨hno | hno, -⟩ | ⟨_, ⟨rfl, -⟩, h⟩
  · cases hno
  · exact absurd hok.validity hno
  · split at h
    · rename_i o ho
      obtain ⟨s', hs', hinstallation, hkind, hdigest⟩ := hok.same o ho
      obtain rfl : s = s' := Option.some.inj (hs.symm.trans hs')
      simp only [bind_eq_error] at h
      rcases h with h | ⟨_, -, hno⟩
      · have hreceipt : o.kind = .issue s → o.result.receipt? ≠ none :=
          fun hkind => receipt_run hreach ho ⟨s, .inl hkind⟩
        obtain ⟨-, hother⟩ := replayReceipt_error_cases hreceipt h
        exact absurd ⟨hinstallation, hkind, hdigest, rfl⟩ hother
      · cases hno
    · rename_i hfree
      obtain ⟨i, hi⟩ := Option.ne_none_iff_exists'.mp hid
      have hlive : i.state ≠ .retired := fun hret => hok.live hfree ⟨i, hi, hret⟩
      have hretired := updateInstallation_eq_none (issueBearerTx_error hreach hfree h).2 hi
      exact absurd (of_decide_eq_false hretired) (not_not.mpr hlive)

/-- An issue that the store refuses for good. -/
theorem issue_refused {sha256 : Bytes → Bytes32} {scope : String} {validitySeconds : Int}
    (store : StoreConfig) (now : Time) (hscope : ∃ s, BearerScope.parse? scope = some s)
    (hno : ¬ Issuable sha256 db id operationId scope tokenHash validitySeconds) :
    ∃ e, issueBearer sha256 store db now id operationId scope tokenHash validitySeconds = .error e ∧
      Permanent db (.transaction (.issueBearer id operationId scope tokenHash validitySeconds)) e := by
  obtain ⟨s, hs⟩ := hscope
  by_cases hvalidity : 60 ≤ validitySeconds ∧ validitySeconds ≤ 86400
  · cases ho : db.operations.find? operationId with
    | some o =>
      have hother : ¬ (o.installationId = id ∧ o.kind = .issue s ∧
          o.requestDigest = issueDigest sha256 s validitySeconds tokenHash ∧ True) := by
        rintro ⟨hinstallation, hkind, hdigest, -⟩
        refine hno ⟨hvalidity, ?_, fun hnone => ?_⟩
        · intro o' ho'
          obtain rfl : o = o' := Option.some.inj (ho.symm.trans ho')
          exact ⟨s, hs, hinstallation, hkind, hdigest⟩
        · rw [ho] at hnone
          cases hnone
      have htaken : db.operations.find? operationId ≠ none := by
        rw [ho]
        exact Option.some_ne_none o
      refine ⟨.conflict, ?_, .inr (.inr (.inr ⟨rfl, .inl ⟨operationId, rfl, htaken⟩⟩))⟩
      simp only [issueBearer, hs, ho, bind_eq_error, issueScope_eq_ok, issueReplay, replayReceipt,
        require_eq_error]
      exact .inr ⟨s, ⟨rfl, hvalidity⟩, .inl (.inl ⟨hother, trivial⟩)⟩
    | none =>
      have hretired : Retired db id := by
        by_contra hlive
        refine hno ⟨hvalidity, fun o ho' => ?_, fun _ => hlive⟩
        rw [ho] at ho'
        cases ho'
      refine ⟨.conflict, ?_, .inr (.inr (.inr ⟨rfl, .inr ⟨id, rfl, hretired⟩⟩))⟩
      obtain ⟨i, hi, hstate⟩ := hretired
      have hupdate : db.updateInstallation id (fun i => i.state ≠ .retired) Installation.bump
          Installation.bump_installationId = none := by
        unfold Db.updateInstallation
        rw [hi]
        refine if_neg fun htrue => ?_
        have hlive : i.state ≠ .retired := of_decide_eq_true htrue
        exact hlive hstate
      simp only [issueBearer, hs, ho, bind_eq_error, issueScope_eq_ok, issueBearerTx, found_eq_error]
      exact .inr ⟨s, ⟨rfl, hvalidity⟩, .inl ⟨hupdate, trivial⟩⟩
  · refine ⟨.invalidRequest, ?_, .inl rfl⟩
    simp only [issueBearer, bind_eq_error, issueScope_eq_error]
    exact .inl ⟨.inr hvalidity, trivial⟩

/-- A renewal is refused by its length check, as a conflict, or as unauthorized. -/
theorem renew_error {sha256 : Bytes → Bytes32} {store : StoreConfig} {scope bearer : String}
    {generation : Nat} (hreach : StoreRun sha256 tr db)
    (hscope : ∃ s, BearerScope.parse? scope = some s) (hlength : bearerLengthOk bearer = true)
    (h : renewBearer sha256 store db now id operationId scope generation bearer tokenHash = .error e) :
    e = .conflict ∨ e = .unauthorized := by
  obtain ⟨s, hs⟩ := hscope
  simp only [renewBearer, hs, bind_eq_error, renewScope_eq_error, renewScope_eq_ok,
    Option.some.injEq] at h
  rcases h with ⟨hno | hno, -⟩ | ⟨_, ⟨rfl, -⟩, h⟩
  · cases hno
  · exact absurd hlength hno
  · split at h
    · rename_i o ho
      simp only [bind_eq_error] at h
      rcases h with h | ⟨_, -, hno⟩
      · have hreceipt : o.kind = .renew s → o.result.receipt? ≠ none :=
          fun hkind => receipt_run hreach ho ⟨s, .inr hkind⟩
        exact .inl (replayReceipt_error_cases hreceipt h).1
      · cases hno
    · rename_i hfree
      exact .inr (renewBearerTx_error hreach hfree h)

theorem honest_renew_iff {q : CredentialRenewRequest} {authorization : Option String} {clock : Time}
    (hreach : StoreRun cfg.crypto.sha256 tr db) (hown : Unhindered cfg db now serving.call)
    (h : renewCredential q authorization clock = .ok serving) :
    Honest cfg db now serving ↔ Answerable cfg.crypto.sha256 db serving.call := by
  simp only [renewCredential, bind_eq_ok, require_eq_ok, found_eq_ok, Except.ok.injEq] at h
  obtain ⟨-, -, bearer, -, bytes, -, hash, -, rfl⟩ := h
  have hscope := parse_scope (q.scope = .tunnel)
  constructor
  · intro h
    by_contra hno
    refine not_honest_of_run (e := .invalidRequest) ?_ (.inl rfl) not_final_unavailable h
    refine run_of_transact_error (answer_error.mpr ?_)
    simp only [renewBearer, bind_eq_error, renewScope_eq_error]
    exact .inl ⟨.inr hno, trivial⟩
  · intro hlength
    refine honest_of_run (fun _ _ _ hanswer => by cases hanswer) fun e hrun => ?_
    have hrenew := answer_error.mp (hown.transact_error hrun)
    rcases renew_error hreach hscope hlength hrenew with rfl | rfl
    · exact honest_of_final final_conflict
    · exact honest_of_final final_unauthorized

end Credentials

section Bearers

variable {id : Uuid}

theorem honest_ensure_iff {q : DnsChallengeEnsureRequest} {generation : Nat}
    (hid : ∃ i, db.installations.find? q.installationId = some i ∧ i.state ≠ .pendingDns)
    (hown : Unhindered cfg db now (ensureDnsChallenge q generation).call) :
    Honest cfg db now (ensureDnsChallenge q generation) ↔
      (validateChallengeValue q.txtValue = .ok () → ¬ Retired db q.installationId) := by
  constructor
  · intro h hvalid hretired
    refine not_honest_of_run (e := .conflict) ?_
      (.inr (.inr (.inr ⟨rfl, .inr ⟨q.installationId, rfl, hretired⟩⟩)))
      (fun hfinal => by cases hfinal.2.2) h
    obtain ⟨i, hi, hstate⟩ := hretired
    have hfilter : (db.installations.find? q.installationId).filter (fun i => i.state = .dnsReady) =
        none := by
      have hready : ¬ i.state = .dnsReady := by
        rw [hstate]
        nofun
      rw [hi, Option.filter_some, if_neg fun htrue => hready (of_decide_eq_true htrue)]
    refine run_of_transact_error (answer_error.mpr ?_)
    simp only [ensureChallengeValue, bind_eq_error, require_eq_ok, found_eq_error]
    exact .inr ⟨(), hvalid, .inl ⟨hfilter, trivial⟩⟩
  · intro hlive
    refine honest_of_run (fun _ _ _ hanswer => by cases hanswer) fun e hrun => ?_
    obtain ⟨i, hi, hpending⟩ := hid
    have hensure := answer_error.mp (hown.transact_error hrun)
    rcases ensureChallengeValue_error hensure with rfl | rfl | rfl
    · exact honest_of_final final_invalid
    · exact honest_of_final final_unauthorized
    · have hvalid : validateChallengeValue q.txtValue = .ok () := by
        simp only [ensureChallengeValue, bind_eq_error, require_eq_error, require_eq_ok] at hensure
        rcases hensure with ⟨-, hno⟩ | ⟨-, hvalid, -⟩
        · cases hno
        · exact hvalid
      have hnot := hlive hvalid
      have hready : i.state = .dnsReady := by
        cases hstate : i.state with
        | pendingDns => exact absurd hstate hpending
        | dnsReady => rfl
        | retired => exact absurd ⟨i, hi, hstate⟩ hnot
      refine ⟨fun _ => ensure_clearable hi hready hrun, ?_⟩
      rintro (hno | hno | ⟨hno, -⟩ | ⟨-, ⟨_, hno, -⟩ | ⟨_, hsame, hretired⟩⟩)
      · cases hno
      · cases hno
      · cases hno
      · cases hno
      · cases hsame
        exact absurd hretired hnot

/-- A report that passes the checks and that the database does not take is refused for good, and answered
like an outage. -/
theorem honest_recordCertificate_iff {certificate : CertificateMetadata}
    (hown : Unhindered cfg db now (recordCertificate id certificate).call) :
    Honest cfg db now (recordCertificate id certificate) ↔
      (Acceptable db id certificate → Store.storable certificate = true) := by
  constructor
  · intro h haccepted
    by_contra hno
    have hperm : Permanent db (recordCertificate id certificate).call .unavailable :=
      .inr (.inr (.inl ⟨rfl, Bool.eq_false_iff.mpr hno⟩))
    refine not_honest_of_run ?_ hperm not_final_unavailable h
    exact run_of_transact_error (answer_error.mpr (recordExpectedCertificate_unavailable haccepted hno))
  · intro hstorable
    refine honest_of_run (fun _ _ _ hanswer => by cases hanswer) fun e hrun => ?_
    have hrecord := answer_error.mp (hown.transact_error hrun)
    rcases recordExpectedCertificate_error hrecord with rfl | rfl | ⟨haccepted, hno⟩
    · exact honest_of_final final_invalid
    · exact honest_of_final final_conflict
    · exact absurd (hstorable haccepted) hno

/-- The same for the value of a readiness query. -/
theorem honest_dnsChallengeReady_iff {revision : Nat} {value : String} :
    Honest cfg db now (dnsChallengeReady id revision value) ↔
      (revision < 2 ^ 63 → textOk value = true) := by
  constructor
  · intro h hrevision
    by_contra hno
    have hperm : Permanent db (dnsChallengeReady id revision value).call .unavailable :=
      .inr (.inr (.inl ⟨rfl, Bool.eq_false_iff.mpr hno⟩))
    refine not_honest_of_run ?_ hperm not_final_unavailable h
    have hready : challengeValueReady db now id value revision = .error .unavailable := by
      simp only [challengeValueReady, bind_eq_error, require_eq_ok, require_eq_error]
      exact .inr ⟨(), hrevision, .inl ⟨hno, trivial⟩⟩
    dsimp only [dnsChallengeReady, StoreCall.run]
    rw [hready]
    rfl
  · intro htext
    refine honest_of_run (fun _ _ _ hanswer => by cases hanswer) fun e hrun => ?_
    dsimp only [dnsChallengeReady, StoreCall.run] at hrun
    cases hready : challengeValueReady db now id value revision with
    | ok b =>
      rw [hready] at hrun
      cases hrun
    | error e' =>
      rw [hready] at hrun
      cases hrun
      simp only [challengeValueReady] at hready
      rcases bind_eq_error.mp hready with h | ⟨_, hrevision, hready⟩
      · obtain ⟨-, rfl⟩ := require_eq_error.mp h
        exact honest_of_final final_invalid
      rcases bind_eq_error.mp hready with h | ⟨_, -, hready⟩
      · exact absurd (htext (require_eq_ok.mp hrevision)) (require_eq_error.mp h).1
      · split at hready
        · cases hready
        · cases hready

end Bearers

section Admin

variable {tr : List (Event Db Call)} {q : AdminRequest}

/-- The answer of an authorized admin request is that of its store call. -/
theorem performRequest_answer (cfg : ApiConfig) (db : Db) (now : Time) (q : AdminRequest) :
    (performRequest cfg.toAdminConfig db now q).2 =
      (adminServing q >>= fun serving =>
        serving.answer true (serving.call.run cfg.crypto.sha256 cfg.store now db)) := by
  unfold performRequest adminServing
  cases hop : adminOp q with
  | error e => rfl
  | ok target =>
    cases target with
    | inl id =>
      by_cases hsome : (allocationStatus db id).isSome = true
      · simp [Serving.answer, StoreCall.run, hsome, bind, Except.bind]
      · simp [Serving.answer, StoreCall.run, hsome, bind, Except.bind]
    | inr op =>
      dsimp only [bind, Except.bind, StoreCall.run]
      cases (⟨cfg.store, now, op⟩ : Call).exec cfg.crypto.sha256 db with
      | error e => rfl
      | ok p => rfl

theorem honest_admin_iff (hreach : StoreRun cfg.crypto.sha256 tr db)
    (hid : db.installations.find? q.claims.installationId ≠ none)
    (hown : Unhindered cfg db now serving.call) (h : adminServing q = .ok serving) :
    Honest cfg db now serving ↔ Answerable cfg.crypto.sha256 db serving.call := by
  simp only [adminServing, bind_eq_ok] at h
  obtain ⟨target, hop, h⟩ := h
  unfold adminOp at hop
  cases hbody : q.body with
  | issue scope tokenSha256 validitySeconds =>
    rw [hbody] at hop
    simp only [bind_eq_ok, found_eq_ok, Except.ok.injEq] at hop
    obtain ⟨bytes, -, hash, -, rfl⟩ := hop
    cases h
    have hscope := parse_scope (scope = .tunnel)
    constructor
    · intro h
      by_contra hno
      obtain ⟨e, hrefused, hperm⟩ := issue_refused cfg.store now hscope hno
      refine not_honest_of_run ?_ hperm ?_ h
      · exact run_of_transact_error (answer_error.mpr hrefused)
      · dsimp only
        rw [hbody]
        exact not_final_unavailable
    · intro hok
      refine honest_of_run (fun _ _ _ hanswer => by cases hanswer) fun e hrun => ?_
      have hissue := answer_error.mp (hown.transact_error hrun)
      exact absurd hissue (issue_ne_error hreach hscope hid hok)
  | acme accountUri =>
    rw [hbody] at hop
    cases hop
    cases h
    refine iff_of_true (honest_of_run (fun _ _ _ hanswer => by cases hanswer) fun e hrun => ?_) trivial
    have hregister := answer_error.mp (hown.transact_error hrun)
    simp only [registerAcmeAccount, bind_eq_error, require_eq_error, found_eq_error] at hregister
    dsimp only
    rw [hbody]
    rcases hregister with ⟨-, rfl⟩ | ⟨-, -, ⟨-, rfl⟩ | ⟨_, -, hno⟩⟩
    · exact honest_of_final final_invalid
    · exact honest_of_final final_conflict
    · cases hno
  | status id =>
    rw [hbody] at hop
    cases hop
    cases h
    refine iff_of_true (honest_of_run (fun reply err _ hanswer hretries => ?_)
      fun e hrun => by cases hrun) trivial
    dsimp only at hanswer
    split_ifs at hanswer
    cases hanswer
    exact absurd hretries (not_retries_of_final final_unauthorized)
  | retire id =>
    rw [hbody] at hop
    cases hop
    cases h
    refine iff_of_true (honest_of_run (fun _ _ _ hanswer => by cases hanswer) fun e hrun => ?_) trivial
    have hretire := answer_error.mp (hown.transact_error hrun)
    dsimp only
    rw [hbody, retire_error hretire]
    exact honest_of_final final_conflict

end Admin

/-! ## Every handler -/

/-- One of the calls was this transaction, and the store answered with `reply`. -/
def Answered (sha256 : Bytes → Bytes32) (tr : List (Event Db Call)) (op : StoreOp) (reply : Reply) :
    Prop :=
  ∃ e ∈ tr, e.label.op = op ∧ (e.label.exec sha256 e.src).map Prod.fst = .ok reply

/-- The request passes the checks and the authentication of its handler, which read `db`; the calls `tr`
are those made from then to the store call of the handler. -/
inductive Authenticated (cfg : ApiConfig) (db : Db) (tr : List (Event Db Call)) : Serving → Prop where
  | challenge (nonce : String) (source : IpAddr) : Authenticated cfg db tr (challenge nonce source)
  | enroll {q : SignedRequest AllocateRequest} {key : Bytes32} {clock : Time} {source : IpAddr}
      (id : Uuid) (random : BitVec 128) (hcheck : enrollCheck cfg q clock = .ok key)
      (hconsumed : Answered cfg.crypto.sha256 tr
        (.consumeBootstrapChallenge q.body.bootstrapNonce source) (.flag true)) :
      Authenticated cfg db tr (enroll cfg q.body key id random)
  | admin {q : AdminRequest} {key : Bytes32} {clock : Time} {serving : Serving}
      (hprecheck : precheck q = .ok ())
      (hkey : adminPublicKey db q.claims.installationId = some key)
      (hsignature : checkSignature cfg.toAdminConfig q key clock = .ok ())
      (hnonce : Answered cfg.crypto.sha256 tr (.consumeNonce q.claims.installationId q.claims.nonce)
        (.flag true))
      (hserving : adminServing q = .ok serving) : Authenticated cfg db tr serving
  | renew {q : CredentialRenewRequest} {authorization : Option String} {clock : Time}
      {serving : Serving} (hserving : renewCredential q authorization clock = .ok serving) :
      Authenticated cfg db tr serving
  | ensure {q : DnsChallengeEnsureRequest} {authorization : Option String} {now : Time}
      {generation : Nat} (hversion : q.version = wireVersion)
      (hauth : authenticateDns cfg db now authorization q.installationId none = .ok generation) :
      Authenticated cfg db tr (ensureDnsChallenge q generation)
  | ready {authorization : Option String} {now : Time} {generation : Nat} {id : Uuid}
      (revision : Nat) (value : String)
      (hauth : authenticateDns cfg db now authorization id none = .ok generation) :
      Authenticated cfg db tr (dnsChallengeReady id revision value)
  | certificate {authorization : Option String} {now : Time} {generation : Nat} {id : Uuid}
      (certificate : CertificateMetadata)
      (hauth : authenticateDns cfg db now authorization id none = .ok generation) :
      Authenticated cfg db tr (recordCertificate id certificate)

/-- **Retryable means retryable.** In every reachable state the answers of a handler to an authenticated
request are honest exactly where the store does not refuse for good an enrollment, an issue, a renewal,
a challenge value, a report or a readiness query whose handler has no answer for that refusal. -/
theorem retryable_iff {tr₀ tr : List (Event Db Call)} {db₀ : Db}
    (hreach : StoreRun cfg.crypto.sha256 tr₀ db₀)
    (hauth : Authenticated cfg db₀ tr serving) (hrun : Run (StoreStep cfg.crypto.sha256) db₀ tr db)
    (hown : Unhindered cfg db now serving.call) :
    Honest cfg db now serving ↔ Answerable cfg.crypto.sha256 db serving.call := by
  have hdb : StoreRun cfg.crypto.sha256 (tr ++ tr₀) db := hreach.trans hrun
  cases hauth with
  | challenge nonce source => exact iff_of_true (honest_challenge hown) trivial
  | enroll id random => exact honest_enroll_iff hdb hown
  | @admin q key _ _ _ hkey _ _ hserving =>
    have hid : db₀.installations.find? q.claims.installationId ≠ none := by
      intro hnone
      unfold adminPublicKey at hkey
      rw [hnone] at hkey
      cases hkey
    exact honest_admin_iff hdb (installation_run hrun hid) hown hserving
  | renew hserving => exact honest_renew_iff hdb hown hserving
  | @ensure q _ _ generation _ hauth =>
    obtain ⟨i, hi, hstate⟩ := ready_of_authenticateDns hauth
    have hstay := not_pending_run hrun ⟨i, hi, by rw [hstate]; nofun⟩
    exact honest_ensure_iff hstay hown
  | ready => exact honest_dnsChallengeReady_iff
  | certificate => exact honest_recordCertificate_iff hown

/-! A relay whose hash is constant and whose signatures all verify, with one installation. -/

def retryConfig : ApiConfig where
  crypto :=
    { sha256 := fun _ => 0
      jcs := fun _ => some []
      verifyingKey := fun _ => true
      decodeSignature := fun _ => some []
      verifies := fun _ _ _ => true }
  jcsBody := fun _ => some []
  store := .default
  audience := "relay-control.bloom.directory"
  jcsAllocate := fun _ => some []
  decodeKey := fun _ => some 0
  placement := "eu-1"

def zeroHash : String := "0000000000000000000000000000000000000000000000000000000000000000"

/-- A tunnel credential for the installation, with the given validity. -/
def issueRequest (validitySeconds : Nat) : AdminRequest where
  claims :=
    { version := 1, installationId := 7, scope := .surfaceAdmin, action := .issueCredential
      generation := 0, audience := "relay-control.bloom.directory", operationId := 2
      nonce := "nonce-0123456789", expiresAtMs := 60000, bodySha256 := zeroHash }
  body := .issue .tunnel zeroHash validitySeconds
  signature := ""

def issueServing (validitySeconds : Nat) : Serving where
  call := .transaction (.issueBearer 7 2 "tunnel" 0 (i32OfU32 validitySeconds))
  onOk _ := .ok 200
  onError := adminError (.issue .tunnel zeroHash validitySeconds)
  signs := false

/-- The installation is enrolled, and then the nonce of the request is consumed. -/
def enrolledCall : Call := ⟨.default, 0, .allocate 1 0 "eu-1" 7 0⟩
def consumedCall : Call := ⟨.default, 0, .consumeNonce 7 "nonce-0123456789"⟩

def enrolledDb : Db := enrolledCall.after retryConfig.crypto.sha256 Db.migrated
def consumedDb : Db := consumedCall.after retryConfig.crypto.sha256 enrolledDb

theorem enrolledDb_reachable :
    StoreRun retryConfig.crypto.sha256 [⟨Db.migrated, enrolledCall, enrolledDb⟩] enrolledDb :=
  Run.refl.snoc rfl

theorem adminServing_issueRequest (validitySeconds : Nat) :
    adminServing (issueRequest validitySeconds) = .ok (issueServing validitySeconds) := by
  have hhex : hexDecode zeroHash.toList = some (List.replicate 32 0) := by decide +kernel
  have hhash : bytes32? (List.replicate 32 0) = some 0 := by decide +kernel
  have hop : adminOp (issueRequest validitySeconds) =
      .ok (.inr (.issueBearer 7 2 "tunnel" 0 (i32OfU32 validitySeconds))) := by
    simp only [adminOp, issueRequest, bind_eq_ok, found_eq_ok, Except.ok.injEq]
    exact ⟨_, hhex, 0, hhash, rfl⟩
  unfold adminServing
  rw [hop]
  rfl

theorem authenticated_issueRequest (validitySeconds : Nat) :
    Authenticated retryConfig enrolledDb [⟨enrolledDb, consumedCall, consumedDb⟩]
      (issueServing validitySeconds) := by
  have hkey : adminPublicKey enrolledDb 7 = some 0 := by decide +kernel
  have hverify : (issueRequest validitySeconds).claims.verify retryConfig.crypto []
      (issueRequest validitySeconds).signature 0 .surfaceAdmin
      (issueRequest validitySeconds).body.action retryConfig.audience (nowMs 0) = .ok () := by
    change (issueRequest 0).claims.verify retryConfig.crypto [] "" 0 .surfaceAdmin
      .issueCredential "relay-control.bloom.directory" (nowMs 0) = .ok ()
    decide +kernel
  have hsignature : checkSignature retryConfig.toAdminConfig (issueRequest validitySeconds) 0 0 =
      .ok () := by
    simp only [checkSignature, bind_eq_ok, require_eq_ok, found_eq_ok]
    exact ⟨(), rfl, [], rfl, by rw [hverify]⟩
  have hconsumed : (consumedCall.exec retryConfig.crypto.sha256 enrolledDb).map Prod.fst =
      .ok (.flag true) := by
    decide +kernel
  exact .admin rfl hkey hsignature ⟨_, List.mem_singleton_self _, rfl, hconsumed⟩
    (adminServing_issueRequest validitySeconds)

theorem retryable_iff_hour : Honest retryConfig consumedDb 0 (issueServing 3600) := by
  have hrun : Run (StoreStep retryConfig.crypto.sha256) enrolledDb
      [⟨enrolledDb, consumedCall, consumedDb⟩] consumedDb := Run.refl.snoc rfl
  have hfree : consumedDb.operations.find? 2 = none := by
    decide +kernel
  have hlive : (consumedDb.installations.find? 7).map (·.state) = some .pendingDns := by
    decide +kernel
  have hcounters : ((StoreOp.issueBearer 7 2 "tunnel" 0 3600).transact retryConfig.crypto.sha256 .default 0
      consumedDb).toOption.all (fun p => p.2.inRange) = true := by decide +kernel
  have hown : Unhindered retryConfig consumedDb 0 (issueServing 3600).call := by
    refine ⟨?_, (fun _ _ hno => by cases hno), (fun _ _ _ _ _ hno => by cases hno)⟩
    rintro op reply db' ⟨⟩ htx
    have hissue : (StoreOp.issueBearer 7 2 "tunnel" 0 3600).transact retryConfig.crypto.sha256 .default 0
        consumedDb = .ok (reply, db') := htx
    rw [hissue] at hcounters
    exact hcounters
  refine (retryable_iff enrolledDb_reachable (authenticated_issueRequest 3600) hrun hown).mpr ?_
  refine ⟨by decide, fun o ho => ?_, fun _ => ?_⟩
  · rw [hfree] at ho
    cases ho
  · rintro ⟨i, hi, hretired⟩
    rw [hi] at hlive
    have hpending : i.state = .pendingDns := Option.some.inj hlive
    rw [hretired] at hpending
    cases hpending

/-- A credential is to be valid for half a minute, which the store never accepts. -/
theorem short_issue_retried :
    StoreRun retryConfig.crypto.sha256 [⟨Db.migrated, enrolledCall, enrolledDb⟩] enrolledDb ∧
      Authenticated retryConfig enrolledDb [⟨enrolledDb, consumedCall, consumedDb⟩]
        (issueServing 30) ∧
      (issueServing 30).call.run retryConfig.crypto.sha256 .default 0 consumedDb =
        .error .invalidRequest ∧
      (issueServing 30).answer true (.error .invalidRequest) =
        .error ⟨503, .dependencyUnavailable, true⟩ ∧
      ¬ Honest retryConfig consumedDb 0 (issueServing 30) := by
  have hrefused : (issueServing 30).call.run retryConfig.crypto.sha256 .default 0 consumedDb =
      .error .invalidRequest := by
    decide +kernel
  refine ⟨enrolledDb_reachable, authenticated_issueRequest 30, hrefused, rfl, ?_⟩
  exact not_honest_of_run hrefused (.inl rfl) not_final_unavailable

end BloomRelay.Control
