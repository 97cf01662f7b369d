import BloomRelay.Store.Proofs.CredentialProofs
import BloomRelay.Store.Proofs.ReplayProofs

/-!
# Repeated renewals

Two identical renewals of which one begins after the other has ended give the same receipt. Two that
overlap do not: the lookup of the operation ID comes before the lock of the installation, so that the
second one finds no record, waits, and is then refused for the credential that the first has revoked.
-/

namespace BloomRelay.Store

open Protocol Checked

variable {sha256 : Bytes → Bytes32} {store : StoreConfig} {db db' : Db} {now now' : Time}
  {op : StoreOp} {reply : Reply} {s s' s₀ : Overlap} {a : OverlapAction} {call : Call}
  {tr tr₀ : List (Event Overlap OverlapAction)} {id operationId : Uuid} {scope : BearerScope}
  {generation : Nat} {currentToken : String} {newTokenHash : Bytes32}

def StoreOp.renews : StoreOp → Bool
  | .renewBearer .. => true
  | _ => false

theorem replays_of_renews (h : op.renews = true) : op.replays = true := by
  cases op with
  | renewBearer => rfl
  | _ => cases h

/-! ## One renewal in time -/

/-- The row of a generation that is unrevoked, within its grace and the newest is the one found. -/
theorem renewableCredential_of {row : Installation} {c : Credential}
    (hrow : db.installations.find? id = some row) (hstate : row.state = .dnsReady)
    (hmem : c ∈ db.credentials.rows) (hid : c.installationId = id) (hscope : c.scope = scope)
    (hgeneration : (c.generation : Int) = i64OfU64 generation) (hlive : c.revokedAt = none)
    (hgrace : now < c.expiresAt + seconds store.credentialWindows.renewalGrace)
    (hnewest : ∀ n ∈ db.credentials.rows, n.installationId = id → n.scope = scope →
      n.generation ≤ c.generation) :
    renewableCredential store db now id scope generation = some c := by
  have hfind : (db.credentials.rows.find? fun c => c.installationId = id ∧ c.scope = scope ∧
      (c.generation : Int) = i64OfU64 generation ∧ c.revokedAt = none ∧
      now < c.expiresAt + seconds store.credentialWindows.renewalGrace) = some c := by
    cases hc : db.credentials.rows.find? _ with
    | none =>
      have hrefused := List.find?_eq_none.mp hc c hmem
      exact absurd (decide_eq_true ⟨hid, hscope, hgeneration, hlive, hgrace⟩) hrefused
    | some c' =>
      have hsel := List.find?_some hc
      simp only [decide_eq_true_eq] at hsel
      obtain ⟨hid', hscope', hgeneration', -⟩ := hsel
      have hkey : Credential.key c' = Credential.key c := by
        have hnumber : c'.generation = c.generation := by omega
        simp only [Credential.key, hid', hid, hscope', hscope, hnumber]
      rw [db.credentials.key_inj (List.mem_of_find?_eq_some hc) hmem hkey]
  unfold renewableCredential
  rw [hrow]
  refine Option.filter_eq_some_iff.mpr ⟨hfind, decide_eq_true ⟨hstate, ?_⟩⟩
  intro hany
  obtain ⟨n, hn, hp⟩ := List.any_eq_true.mp hany
  obtain ⟨hni, hns, hlt⟩ := of_decide_eq_true hp
  have hle := hnewest n hn (hni.trans hid) (hns.trans hscope)
  omega

/-- A credential that may be renewed could be renewed at any earlier time. -/
theorem renewableCredential_earlier {c : Credential}
    (h : renewableCredential store db now id scope generation = some c) (hle : now' ≤ now) :
    renewableCredential store db now' id scope generation = some c := by
  obtain ⟨row, hrow, hstate, hmem, hid, hscope, hgeneration, hlive, hgrace, hnewest⟩ :=
    renewableCredential_eq_some h
  exact renewableCredential_of hrow hstate hmem hid hscope hgeneration hlive
    (Nat.lt_of_le_of_lt hle hgrace) hnewest

/-- A renewal that is let through is let through at any earlier time, the errors of the database
apart. -/
theorem renewBearerTx_earlier {r : Nat × Nat}
    (h : renewBearerTx sha256 store db now id operationId scope generation currentToken
      newTokenHash = .ok (r, db')) (hle : now' ≤ now) {e : StoreError}
    (he : renewBearerTx sha256 store db now' id operationId scope generation currentToken
      newTokenHash = .error e) : e = .unavailable := by
  obtain ⟨row, current, -, hcurrent, htoken, -⟩ := renewBearerTx_ok h
  have hearlier := renewableCredential_earlier hcurrent hle
  simp only [renewBearerTx, hearlier] at he
  obtain hnone | ⟨_, hfound, he⟩ := bind_eq_error.mp he
  · cases hnone
  cases hfound
  obtain hrefused | ⟨_, -, he⟩ := bind_eq_error.mp he
  · exact absurd htoken (require_eq_error.mp hrefused).1
  obtain hmissing | ⟨_, -, he⟩ := bind_eq_error.mp he
  · exact (found_eq_error.mp hmissing).2.symm
  · exact (storeCredential_error he).1

theorem exec_error {e : StoreError} (h : call.exec sha256 db = .error e) :
    e = .unavailable ∨ call.op.transact sha256 call.store call.now db = .error e := by
  unfold Call.exec at h
  split at h
  · split_ifs at h
    cases h
    exact .inl rfl
  · rename_i htx
    cases h
    exact .inr htx

/-- What one renewal has got, an identical one would have got before it, or a database error. -/
theorem exec_earlier {call' : Call} (hop : call.op.renews = true)
    (h : call.exec sha256 db = .ok (reply, db')) (hstore : call'.store = call.store)
    (hsame : call'.op = call.op) (hle : call'.now ≤ call.now)
    (hfresh : call'.op.fresh db call'.now = true) {e : StoreError}
    (he : call'.exec sha256 db = .error e) : e = .unavailable := by
  obtain ⟨store, now, op⟩ := call
  obtain ⟨store', now', op'⟩ := call'
  obtain rfl : op' = op := hsame
  obtain rfl : store' = store := hstore
  obtain ⟨hlookup, rfl⟩ | ⟨hlookup, hbody⟩ := exec_cases h
  · have hagain := repeats_of_lookup (replays_of_renews hop) hlookup now' hfresh
    have hin : db'.inRange = true := (exec_ok h).2
    rw [exec_of_lookup hin hagain] at he
    cases he
  · cases op' with
    | renewBearer id operationId scope generation currentToken newTokenHash =>
      have hnone := (body_unrecorded rfl hbody).1
      have hagain : (StoreOp.renewBearer id operationId scope generation currentToken
          newTokenHash).lookup sha256 now' db = .ok none := by
        refine lookup_of_unrecorded hlookup fun o ho => ?_
        cases ho
        exact hnone
      obtain ⟨r, htx, -⟩ := answer_ok.mp hbody
      obtain ⟨parsed, hparsed, htx⟩ := bind_eq_ok.mp htx
      obtain rfl | he := exec_error he
      · rfl
      · rw [transact_eq, hagain] at he
        have he := answer_error.mp he
        rw [hparsed] at he
        exact renewBearerTx_earlier htx hle he
    | _ => cases hop

/-! ## Renewals one after the other -/

/-- The call begins while no identical one is between its two steps. -/
def Overlap.apart (s : Overlap) (op : StoreOp) : OverlapAction → Prop
  | .call _ | .start _ _ => ∀ k call, s.calls k = some call → call.op ≠ op
  | .finish _ | .abandon _ => True

/-- A step of identical calls that are made one after the other. -/
structure RetryStep (sha256 : Bytes → Bytes32) (store : StoreConfig) (op : StoreOp) (s : Overlap)
    (a : OverlapAction) (s' : Overlap) : Prop where
  step : OverlapStep sha256 s a s'
  same : ∀ call, s.call? a = some call → call.store = store ∧ call.op = op
  fresh : ∀ call, s.call? a = some call → op.fresh s.db call.now = true
  apart : s.apart op a

/-- The calls of a run began in the order of its steps. -/
def InOrder (tr : List (Event Overlap OverlapAction)) : Prop :=
  tr.Pairwise fun later earlier => ∀ call, later.src.call? later.label = some call →
    ∀ call', earlier.src.call? earlier.label = some call' → call'.now ≤ call.now

/-- One identical call is open at most, and it would not find a record now either. -/
structure LoneOpen (sha256 : Bytes → Bytes32) (op : StoreOp) (s : Overlap) : Prop where
  lookup : ∀ k call, s.calls k = some call → call.op = op →
    op.lookup sha256 call.now s.db = .ok none
  unique : ∀ k k' call call', s.calls k = some call → s.calls k' = some call' → call.op = op →
    call'.op = op → k = k'

theorem LoneOpen.of_none (h : ∀ k call, s.calls k = some call → call.op ≠ op) :
    LoneOpen sha256 op s :=
  ⟨fun k call hk hop => absurd hop (h k call hk), fun k _ call _ hk _ hop _ => absurd hop (h k call hk)⟩

theorem LoneOpen.step (h : LoneOpen sha256 op s) (hs : RetryStep sha256 store op s a s') :
    LoneOpen sha256 op s' := by
  obtain ⟨hs, hsame, -, hapart⟩ := hs
  cases a with
  | call call =>
    cases hs
    exact .of_none hapart
  | start k call =>
    simp only [OverlapStep, Overlap.step] at hs
    split at hs
    · cases hs
    · split at hs
      · rename_i hlookup
        cases hs
        -- The call that has just begun is the only identical one.
        have hnew : ∀ j c, (s.setCall k (some call)).calls j = some c → c.op = op →
            j = k ∧ c = call := by
          intro j c hj hop
          change Function.update s.calls k (some call) j = some c at hj
          by_cases hjk : j = k
          · subst hjk
            rw [Function.update_self] at hj
            exact ⟨rfl, (Option.some.inj hj).symm⟩
          · rw [Function.update_of_ne hjk] at hj
            exact absurd hop (hapart j c hj)
        constructor
        · intro j c hj hop
          obtain ⟨-, rfl⟩ := hnew j c hj hop
          rw [← hop]
          exact hlookup
        · intro j j' c c' hj hj' hop hop'
          rw [(hnew j c hj hop).1, (hnew j' c' hj' hop').1]
      · cases hs
        exact h
  | finish k =>
    simp only [OverlapStep, Overlap.step] at hs
    split at hs
    · rename_i call hcall
      cases hs
      refine .of_none fun j c hj hop => ?_
      change Function.update s.calls k none j = some c at hj
      by_cases hjk : j = k
      · subst hjk
        rw [Function.update_self] at hj
        cases hj
      · rw [Function.update_of_ne hjk] at hj
        exact hjk (h.unique j k c call hj hcall hop (hsame call hcall).2)
    · cases hs
  | abandon k =>
    cases hs
    have hold : ∀ j c, (s.setCall k none).calls j = some c → s.calls j = some c := by
      intro j c hj
      change Function.update s.calls k none j = some c at hj
      by_cases hjk : j = k
      · subst hjk
        rw [Function.update_self] at hj
        cases hj
      · rwa [Function.update_of_ne hjk] at hj
    exact ⟨fun j c hj => h.lookup j c (hold j c hj),
      fun j j' c c' hj hj' => h.unique j j' c c' (hold j c hj) (hold j' c' hj')⟩

theorem exec_eq_commit (h : call.op.lookup sha256 call.now db = .ok none) :
    call.exec sha256 db = call.commit sha256 db := by
  unfold Call.exec Call.commit
  rw [transact_eq, h]
  rfl

/-- A step that answers a call does what the call does in one step, and no other changes the
database. -/
theorem RetryStep.answers (h : LoneOpen sha256 op s) (hin : s.db.inRange = true)
    (hs : RetryStep sha256 store op s a s') :
    (s.answer? sha256 a = none ∧ s'.db = s.db) ∨
      ∃ call, s.call? a = some call ∧
        s.answer? sha256 a = some (call, (call.exec sha256 s.db).map Prod.fst) ∧
        s'.db = call.after sha256 s.db := by
  obtain ⟨hs, hsame, -, -⟩ := hs
  cases a with
  | call call =>
    cases hs
    exact .inr ⟨call, rfl, rfl, rfl⟩
  | start k call =>
    simp only [OverlapStep, Overlap.step] at hs
    simp only [Overlap.answer?]
    split at hs
    · cases hs
    · cases hlookup : call.op.lookup sha256 call.now s.db with
      | error e =>
        rw [hlookup] at hs
        cases hs
        have hexec := exec_of_lookup_error hlookup
        refine .inr ⟨call, rfl, ?_, ?_⟩
        · rw [hexec]
          rfl
        · unfold Call.after
          rw [hexec]
      | ok answered =>
        rw [hlookup] at hs
        cases answered with
        | none =>
          cases hs
          exact .inl ⟨rfl, rfl⟩
        | some reply =>
          cases hs
          have hexec := exec_of_lookup hin hlookup
          refine .inr ⟨call, rfl, ?_, (after_of_exec hexec).symm⟩
          rw [hexec]
          rfl
  | finish k =>
    simp only [OverlapStep, Overlap.step] at hs
    split at hs
    · rename_i call hcall
      cases hs
      have hop := (hsame call hcall).2
      have hlookup := h.lookup k call hcall hop
      rw [← hop] at hlookup
      have hexec := exec_eq_commit hlookup
      refine .inr ⟨call, hcall, ?_, ?_⟩
      · rw [Overlap.answer?, hcall, hexec]
        rfl
      · show call.committed sha256 s.db = call.after sha256 s.db
        cases hcommit : call.commit sha256 s.db with
        | error e => simp only [Call.committed, Call.after, hexec, hcommit]
        | ok p => simp only [Call.committed, Call.after, hexec, hcommit]
    · cases hs
  | abandon k =>
    cases hs
    exact .inl ⟨rfl, rfl⟩

theorem repeats_of_exec (hop : call.op.replays = true)
    (h : call.exec sha256 db = .ok (reply, db')) : Repeats sha256 call.op reply db' := by
  obtain ⟨hlookup, rfl⟩ | ⟨hlookup, hbody⟩ := exec_cases h
  · exact repeats_of_lookup hop hlookup
  · exact repeats_of_body hop hlookup hbody

/-- Nothing has been answered with success and nothing has changed. -/
structure Unanswered (sha256 : Bytes → Bytes32) (db₀ : Db) (tr : List (Event Overlap OverlapAction))
    (s : Overlap) : Prop where
  db : s.db = db₀
  answers : ∀ e ∈ tr, ∀ call r, e.src.answer? sha256 e.label = some (call, r) →
    e.src.call? e.label = some call ∧ e.src.db = db₀ ∧
      ∃ err, r = .error err ∧ call.exec sha256 db₀ = .error err

/-- There is a receipt, and every answer was that receipt or a database error. -/
structure Answered (sha256 : Bytes → Bytes32) (op : StoreOp) (reply : Reply)
    (tr : List (Event Overlap OverlapAction)) (s : Overlap) : Prop where
  repeats : Repeats sha256 op reply s.db
  answers : ∀ e ∈ tr, ∀ call r, e.src.answer? sha256 e.label = some (call, r) →
    r = .ok reply ∨ r = .error .unavailable

theorem Answered.step (h : Answered sha256 op reply tr s) (hlone : LoneOpen sha256 op s)
    (hin : s.db.inRange = true) (hs : RetryStep sha256 store op s a s') :
    Answered sha256 op reply (⟨s, a, s'⟩ :: tr) s' := by
  obtain ⟨hnone, hdb⟩ | ⟨call, hcall, hans, hdb⟩ := hs.answers hlone hin
  · refine ⟨hdb ▸ h.repeats, fun e he c r hr => ?_⟩
    rcases List.mem_cons.mp he with rfl | he
    · rw [hnone] at hr
      cases hr
    · exact h.answers e he c r hr
  · have hlookup : call.op.lookup sha256 call.now s.db = .ok (some reply) := by
      rw [(hs.same call hcall).2]
      exact h.repeats call.now (hs.fresh call hcall)
    have hexec := exec_of_lookup hin hlookup
    rw [after_of_exec hexec] at hdb
    refine ⟨hdb ▸ h.repeats, fun e he c r hr => ?_⟩
    rcases List.mem_cons.mp he with rfl | he
    · rw [hexec] at hans
      cases hans.symm.trans hr
      exact .inl rfl
    · exact h.answers e he c r hr

theorem Unanswered.step {db₀ : Db} (hop : op.renews = true) (h : Unanswered sha256 db₀ tr s)
    (hlone : LoneOpen sha256 op s) (hin : s.db.inRange = true)
    (hearlier : ∀ e ∈ tr, RetryStep sha256 store op e.src e.label e.dst)
    (hs : RetryStep sha256 store op s a s') (horder : InOrder (⟨s, a, s'⟩ :: tr)) :
    Unanswered sha256 db₀ (⟨s, a, s'⟩ :: tr) s' ∨
      ∃ reply, Answered sha256 op reply (⟨s, a, s'⟩ :: tr) s' := by
  obtain ⟨hnone, hdb⟩ | ⟨call, hcall, hans, hdb⟩ := hs.answers hlone hin
  · refine .inl ⟨hdb.trans h.db, fun e he c r hr => ?_⟩
    rcases List.mem_cons.mp he with rfl | he
    · rw [hnone] at hr
      cases hr
    · exact h.answers e he c r hr
  · cases hexec : call.exec sha256 s.db with
    | error err =>
      have hafter : call.after sha256 s.db = s.db := by
        unfold Call.after
        rw [hexec]
      refine .inl ⟨(hdb.trans hafter).trans h.db, fun e he c r hr => ?_⟩
      rcases List.mem_cons.mp he with rfl | he
      · rw [hexec] at hans
        cases hans.symm.trans hr
        exact ⟨hcall, h.db, err, rfl, h.db ▸ hexec⟩
      · exact h.answers e he c r hr
    | ok p =>
      obtain ⟨reply, db'⟩ := p
      obtain ⟨hstore, rfl⟩ := hs.same call hcall
      rw [after_of_exec hexec] at hdb
      refine .inr ⟨reply, hdb ▸ repeats_of_exec (replays_of_renews hop) hexec, fun e he c r hr => ?_⟩
      rcases List.mem_cons.mp he with rfl | he
      · rw [hexec] at hans
        cases hans.symm.trans hr
        exact .inl rfl
      · -- A call before the first receipt that was refused for any other reason would have been
        -- let through.
        obtain ⟨hc, hsrc, err, rfl, hrefused⟩ := h.answers e he c r hr
        obtain ⟨hstore', hsame⟩ := (hearlier e he).same c hc
        have hle : c.now ≤ call.now := (List.pairwise_cons.mp horder).1 e he call hcall c hc
        have hfresh : c.op.fresh s.db c.now = true := by
          rw [hsame, h.db, ← hsrc]
          exact (hearlier e he).fresh c hc
        rw [← h.db] at hrefused
        have hunavailable := exec_earlier hop hexec (hstore'.trans hstore.symm) hsame hle hfresh hrefused
        exact .inr (congrArg Except.error hunavailable)

/-- **Repeated renewals.** In every run of identical renewals from a state of the store, of which each
begins after the others have ended and within five minutes of the record, a renewal that gives a receipt
is one whose receipt every other one gives as well, or a database error after which a further one gives
it. -/
theorem renewal_retries (hop : op.renews = true) (h₀ : OverlapRun sha256 tr₀ s₀)
    (hfree : ∀ k call, s₀.calls k = some call → call.op ≠ op)
    (h : Run (RetryStep sha256 store op) s₀ tr s) (horder : InOrder tr) :
    ∀ e ∈ tr, ∀ call reply, e.src.answer? sha256 e.label = some (call, .ok reply) →
      ∀ e' ∈ tr, ∀ call' r, e'.src.answer? sha256 e'.label = some (call', r) →
        r = .ok reply ∨ (r = .error .unavailable ∧
          ∀ call'' : Call, call''.op = op → op.fresh s.db call''.now = true →
            call''.exec sha256 s.db = .ok (reply, s.db)) := by
  have hreach : ∀ {tr s}, Run (RetryStep sha256 store op) s₀ tr s → s.db.inRange = true := by
    intro tr s h
    obtain ⟨_, hstore⟩ := storeRun_of_overlap (h₀.trans (h.mono fun _ _ _ hs => hs.step))
    exact inRange_run hstore
  have hlone : ∀ {tr s}, Run (RetryStep sha256 store op) s₀ tr s → LoneOpen sha256 op s := fun h =>
    h.state_invariant (LoneOpen sha256 op) (.of_none hfree) fun _ _ _ hi hs => hi.step hs
  have hsettled : Unanswered sha256 s₀.db tr s ∨ ∃ reply, Answered sha256 op reply tr s := by
    induction h with
    | refl => exact .inl ⟨rfl, fun _ he => absurd he List.not_mem_nil⟩
    | snoc hp hs ih =>
      obtain hnone | ⟨reply, hsome⟩ := ih (List.pairwise_cons.mp horder).2
      · exact hnone.step hop (hlone hp) (hreach hp) (fun e he => hp.step_of_mem he) hs horder
      · exact .inr ⟨reply, hsome.step (hlone hp) (hreach hp) hs⟩
  intro e he call reply hans e' he' call' r hans'
  obtain hnone | ⟨reply', hsome⟩ := hsettled
  · obtain ⟨-, -, _, hr, -⟩ := hnone.answers e he call _ hans
    cases hr
  · obtain rfl : reply = reply' := by
      obtain hr | hr := hsome.answers e he call _ hans
      · cases hr
        rfl
      · cases hr
    obtain hr | hr := hsome.answers e' he' call' r hans'
    · exact .inl hr
    · refine .inr ⟨hr, fun call'' hcall hfresh => exec_of_lookup (hreach h) ?_⟩
      rw [hcall]
      exact hsome.repeats call''.now hfresh

/-- A renewal of the bearer of `issuedCalls`. -/
def retriedRenewal (now : Time) : Call :=
  ⟨.default, now, .renewBearer 7 4 "tunnel" 3 "0123456789abcdef0123456789abcdef0123456789abcdef" 1⟩

/-- The second renewal begins after the first has committed. -/
theorem renewal_retries_later :
    ((retriedRenewal 70).exec (fun _ => 0) ((retriedRenewal 60).after (fun _ => 0)
        (runOf (fun _ => 0) issuedCalls).2)).map Prod.fst ∈
      [.ok (.receipt 4 86400000), .error .unavailable] := by
  have hexec : ((retriedRenewal 60).exec (fun _ => 0) (runOf (fun _ => 0) issuedCalls).2).map
      Prod.fst = .ok (.receipt 4 86400000) := by decide +kernel
  have hfresh₁ : (retriedRenewal 60).op.fresh (runOf (fun _ => 0) issuedCalls).2 60 = true := by
    decide +kernel
  have hfresh₂ : (retriedRenewal 60).op.fresh ((retriedRenewal 60).after (fun _ => 0)
      (runOf (fun _ => 0) issuedCalls).2) 70 = true := by decide +kernel
  obtain ⟨tr₀, hrun₀⟩ := overlapRun_of_storeRun (storeRun_runOf (fun _ => 0) issuedCalls)
  generalize (runOf (fun _ => 0) issuedCalls).2 = db at hexec hfresh₁ hfresh₂ hrun₀ ⊢
  have hstep₁ : RetryStep (fun _ => 0) .default (retriedRenewal 60).op ⟨db, fun _ => none⟩
      (.call (retriedRenewal 60)) ⟨(retriedRenewal 60).after (fun _ => 0) db, fun _ => none⟩ :=
    ⟨rfl, fun _ h => by cases h; exact ⟨rfl, rfl⟩, fun _ h => by cases h; exact hfresh₁,
      fun _ _ h => by cases h⟩
  have hstep₂ : RetryStep (fun _ => 0) .default (retriedRenewal 60).op
      ⟨(retriedRenewal 60).after (fun _ => 0) db, fun _ => none⟩ (.call (retriedRenewal 70))
      ⟨(retriedRenewal 70).after (fun _ => 0) ((retriedRenewal 60).after (fun _ => 0) db),
        fun _ => none⟩ :=
    ⟨rfl, fun _ h => by cases h; exact ⟨rfl, rfl⟩, fun _ h => by cases h; exact hfresh₂,
      fun _ _ h => by cases h⟩
  have hrun := (Run.refl.snoc hstep₁).snoc hstep₂
  have horder : ∀ s t u v, InOrder [⟨s, .call (retriedRenewal 70), t⟩,
      ⟨u, .call (retriedRenewal 60), v⟩] := by
    intro s t u v
    refine List.pairwise_pair.mpr fun call h call' h' => ?_
    cases h
    cases h'
    decide
  obtain hr | ⟨hr, -⟩ := renewal_retries rfl hrun₀ (fun _ _ h => by cases h) hrun (horder _ _ _ _)
    _ (List.mem_cons_of_mem _ List.mem_cons_self) (retriedRenewal 60) (.receipt 4 86400000)
    (congrArg (fun r => some (retriedRenewal 60, r)) hexec) _ List.mem_cons_self
    (retriedRenewal 70) _ rfl
  · exact List.mem_cons.mpr (.inl hr)
  · exact List.mem_cons_of_mem _ (List.mem_singleton.mpr hr)

/-! ## Renewals that overlap -/

theorem storeCredential_credentials {kind : OperationKind} {digest : Bytes32} {c : Credential}
    {audited : Option Uuid} {event : AuditEvent} {r : Nat × Nat}
    (h : db.storeCredential now operationId kind digest c audited event = .ok (r, db')) :
    db.credentials.insert? c = some db'.credentials := by
  obtain ⟨db₁, db₂, hinsert, hop, -, rfl⟩ := storeCredential_ok h
  obtain ⟨t, ht, rfl⟩ := insertCredential_ok hinsert
  obtain ⟨u, -, rfl⟩ := insertOperation_ok hop
  rw [ht]
  split_ifs <;> rfl

/-- A renewal leaves nothing for an identical one to start from. -/
theorem renewBearerTx_revokes {r : Nat × Nat}
    (h : renewBearerTx sha256 store db now id operationId scope generation currentToken
      newTokenHash = .ok (r, db')) (store' : StoreConfig) (now' : Time) :
    renewableCredential store' db' now' id scope generation = none := by
  obtain ⟨row, current, -, hcurrent, -, hstore⟩ := renewBearerTx_ok h
  obtain ⟨-, -, -, hmem, hid, hscope, hgeneration, -⟩ := renewableCredential_eq_some hcurrent
  obtain ⟨hfree, hrows⟩ := (Table.insert?_eq_some_iff _).mp (storeCredential_credentials hstore)
  refine Option.eq_none_iff_forall_ne_some.mpr fun c hc => ?_
  obtain ⟨-, -, -, hmem', hid', hscope', hgeneration', hlive, -⟩ := renewableCredential_eq_some hc
  rw [hrows] at hmem'
  rcases List.mem_append.mp hmem' with hold | hnew
  · -- The row with the key of the renewed one has been revoked.
    obtain ⟨old, -, rfl⟩ := List.mem_map.mp hold
    split_ifs at hid' hscope' hgeneration' hlive with hsel
    exact hsel (decide_eq_true ⟨hid', hscope', decide_eq_true hgeneration'⟩)
  · -- The new row has a key that was free, and that of the renewed one was not.
    rw [List.mem_singleton.mp hnew] at hgeneration'
    have hkey : Credential.key current = Credential.key (renewedCredential store now id scope
        newTokenHash row) := by
      have hnumber : current.generation =
          (renewedCredential store now id scope newTokenHash row).generation := by omega
      simp only [Credential.key, hid, hscope, hnumber]
      rfl
    refine (Table.find?_eq_none_iff _).mp hfree _ (List.mem_map_of_mem hmem) ?_
    split_ifs <;> exact hkey

theorem commit_unauthorized {call' : Call} (hop : call.op.renews = true)
    (h : call.commit sha256 db = .ok (reply, db')) (hsame : call'.op = call.op) :
    call'.commit sha256 db' = .error .unauthorized := by
  have hbody := commit_ok h
  unfold Call.commit
  rw [hsame]
  cases hcall : call.op with
  | renewBearer id operationId scope generation currentToken newTokenHash =>
    rw [hcall] at hbody
    obtain ⟨r, htx, -⟩ := answer_ok.mp hbody
    obtain ⟨parsed, hparsed, htx⟩ := bind_eq_ok.mp htx
    have hnone := renewBearerTx_revokes htx call'.store call'.now
    simp only [StoreOp.body]
    rw [hparsed]
    have hrefused : renewBearerTx sha256 call'.store db' call'.now id operationId parsed generation
        currentToken newTokenHash = .error .unauthorized := by
      unfold renewBearerTx
      rw [hnone]
      rfl
    have hanswer : answer (fun r => Reply.receipt r.1 r.2) (Except.ok parsed >>= fun scope =>
        renewBearerTx sha256 call'.store db' call'.now id operationId scope generation currentToken
          newTokenHash) = .error .unauthorized := answer_error.mpr hrefused
    rw [hanswer]
  | _ =>
    rw [hcall] at hop
    cases hop

/-- **Overlapping renewals.** Of two identical renewals that have both passed their lookup, the one that
comes second is refused as unauthorized once the first has given a receipt. -/
theorem overlapping_refused {k k' : Nat} {call' : Call} (hop : call.op.renews = true)
    (hk : s.calls k = some call) (hk' : s.calls k' = some call') (hne : k' ≠ k)
    (hsame : call'.op = call.op) (hs : OverlapStep sha256 s (.finish k) s')
    (hans : s.answer? sha256 (.finish k) = some (call, .ok reply)) :
    s'.answer? sha256 (.finish k') = some (call', .error .unauthorized) := by
  obtain rfl : _ = s' := Option.some.inj ((finish_step hk).symm.trans hs)
  simp only [Overlap.answer?, hk, Option.map_some, Option.some.injEq, Prod.mk.injEq, true_and] at hans
  obtain ⟨db', hcommit⟩ := map_fst_ok hans
  have hdb : call.committed sha256 s.db = db' := by
    unfold Call.committed
    rw [hcommit]
  have hopen : Function.update s.calls k none k' = some call' := by
    rw [Function.update_of_ne hne]
    exact hk'
  change (Function.update s.calls k none k').map _ = _
  rw [hopen, Option.map_some]
  show some (call', (call'.commit sha256 (call.committed sha256 s.db)).map Prod.fst) = _
  rw [hdb, commit_unauthorized hop hcommit hsame]
  rfl

/-- The retry of a renewal that is still in flight is refused. -/
theorem renewal_retry_refused :
    ∃ tr s s', OverlapRun (fun _ => 0) tr s ∧
      s.calls 0 = some (retriedRenewal 60) ∧ s.calls 1 = some (retriedRenewal 70) ∧
      s.answer? (fun _ => 0) (.finish 0) = some (retriedRenewal 60, .ok (.receipt 4 86400000)) ∧
      OverlapStep (fun _ => 0) s (.finish 0) s' ∧
      s'.answer? (fun _ => 0) (.finish 1) = some (retriedRenewal 70, .error .unauthorized) := by
  have hlookup : ∀ now, (retriedRenewal now).op.lookup (fun _ => 0) now
      (runOf (fun _ => 0) issuedCalls).2 = .ok none := by
    intro now
    have hnone : (retriedRenewal 60).op.lookup (fun _ => 0) 60 (runOf (fun _ => 0) issuedCalls).2 =
        .ok none := by decide +kernel
    have hfree : (runOf (fun _ => 0) issuedCalls).2.operations.find? 4 = none := by decide +kernel
    refine lookup_of_unrecorded hnone fun o ho => ?_
    cases ho
    exact hfree
  have hcommit : ((retriedRenewal 60).commit (fun _ => 0) (runOf (fun _ => 0) issuedCalls).2).map
      Prod.fst = .ok (.receipt 4 86400000) := by decide +kernel
  obtain ⟨tr, hrun⟩ := overlapRun_of_storeRun (storeRun_runOf (fun _ => 0) issuedCalls)
  generalize (runOf (fun _ => 0) issuedCalls).2 = db at hlookup hcommit hrun
  have hrun₁ := hrun.snoc (start_step (k := 0) (retriedRenewal 60) rfl (hlookup 60))
  have hrun₂ := hrun₁.snoc (start_step (k := 1) (retriedRenewal 70) rfl (hlookup 70))
  have hans := congrArg (fun r => some (retriedRenewal 60, r)) hcommit
  have hsame : (retriedRenewal 70).op = (retriedRenewal 60).op := rfl
  exact ⟨_, _, _, hrun₂, rfl, rfl, hans, finish_step rfl,
    overlapping_refused rfl rfl rfl (by decide) hsame (finish_step rfl) hans⟩

end BloomRelay.Store
