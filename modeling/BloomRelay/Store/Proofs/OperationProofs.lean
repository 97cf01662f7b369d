import BloomRelay.Protocol.Proofs.ByteProofs
import BloomRelay.Store.Proofs.QueueProofs

/-!
# Operation IDs

A recorded operation is never changed, so that a later request under its ID is compared with the one
that was made first. `issue_bearer`, `renew_bearer`, `retire` and `relocate` compare the recorded
installation, kind and digest; `allocate` compares the live row of the recorded installation instead.
-/

namespace BloomRelay.Store

open Protocol Checked

variable {sha256 : Bytes → Bytes32} {db db' : Db} {tr : List (Event Db Call)}
  {operationId : Uuid} {q q' : Request} {o : Operation} {r : Installation}

/-! ## Records stay -/

/-- A record that is there stays as it is. -/
theorem Records.find {op : StoreOp} (h : Records sha256 op db db')
    (ho : db.operations.find? operationId = some o) :
    db'.operations.find? operationId = some o := by
  cases h with
  | same heq =>
    rw [heq]
    exact ho
  | new o' q hins =>
    have hne : o'.operationId ≠ operationId := by
      rintro rfl
      have hfree := ((db.operations.insert?_eq_some_iff).mp hins).1
      rw [ho] at hfree
      cases hfree
    rw [Table.find?_insert?_ne hins hne]
    exact ho

/-- A record that a transaction makes is one of its request. -/
theorem Records.recorded {op : StoreOp} (h : Records sha256 op db db')
    (hreq : op.request? sha256 = some (operationId, q))
    (hfree : db.operations.find? operationId = none)
    (hfound : db'.operations.find? operationId ≠ none) :
    ∃ o, db'.operations.find? operationId = some o ∧ q.RecordedAs sha256 o := by
  cases h with
  | same heq =>
    rw [heq] at hfound
    exact absurd hfree hfound
  | new o q' hins hreq' hq =>
    rw [hreq] at hreq'
    cases hreq'
    exact ⟨o, Table.find?_insert?_self hins, hq⟩

theorem call_records (call : Call) (db : Db) :
    Records sha256 call.op db (call.after sha256 db) := by
  obtain heq | ⟨reply, -, htx, -⟩ := after_cases sha256 call db
  · rw [heq]
    exact .same rfl
  · exact (transact_appends htx).operations

/-- An installation that exists stays. -/
theorem installation_stays (call : Call) {i : Uuid} (h : db.installations.find? i ≠ none) :
    (call.after sha256 db).installations.find? i ≠ none := by
  obtain ⟨row, hrow⟩ := Option.ne_none_iff_exists'.mp h
  have hview : (db.view i).row = some row := hrow
  have hstep : LifeStep i (db.view i) (call.change sha256 db i) ((call.after sha256 db).view i) :=
    life_step call db i
  obtain ⟨row', hrow', -⟩ := hstep.named hview
  have hfind : (call.after sha256 db).installations.find? i = some row' := hrow'
  rw [hfind]
  exact Option.some_ne_none _

/-- Every recorded operation is one of an installation: the foreign key. -/
theorem operation_installation (h : StoreRun sha256 tr db)
    (ho : db.operations.find? operationId = some o) :
    db.installations.find? o.installationId ≠ none := by
  have hall : ∀ id o, db.operations.find? id = some o →
      db.installations.find? o.installationId ≠ none := by
    refine h.state_invariant (fun db => ∀ id o, db.operations.find? id = some o →
      db.installations.find? o.installationId ≠ none) nofun ?_
    rintro db call _ hinv rfl id o ho
    have hrecords : Records sha256 call.op db (call.after sha256 db) := call_records call db
    cases hrecords with
    | same heq =>
      rw [heq] at ho
      exact installation_stays call (hinv id o ho)
    | new o' q hins hreq hq hinst =>
      by_cases hid : o'.operationId = id
      · subst hid
        rw [Table.find?_insert?_self hins] at ho
        cases ho
        exact hinst
      · rw [Table.find?_insert?_ne hins hid] at ho
        exact installation_stays call (hinv id o ho)
  exact hall operationId o ho

/-- Somewhere in the run the request was recorded under the operation ID. -/
def RecordedBy (sha256 : Bytes → Bytes32) (operationId : Uuid) (q : Request)
    (tr : List (Event Db Call)) : Prop :=
  Happened (fun e _ => e.label.op.request? sha256 = some (operationId, q) ∧
    e.src.operations.find? operationId = none ∧ e.dst.operations.find? operationId ≠ none) tr

/-- What was recorded in a run is still recorded at its end. -/
theorem record_of_run (h : StoreRun sha256 tr db) (hrec : RecordedBy sha256 operationId q tr) :
    ∃ o, db.operations.find? operationId = some o ∧ q.RecordedAs sha256 o := by
  obtain ⟨later, e, earlier, rfl, hreq, hfree, hfound⟩ := hrec
  obtain ⟨-, hstep, hlater⟩ := h.split
  have hrecords : Records sha256 e.label.op e.src e.dst := by
    have hdst : e.dst = e.label.after sha256 e.src := hstep
    rw [hdst]
    exact call_records e.label e.src
  obtain ⟨o, ho, hq⟩ := hrecords.recorded hreq hfree hfound
  refine ⟨o, ?_, hq⟩
  refine hlater.state_invariant (fun db => db.operations.find? operationId = some o) ho ?_
  rintro db call _ ho rfl
  exact (call_records call db).find ho

/-! ## Equal records are equal requests -/

theorem ofInt_inj {x y : Int} (hx : 60 ≤ x ∧ x ≤ 86400) (hy : 60 ≤ y ∧ y ≤ 86400)
    (h : BitVec.ofInt 32 x = BitVec.ofInt 32 y) : x = y := by
  have hnat := congrArg BitVec.toNat h
  simp only [BitVec.toNat_ofInt] at hnat
  omega

theorem parse_inj {scope scope' : String} {s : BearerScope} (h : BearerScope.parse? scope = some s)
    (h' : BearerScope.parse? scope' = some s) : scope = scope' := by
  rw [← asStr_of_parse h, ← asStr_of_parse h']

/-- The encoding of an issue under one scope is unambiguous. -/
theorem issue_digested {i : Uuid} {scope : String} {x y : Int} {a b : Bytes32}
    (hx : (Request.issue i scope x a).accepted = true)
    (hy : (Request.issue i scope y b).accepted = true)
    (h : (Request.issue i scope x a).digested? = (Request.issue i scope y b).digested?) :
    x = y ∧ a = b := by
  simp only [Request.accepted, decide_eq_true_eq] at hx hy
  simp only [Request.digested?, Option.some.injEq, List.append_assoc, List.append_cancel_left_eq] at h
  obtain ⟨hvalidity, hhash⟩ := List.append_inj h (by simp)
  exact ⟨ofInt_inj hx hy (beBytes_inj (by decide) hvalidity), beBytes_inj (by decide) hhash⟩

theorem renew_digested {i : Uuid} {scope : String} {g g' : BitVec 64} {a a' b b' : Bytes32}
    (h : (Request.renew i scope g a b).digested? = (Request.renew i scope g' a' b').digested?) :
    g = g' ∧ a = a' ∧ b = b' := by
  simp only [Request.digested?, Option.some.injEq, List.append_assoc, List.append_cancel_left_eq] at h
  obtain ⟨hgen, h⟩ := List.append_inj h (by simp)
  obtain ⟨hold, hnew⟩ := List.append_inj h (by simp)
  exact ⟨beBytes_inj (by decide) hgen, beBytes_inj (by decide) hold, beBytes_inj (by decide) hnew⟩

theorem relocate_digested {i : Uuid} {p p' : String}
    (h : (Request.relocate i p).digested? = (Request.relocate i p').digested?) : p = p' := by
  simp only [Request.digested?, Option.some.injEq, List.append_assoc, List.append_cancel_left_eq] at h
  exact utf8_inj h

/-- The digest of the two requests is not a collision. -/
def NoCollision (sha256 : Bytes → Bytes32) (q q' : Request) : Prop :=
  ∀ b b', q.digested? = some b → q'.digested? = some b' → sha256 b = sha256 b' → b = b'

/-- Two requests of one record, not of an allocation, are the same request. -/
theorem Request.RecordedAs.unique (h : q.RecordedAs sha256 o) (h' : q'.RecordedAs sha256 o)
    (hkind : o.kind ≠ .allocate) (hno : NoCollision sha256 q q') : q = q' := by
  -- The kinds agree, so that only requests of one constructor are left.
  have hdigested : ∀ b b', q.digested? = some b → q'.digested? = some b' → b = b' := by
    intro b b' hb hb'
    exact hno b b' hb hb' ((h.digest b hb).symm.trans (h'.digest b' hb'))
  have hk := h.kind
  have hk' := h'.kind
  have hi := h.installation
  have hi' := h'.installation
  have hok := h.accepted
  have hok' := h'.accepted
  generalize hkd : o.kind = kind at hk hk' hkind
  cases kind with
  | allocate => exact absurd rfl hkind
  | issue s =>
    cases q with
    | issue i scope x a =>
      cases q' with
      | issue i' scope' y b =>
        obtain ⟨_, hs, ⟨⟩⟩ := Option.map_eq_some_iff.mp hk
        obtain ⟨_, hs', ⟨⟩⟩ := Option.map_eq_some_iff.mp hk'
        obtain rfl := parse_inj hs hs'
        obtain rfl := (hi i rfl).symm.trans (hi' i' rfl)
        obtain ⟨rfl, rfl⟩ := issue_digested hok hok' (congrArg some (hdigested _ _ rfl rfl))
        rfl
      | _ => simp [Request.kind?] at hk'
    | _ => simp [Request.kind?] at hk
  | renew s =>
    cases q with
    | renew i scope g a b =>
      cases q' with
      | renew i' scope' g' a' b' =>
        obtain ⟨_, hs, ⟨⟩⟩ := Option.map_eq_some_iff.mp hk
        obtain ⟨_, hs', ⟨⟩⟩ := Option.map_eq_some_iff.mp hk'
        obtain rfl := parse_inj hs hs'
        obtain rfl := (hi i rfl).symm.trans (hi' i' rfl)
        obtain ⟨rfl, rfl, rfl⟩ := renew_digested (i := i) (congrArg some (hdigested _ _ rfl rfl))
        rfl
      | _ => simp [Request.kind?] at hk'
    | _ => simp [Request.kind?] at hk
  | retire =>
    cases q with
    | retire i =>
      cases q' with
      | retire i' => rw [(hi i rfl).symm.trans (hi' i' rfl)]
      | _ => simp [Request.kind?] at hk'
    | _ => simp [Request.kind?] at hk
  | relocate =>
    cases q with
    | relocate i p =>
      cases q' with
      | relocate i' p' =>
        obtain rfl := (hi i rfl).symm.trans (hi' i' rfl)
        rw [relocate_digested (i := i) (congrArg some (hdigested _ _ rfl rfl))]
      | _ => simp [Request.kind?] at hk'
    | _ => simp [Request.kind?] at hk

/-! ## Later requests -/

/-- What a request under a recorded operation ID is compared with. -/
def Request.Matches (sha256 : Bytes → Bytes32) (q : Request) (o : Operation) (r : Installation) :
    Prop :=
  match q with
  | .allocate adminPublicKey placement =>
    r.adminPublicKey = adminPublicKey ∧ r.placement = placement
  | _ => q.RecordedAs sha256 o

/-- The call was refused by its checks. -/
def Refusal (e : StoreError) : Prop := e = .conflict ∨ e = .invalidRequest

theorem replayReceipt_error {i : Uuid} {kind : OperationKind} {digest : Bytes32} {fresh : Bool}
    {e : StoreError} (h : replayReceipt o i kind digest fresh = .error e) : Refusal e := by
  simp only [replayReceipt, bind_eq_error, require_eq_error, found_eq_error] at h
  rcases h with ⟨-, rfl⟩ | ⟨-, -, -, rfl⟩
  · exact .inl rfl
  · exact .inr rfl

section Later

variable {op : StoreOp} {store : StoreConfig} {now : Time}

/-- A request under a recorded operation ID fails in its checks only. -/
theorem replay_error {e : StoreError} (hreq : op.request? sha256 = some (operationId, q))
    (ho : db.operations.find? operationId = some o)
    (hr : db.installations.find? o.installationId = some r)
    (h : op.transact sha256 store now db = .error e) : Refusal e := by
  cases op with
  | allocate operationId key placement id random =>
    cases hreq
    have h := answer_error.mp h
    simp only [allocate, Db.allocated?, ho, hr, Option.bind_some, bind_eq_error, require_eq_error,
      allocateReplay_eq_error] at h
    rcases h with ⟨-, rfl⟩ | ⟨-, -, ⟨-, rfl⟩ | ⟨_, -, h⟩⟩
    · exact .inr rfl
    · exact .inl rfl
    · cases h
  | issueBearer id operationId scope hash validity =>
    cases hreq
    have h := answer_error.mp h
    simp only [issueBearer, ho, bind_eq_error, issueScope_eq_error] at h
    rcases h with ⟨-, rfl⟩ | ⟨_, -, h | ⟨_, -, h⟩⟩
    · exact .inr rfl
    · exact replayReceipt_error h
    · cases h
  | renewBearer id operationId scope generation token hash =>
    cases hreq
    have h := answer_error.mp h
    simp only [renewBearer, ho, bind_eq_error, renewScope_eq_error] at h
    rcases h with ⟨-, rfl⟩ | ⟨_, -, h | ⟨_, -, h⟩⟩
    · exact .inr rfl
    · exact replayReceipt_error h
    · cases h
  | retire id operationId =>
    cases hreq
    have h := answer_error.mp h
    simp only [retire, ho, retireReplay, bind_eq_error, require_eq_error] at h
    rcases h with ⟨-, rfl⟩ | ⟨-, -, h⟩
    · exact .inl rfl
    · cases h
  | relocate id operationId placement =>
    cases hreq
    have h := answer_error.mp h
    simp only [relocate, ho, relocateReplay, bind_eq_error, require_eq_error] at h
    rcases h with ⟨-, rfl⟩ | ⟨-, -, ⟨-, rfl⟩ | ⟨-, -, h⟩⟩
    · exact .inr rfl
    · exact .inl rfl
    · cases h
  | _ => cases hreq

/-- A request under a recorded operation ID that succeeds matches what it is compared with. -/
theorem replay_ok {reply : Reply} (hreq : op.request? sha256 = some (operationId, q))
    (ho : db.operations.find? operationId = some o)
    (hr : db.installations.find? o.installationId = some r)
    (h : op.transact sha256 store now db = .ok (reply, db')) : q.Matches sha256 o r := by
  cases op with
  | allocate operationId key placement id random =>
    cases hreq
    obtain ⟨a, h, -⟩ := answer_ok.mp h
    simp only [allocate, Db.allocated?, ho, hr, Option.bind_some, bind_eq_ok, require_eq_ok,
      allocateReplay_eq_ok] at h
    obtain ⟨-, -, -, ⟨hlive, -⟩, -⟩ := h
    exact hlive
  | issueBearer id operationId scope hash validity =>
    cases hreq
    obtain ⟨a, h, -⟩ := answer_ok.mp h
    simp only [issueBearer, ho, bind_eq_ok, issueScope_eq_ok] at h
    obtain ⟨s, ⟨hs, hvalidity⟩, receipt, hreplay, -⟩ := h
    simp only [issueReplay, replayReceipt, bind_eq_ok, require_eq_ok] at hreplay
    obtain ⟨-, ⟨hid, hkind, hdigest, -⟩, -⟩ := hreplay
    refine ⟨?_, ?_, ?_, ?_⟩
    · rw [hkind]
      exact Option.map_eq_some_iff.mpr ⟨s, hs, rfl⟩
    · rintro i ⟨⟩
      exact hid
    · rintro b ⟨⟩
      rw [hdigest, ← asStr_of_parse hs]
      rfl
    · exact decide_eq_true hvalidity
  | renewBearer id operationId scope generation token hash =>
    cases hreq
    obtain ⟨a, h, -⟩ := answer_ok.mp h
    simp only [renewBearer, ho, bind_eq_ok, renewScope_eq_ok] at h
    obtain ⟨s, ⟨hs, -⟩, receipt, hreplay, -⟩ := h
    simp only [renewReplay, replayReceipt, bind_eq_ok, require_eq_ok] at hreplay
    obtain ⟨-, ⟨hid, hkind, hdigest, -⟩, -⟩ := hreplay
    refine ⟨?_, ?_, ?_, rfl⟩
    · rw [hkind]
      exact Option.map_eq_some_iff.mpr ⟨s, hs, rfl⟩
    · rintro i ⟨⟩
      exact hid
    · rintro b ⟨⟩
      rw [hdigest, ← asStr_of_parse hs]
      rfl
  | retire id operationId =>
    cases hreq
    obtain ⟨a, h, -⟩ := answer_ok.mp h
    simp only [retire, ho, retireReplay, bind_eq_ok, require_eq_ok] at h
    obtain ⟨-, ⟨hid, hkind⟩, -⟩ := h
    refine ⟨?_, ?_, by rintro b ⟨⟩, rfl⟩
    · rw [hkind]
      rfl
    · rintro i ⟨⟩
      exact hid
  | relocate id operationId placement =>
    cases hreq
    obtain ⟨a, h, -⟩ := answer_ok.mp h
    simp only [relocate, ho, relocateReplay, bind_eq_ok, require_eq_ok] at h
    obtain ⟨-, -, -, ⟨hid, hkind, hdigest⟩, -⟩ := h
    refine ⟨?_, ?_, ?_, rfl⟩
    · rw [hkind]
      rfl
    · rintro i ⟨⟩
      exact hid
    · rintro b ⟨⟩
      exact hdigest
  | _ => cases hreq

end Later

/-- An allocation under a recorded operation ID that names the admin key and the placement which the
recorded installation has at the moment, whatever was recorded. -/
def AllocatesLive (db : Db) (operationId : Uuid) (q : Request) : Prop :=
  ∃ o r, db.operations.find? operationId = some o ∧
    db.installations.find? o.installationId = some r ∧
    q = .allocate r.adminPublicKey r.placement

/-- A request that matches a record without being the recorded one is an allocation compared with the
live row. -/
theorem allocatesLive_of_matches (ho : db.operations.find? operationId = some o)
    (hr : db.installations.find? o.installationId = some r) (hq : q.RecordedAs sha256 o)
    (hq' : q'.Matches sha256 o r) (hne : q' ≠ q) (hno : NoCollision sha256 q q') :
    AllocatesLive db operationId q' := by
  have hother : q'.RecordedAs sha256 o → o.kind ≠ .allocate → AllocatesLive db operationId q' :=
    fun h hkind => absurd (hq.unique h hkind hno).symm hne
  cases q' with
  | allocate key placement =>
    obtain ⟨rfl, rfl⟩ := hq'
    exact ⟨o, r, ho, hr, rfl⟩
  | issue i scope x a =>
    obtain ⟨s, -, hkind⟩ := Option.map_eq_some_iff.mp hq'.kind
    exact hother hq' (by rw [← hkind]; nofun)
  | renew i scope g a b =>
    obtain ⟨s, -, hkind⟩ := Option.map_eq_some_iff.mp hq'.kind
    exact hother hq' (by rw [← hkind]; nofun)
  | retire i =>
    have hkind := Option.some.inj hq'.kind
    exact hother hq' (by rw [← hkind]; nofun)
  | relocate i p =>
    have hkind := Option.some.inj hq'.kind
    exact hother hq' (by rw [← hkind]; nofun)

theorem LifeStep.placed {i : Uuid} {v v' : View} {c : Change} (hs : LifeStep i v c v')
    (h : ∀ r, v.row = some r → placementOk r.placement = true) :
    ∀ r, v'.row = some r → placementOk r.placement = true := by
  cases hs with
  | allocated r o _ _ _ _ _ _ hvalid | relocated r placement o _ _ _ _ hvalid =>
    rintro _ ⟨⟩
    exact hvalid
  | issued r _ _ hrow | renewed r _ _ _ hrow | acmeBound r _ _ hrow | dnsReady r hrow
  | claimed r _ hrow | retired r _ _ _ hrow | expired r _ _ _ hrow =>
    rintro _ ⟨⟩
    exact h r hrow
  | _ => exact h

/-- Every installation is at a placement that an allocation may name. -/
theorem placementOk_of_run {i : Uuid} (h : StoreRun sha256 tr db)
    (hr : db.installations.find? i = some r) : placementOk r.placement = true := by
  have hplaced : ∀ r, (db.view i).row = some r → placementOk r.placement = true :=
    (life_run h i).state_invariant (fun v => ∀ r, v.row = some r → placementOk r.placement = true)
      (fun r hr => by cases hr) fun _ _ _ hv hs => hs.placed hv
  exact hplaced r hr

/-- An allocation that names the live admin key and placement is answered with the installation. -/
theorem exec_allocate_live (h : StoreRun sha256 tr db) (ho : db.operations.find? operationId = some o)
    (hr : db.installations.find? o.installationId = some r) (store : StoreConfig) (now : Time)
    (id : Uuid) (random : BitVec 128) :
    (⟨store, now, .allocate operationId r.adminPublicKey r.placement id random⟩ : Call).exec sha256 db =
      .ok (.allocation r.allocation, db) := by
  have htx : allocate db now operationId r.adminPublicKey r.placement id random =
      .ok (r.allocation, db) := by
    simp only [allocate, Db.allocated?, ho, hr, Option.bind_some, bind_eq_ok, require_eq_ok]
    exact ⟨(), placementOk_of_run h hr, _, allocateReplay_eq_ok.mpr ⟨⟨rfl, rfl⟩, rfl⟩, rfl⟩
  simp only [Call.exec, StoreOp.transact, htx, answer, inRange_run h, if_true]

theorem AllocatesLive.exec_ok {call : Call} (hlive : AllocatesLive db operationId q')
    (h : StoreRun sha256 tr db) (hreq : call.op.request? sha256 = some (operationId, q')) :
    ∃ reply, call.exec sha256 db = .ok (reply, db) := by
  obtain ⟨o, r, ho, hr, rfl⟩ := hlive
  obtain ⟨store, now, op⟩ := call
  cases op with
  | allocate operationId' key placement id random =>
    cases hreq
    exact ⟨_, exec_allocate_live h ho hr store now id random⟩
  | _ => cases hreq

theorem after_of_error {call : Call} {e : StoreError} (h : call.exec sha256 db = .error e) :
    call.after sha256 db = db := by
  unfold Call.after
  rw [h]

/-- **Operation IDs are not shared.** In every reachable state in which a request is recorded under an
operation ID, a call with this ID that makes another request is refused by its checks and leaves the
database as it is, exactly if it is not an allocation that names the live admin key and placement of
the recorded installation. -/
theorem operation_id_not_shared (h : StoreRun sha256 tr db)
    (hrec : RecordedBy sha256 operationId q tr) (call : Call)
    (hreq : call.op.request? sha256 = some (operationId, q')) (hne : q' ≠ q)
    (hno : NoCollision sha256 q q') :
    ((∃ e, call.exec sha256 db = .error e ∧ (e = .conflict ∨ e = .invalidRequest)) ∧
      call.after sha256 db = db) ↔ ¬ AllocatesLive db operationId q' := by
  constructor
  · rintro ⟨⟨e, he, -⟩, -⟩ hlive
    obtain ⟨reply, hok⟩ := hlive.exec_ok h hreq
    rw [hok] at he
    cases he
  intro hlive
  obtain ⟨o, ho, hq⟩ := record_of_run h hrec
  obtain ⟨r, hr⟩ := Option.ne_none_iff_exists'.mp (operation_installation h ho)
  cases htx : call.op.transact sha256 call.store call.now db with
  | ok p =>
    have hmatch := replay_ok hreq ho hr htx
    exact absurd (allocatesLive_of_matches ho hr hq hmatch hne hno) hlive
  | error e =>
    have hexec : call.exec sha256 db = .error e := by
      unfold Call.exec
      rw [htx]
    exact ⟨⟨e, hexec, replay_error hreq ho hr htx⟩, after_of_error hexec⟩

/-- The claimed installation gets a tunnel credential under operation ID 3. -/
def recordedCalls : List Call := ⟨.default, 60, .issueBearer 7 3 "tunnel" 0 3600⟩ :: claimedCalls

theorem recordedBy_recordedCalls :
    RecordedBy (fun _ => 0) 3 (.issue 7 "tunnel" 3600 0)
      (runOf (fun _ => 0) recordedCalls).1 := by
  refine Happened.now ⟨rfl, ?_, ?_⟩
  · decide +kernel
  · decide +kernel

/-- A hash that tells the two issues below apart. -/
def byteSum (bytes : Bytes) : Bytes32 := BitVec.ofNat 256 (bytes.map UInt8.toNat).sum

/-- An issue for two hours under the operation ID of the one for an hour is refused. -/
theorem operation_id_not_shared_issued :
    (∃ e, (⟨.default, 70, .issueBearer 7 3 "tunnel" 0 7200⟩ : Call).exec byteSum
        (runOf byteSum recordedCalls).2 = .error e ∧ (e = .conflict ∨ e = .invalidRequest)) ∧
    (⟨.default, 70, .issueBearer 7 3 "tunnel" 0 7200⟩ : Call).after byteSum
        (runOf byteSum recordedCalls).2 = (runOf byteSum recordedCalls).2 := by
  have hrec : RecordedBy byteSum 3 (.issue 7 "tunnel" 3600 0) (runOf byteSum recordedCalls).1 :=
    Happened.now ⟨rfl, by decide +kernel, by decide +kernel⟩
  have hno : NoCollision byteSum (.issue 7 "tunnel" 3600 0) (.issue 7 "tunnel" 7200 0) := by
    rintro b b' ⟨⟩ ⟨⟩ hsum
    exact absurd hsum (by decide +kernel)
  refine (operation_id_not_shared (storeRun_runOf byteSum recordedCalls) hrec
    ⟨.default, 70, .issueBearer 7 3 "tunnel" 0 7200⟩ rfl (by decide) hno).mpr ?_
  rintro ⟨o, r, -, -, hq⟩
  cases hq

/-- The row of the installation after the issue. -/
def recordedRow : Installation :=
  ⟨7, allocatedHostname 9, 5, "edge-1", 3, .dnsReady,
    some "https://acme-v02.api.letsencrypt.org/acme/acct/1", 0, none⟩

/-- An allocation under the operation ID of the issue is answered as if it had been made. -/
theorem operation_id_shared_by_allocate :
    (⟨.default, 70, .allocate 3 5 "edge-1" 8 1⟩ : Call).exec (fun _ => 0)
        (runOf (fun _ => 0) recordedCalls).2 =
          .ok (.allocation recordedRow.allocation, (runOf (fun _ => 0) recordedCalls).2) ∧
      StoreRun (fun _ => 0) (runOf (fun _ => 0) recordedCalls).1
        (runOf (fun _ => 0) recordedCalls).2 ∧
      RecordedBy (fun _ => 0) 3 (.issue 7 "tunnel" 3600 0)
        (runOf (fun _ => 0) recordedCalls).1 ∧
      (StoreOp.allocate 3 5 "edge-1" 8 1).request? (fun _ => 0) = some (3, .allocate 5 "edge-1") := by
  have hrun := storeRun_runOf (fun _ => 0) recordedCalls
  have ho : (runOf (fun _ => 0) recordedCalls).2.operations.find? 3 =
      some ⟨3, 7, .issue .tunnel, 0, .receipt 3 3600000, 60⟩ := by
    decide +kernel
  have hr : (runOf (fun _ => 0) recordedCalls).2.installations.find? 7 =
      some recordedRow := by
    decide +kernel
  generalize (runOf (fun _ => 0) recordedCalls).2 = db at hrun ho hr ⊢
  exact ⟨exec_allocate_live hrun ho hr .default 70 8 1, hrun, recordedBy_recordedCalls, rfl⟩

end BloomRelay.Store
