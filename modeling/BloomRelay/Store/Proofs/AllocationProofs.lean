import BloomRelay.Store.Proofs.ReplayProofs
import Mathlib.Algebra.BigOperators.Group.List.Basic

/-!
# Repeated allocations

Under one operation ID one installation and one hostname are created at most, and the record never
leads to another installation. A repeated call is answered from the row of that installation, and so
only as long as the installation is where it was allocated.
-/

namespace BloomRelay.Store

open Protocol Checked

variable {sha256 : Bytes → Bytes32} {store : StoreConfig} {db db' : Db} {now : Time}
  {operationId id : Uuid} {key : Bytes32} {placement name : String} {random : BitVec 128}
  {s s' : Overlap} {a : OverlapAction} {tr : List (Event Overlap OverlapAction)} {call : Call}

/-! ## One installation for an operation ID -/

/-- By how much a count of rows grows in a step, if it is one of a call with the operation ID. -/
def growth (count : Db → Nat) (operationId : Uuid) (e : Event Overlap OverlapAction) : Nat :=
  if (e.src.call? e.label).bind (·.op.operationId?) = some operationId then
    count e.dst.db - count e.src.db
  else 0

/-- How many installations the step creates under the operation ID. -/
def installationsCreated : Uuid → Event Overlap OverlapAction → Nat :=
  growth fun db => db.installations.rows.length

/-- How many hostnames it reserves. -/
def hostnamesReserved : Uuid → Event Overlap OverlapAction → Nat :=
  growth fun db => db.hostnameReservations.rows.length

theorem SameNames.length_eq (h : SameNames db db') :
    db'.installations.rows.length = db.installations.rows.length := by
  have hlength := congrArg List.length h.names
  rwa [Db.names, Db.names, List.length_map, List.length_map] at hlength

/-- A call adds one installation and one reservation at most. -/
theorem rows_after_le (call : Call) (db : Db) :
    (call.after sha256 db).installations.rows.length ≤ db.installations.rows.length + 1 ∧
      (call.after sha256 db).hostnameReservations.rows.length ≤
        db.hostnameReservations.rows.length + 1 := by
  obtain hsame | ⟨row, res, hnew⟩ := (call_effect sha256 call db).names
  · rw [hsame.length_eq, hsame.reservations]
    exact ⟨Nat.le_succ _, Nat.le_succ _⟩
  · have hres := ((db.hostnameReservations.insert?_eq_some_iff).mp hnew.reserved).2
    rw [hnew.rows, hres, List.length_append, List.length_append]
    exact ⟨le_rfl, le_rfl⟩

theorem rows_le_of_step {e : Event Overlap OverlapAction} (h : Started sha256 e.src)
    (hs : OverlapStep sha256 e.src e.label e.dst) :
    e.dst.db.installations.rows.length ≤ e.src.db.installations.rows.length + 1 ∧
      e.dst.db.hostnameReservations.rows.length ≤ e.src.db.hostnameReservations.rows.length + 1 := by
  obtain heq | ⟨call, reply, -, hexec⟩ := overlapStep_db h hs
  · rw [heq]
    exact ⟨Nat.le_succ _, Nat.le_succ _⟩
  · rw [← after_of_exec hexec]
    exact rows_after_le call e.src.db

/-- A number that is at most one where `p` holds and zero elsewhere adds up to at most the count. -/
theorem sum_le_countP {α : Type} {p : α → Bool} {f : α → Nat} {l : List α}
    (h : ∀ x ∈ l, f x ≤ if p x then 1 else 0) : (l.map f).sum ≤ l.countP p := by
  induction l with
  | nil => exact le_rfl
  | cons x l ih =>
    have hx := h x List.mem_cons_self
    have hl := ih fun y hy => h y (List.mem_cons_of_mem x hy)
    rw [List.map_cons, List.sum_cons, List.countP_cons]
    omega

theorem started_of_mem (h : OverlapRun sha256 tr s) {e : Event Overlap OverlapAction} (he : e ∈ tr) :
    Started sha256 e.src ∧ OverlapStep sha256 e.src e.label e.dst := by
  obtain ⟨later, earlier, rfl⟩ := List.append_of_mem he
  obtain ⟨hearlier, hs, -⟩ := h.split
  exact ⟨started_of_run hearlier, hs⟩

theorem growth_le {count : Db → Nat} {e : Event Overlap OverlapAction}
    (hle : count e.dst.db ≤ count e.src.db + 1) :
    growth count operationId e ≤ if Applies operationId e then 1 else 0 := by
  unfold growth
  by_cases hid : (e.src.call? e.label).bind (·.op.operationId?) = some operationId
  · rw [if_pos hid]
    by_cases hdb : e.dst.db = e.src.db
    · rw [hdb, Nat.sub_self]
      exact Nat.zero_le _
    · have happlies : Applies operationId e = true := decide_eq_true ⟨hid, hdb⟩
      rw [if_pos happlies]
      omega
  · rw [if_neg hid]
    exact Nat.zero_le _

/-- What grows by one row in a step at most grows by one row in all under an operation ID. -/
theorem sum_growth_le {count : Db → Nat} (h : OverlapRun sha256 tr s) (operationId : Uuid)
    (hle : ∀ e ∈ tr, count e.dst.db ≤ count e.src.db + 1) :
    (tr.map (growth count operationId)).sum ≤ 1 := by
  have honce : tr.countP (Applies operationId) ≤ 1 := (applies_once h).1
  have hsum : (tr.map (growth count operationId)).sum ≤ tr.countP (Applies operationId) :=
    sum_le_countP fun e he => growth_le (hle e he)
  exact hsum.trans honce

/-! ## The installation of an operation ID -/

/-- The record under the operation ID leads to installation `id`, with its admin key and hostname. -/
structure LeadsTo (db : Db) (operationId id : Uuid) (key : Bytes32) (name : String) : Prop where
  record : ∃ o, db.operations.find? operationId = some o ∧ o.installationId = id
  row : ∃ row, db.installations.find? id = some row ∧ row.adminPublicKey = key ∧ row.hostname = name

theorem LeadsTo.after (h : LeadsTo db operationId id key name) (call : Call) :
    LeadsTo (call.after sha256 db) operationId id key name := by
  obtain ⟨⟨o, ho, hid⟩, row, hrow, hkey, hname⟩ := h
  have hview : (db.view id).row = some row := hrow
  have hstep : LifeStep id (db.view id) (call.change sha256 db id)
      ((call.after sha256 db).view id) := life_step call db id
  obtain ⟨row', hrow', hname', hkey'⟩ := hstep.named hview
  exact ⟨⟨o, (call_records call db).find ho, hid⟩, row', hrow', hkey'.trans hkey,
    hname'.trans hname⟩

theorem LeadsTo.step (h : LeadsTo s.db operationId id key name) (hstarted : Started sha256 s)
    (hs : OverlapStep sha256 s a s') : LeadsTo s'.db operationId id key name := by
  obtain heq | ⟨call, reply, -, hexec⟩ := overlapStep_db hstarted hs
  · rw [heq]
    exact h
  · rw [← after_of_exec hexec]
    exact h.after call

theorem allocateTx_allocation {alloc : Allocation}
    (h : allocateTx db now operationId key placement id random = .ok (alloc, db')) :
    alloc = (allocatedInstallation now key placement id random).allocation ∧
      LeadsTo db' operationId id key (allocatedHostname random) := by
  have hrecord := Table.find?_insert?_self (allocateTx_records h)
  simp only [allocateTx, bind_eq_ok, Except.ok.injEq, Prod.mk.injEq] at h
  obtain ⟨db₁, hinst, db₂, hres, db₃, hop, rfl, rfl⟩ := h
  obtain ⟨-, t, hins, rfl⟩ := insertInstallation_ok hinst
  obtain ⟨_, -, rfl⟩ := insertReservation_ok hres
  obtain ⟨_, -, rfl⟩ := insertOperation_ok hop
  have hrow : t.find? id = some (allocatedInstallation now key placement id random) :=
    Table.find?_insert?_self hins
  exact ⟨rfl, ⟨_, hrecord, rfl⟩, _, hrow, rfl, rfl⟩

theorem lookup_allocate {reply : Reply}
    (h : (StoreOp.allocate operationId key placement id random).lookup sha256 now db =
      .ok (some reply)) :
    ∃ row : Installation, reply = .allocation row.allocation ∧ row.placement = placement ∧
      LeadsTo db operationId row.installationId key row.hostname := by
  obtain ⟨_, -, h⟩ := bind_eq_ok.mp h
  obtain ⟨row, hrow, h⟩ := recordedReply_eq_ok.mp h
  obtain ⟨o, ho, hrow⟩ := Option.bind_eq_some_iff.mp hrow
  obtain ⟨_, hreplay, hreply⟩ := bind_eq_ok.mp h
  obtain ⟨⟨hkey, hplacement⟩, rfl⟩ := allocateReplay_eq_ok.mp hreplay
  have hid : row.installationId = o.installationId := db.installations.find?_key hrow
  cases hreply
  rw [← hid] at hrow
  exact ⟨row, rfl, hplacement, ⟨o, ho, hid.symm⟩, row, hrow, hkey, rfl⟩

/-- What a successful allocation has answered holds from then on. -/
theorem leadsTo_of_answered (h : OverlapRun sha256 tr s) {e : Event Overlap OverlapAction}
    (he : e ∈ tr) {reply : Reply} (hans : e.src.answer? sha256 e.label = some (call, .ok reply))
    (hop : call.op = .allocate operationId key placement id random) :
    ∃ alloc, reply = .allocation alloc ∧ placementOk placement = true ∧
      LeadsTo s.db operationId alloc.installationId key alloc.hostname := by
  obtain ⟨later, earlier, rfl⟩ := List.append_of_mem he
  obtain ⟨hearlier, hs, hlater⟩ := h.split
  have hrun : OverlapRun sha256 (e :: earlier) e.dst := hearlier.snoc hs
  have hdst : ∃ alloc, reply = .allocation alloc ∧ placementOk placement = true ∧
      LeadsTo e.dst.db operationId alloc.installationId key alloc.hostname := by
    obtain ⟨hlookup, heq⟩ | ⟨now, db, hstart, hbody⟩ :=
      answered_cases (started_of_run hearlier) hs hans
    · rw [hop] at hlookup
      obtain ⟨row, rfl, hplacement, hleads⟩ := lookup_allocate hlookup
      simp only [StoreOp.lookup, bind_eq_ok, require_eq_ok] at hlookup
      obtain ⟨_, hok, -⟩ := hlookup
      rw [heq]
      exact ⟨_, rfl, hok, hleads⟩
    · rw [hop] at hstart hbody
      obtain ⟨alloc, htx, rfl⟩ := answer_ok.mp hbody
      obtain ⟨rfl, hleads⟩ := allocateTx_allocation htx
      simp only [StoreOp.lookup, bind_eq_ok, require_eq_ok] at hstart
      obtain ⟨_, hok, -⟩ := hstart
      exact ⟨_, rfl, hok, hleads⟩
  obtain ⟨alloc, hreply, hok, hleads⟩ := hdst
  have hboth : Started sha256 s ∧
      LeadsTo s.db operationId alloc.installationId key alloc.hostname := by
    refine hlater.state_invariant (fun s => Started sha256 s ∧
      LeadsTo s.db operationId alloc.installationId key alloc.hostname)
      ⟨started_of_run hrun, hleads⟩ ?_
    rintro t a u ⟨ht, hleads⟩ hs
    exact ⟨ht.step hs, hleads.step ht hs⟩
  exact ⟨alloc, hreply, hok, hboth.2⟩

/-- A repeated call is answered from the row, if it names the row's placement. -/
theorem lookup_of_leadsTo (h : LeadsTo db operationId id key name) (hok : placementOk placement = true)
    {row : Installation} (hrow : db.installations.find? id = some row) (id' : Uuid)
    (random : BitVec 128) :
    (StoreOp.allocate operationId key placement id' random).lookup sha256 now db =
      if row.placement = placement then .ok (some (.allocation row.allocation))
      else .error .conflict := by
  obtain ⟨⟨o, ho, hid⟩, row', hrow', hkey, -⟩ := h
  obtain rfl : row' = row := Option.some.inj (hrow'.symm.trans hrow)
  have hlive : db.allocated? operationId = some row' := by
    rw [Db.allocated?, ho, Option.bind_some, hid, hrow]
  have hvalid : require (placementOk placement = true) StoreError.invalidRequest = .ok () :=
    require_eq_ok.mpr hok
  simp only [StoreOp.lookup, hvalid, hlive, recordedReply]
  by_cases hplacement : row'.placement = placement
  · rw [if_pos hplacement]
    have hgranted : allocateReplay row' key placement = .ok row'.allocation :=
      allocateReplay_eq_ok.mpr ⟨⟨hkey, hplacement⟩, rfl⟩
    rw [hgranted]
    rfl
  · rw [if_neg hplacement]
    have hrefused : allocateReplay row' key placement = .error .conflict :=
      allocateReplay_eq_error.mpr ⟨fun h => hplacement h.2, rfl⟩
    rw [hrefused]
    rfl

/-- **Repeated allocations.** In every run of overlapping calls one installation and one hostname at
most are created under an operation ID. After an allocation has succeeded, its installation is still
there, and a repeated call, in one step or in two, gives that installation and its hostname and leaves
everything as it is exactly if the installation is at the placement of the call. -/
theorem allocation_retries (h : OverlapRun sha256 tr s) :
    (∀ operationId, (tr.map (installationsCreated operationId)).sum ≤ 1 ∧
      (tr.map (hostnamesReserved operationId)).sum ≤ 1) ∧
    ∀ e ∈ tr, ∀ call alloc operationId key placement id random,
      e.src.answer? sha256 e.label = some (call, .ok (.allocation alloc)) →
      call.op = .allocate operationId key placement id random →
      ∃ row, s.db.installations.find? alloc.installationId = some row ∧
        ∀ (call' : Call) id' random', call'.op = .allocate operationId key placement id' random' →
          ((∃ alloc', call'.exec sha256 s.db = .ok (.allocation alloc', s.db) ∧
              alloc'.installationId = alloc.installationId ∧ alloc'.hostname = alloc.hostname) ↔
            row.placement = placement) ∧
          ∀ k, s.calls k = none →
            ((∃ alloc', s.answer? sha256 (.start k call') = some (call', .ok (.allocation alloc')) ∧
                alloc'.installationId = alloc.installationId ∧ alloc'.hostname = alloc.hostname ∧
                s.step sha256 (.start k call') = some s) ↔
              row.placement = placement) := by
  constructor
  · intro operationId
    have hrows : ∀ e ∈ tr, _ := fun e he =>
      rows_le_of_step (started_of_mem h he).1 (started_of_mem h he).2
    exact ⟨sum_growth_le h operationId fun e he => (hrows e he).1,
      sum_growth_le h operationId fun e he => (hrows e he).2⟩
  · intro e he call alloc operationId key placement id random hans hop
    obtain ⟨alloc', heq, hok, hleads⟩ := leadsTo_of_answered h he hans hop
    cases heq
    obtain ⟨row, hrow, -, hname⟩ := hleads.row
    have hid : row.installationId = alloc.installationId := s.db.installations.find?_key hrow
    refine ⟨row, hrow, fun call' id' random' hop' => ?_⟩
    have hlookup : call'.op.lookup sha256 call'.now s.db =
        if row.placement = placement then .ok (some (.allocation row.allocation))
        else .error .conflict := by
      rw [hop']
      exact lookup_of_leadsTo hleads hok hrow id' random'
    by_cases hplacement : row.placement = placement
    · rw [if_pos hplacement] at hlookup
      obtain ⟨tr', hstore⟩ := storeRun_of_overlap h
      refine ⟨iff_of_true ?_ hplacement, fun k hk => iff_of_true ?_ hplacement⟩
      · exact ⟨row.allocation, exec_of_lookup (inRange_run hstore) hlookup, hid, hname⟩
      · refine ⟨row.allocation, ?_, hid, hname, ?_⟩
        · simp only [Overlap.answer?, hlookup]
        · simp only [Overlap.step, hk, hlookup]
    · rw [if_neg hplacement] at hlookup
      refine ⟨iff_of_false ?_ hplacement, fun k hk => iff_of_false ?_ hplacement⟩
      · rintro ⟨alloc', hexec, -⟩
        rw [exec_of_lookup_error hlookup] at hexec
        cases hexec
      · rintro ⟨alloc', hanswer, -⟩
        simp only [Overlap.answer?, hlookup] at hanswer
        cases hanswer

/-- An allocation as any process makes it, with an ID and a name of its own drawn. -/
def racedAllocate (id : Uuid) (random : BitVec 128) (now : Time) : Call :=
  ⟨.default, now, .allocate 1 5 "edge-1" id random⟩

/-- Two allocations pass their lookup and the first commits; a third is answered with its installation. -/
theorem allocation_retries_raced :
    ∃ tr s, OverlapRun (fun _ => 0) tr s ∧ (tr.map (installationsCreated 1)).sum ≤ 1 ∧
      ∃ alloc, (racedAllocate 11 13 50).exec (fun _ => 0) s.db = .ok (.allocation alloc, s.db) ∧
        alloc.installationId = 7 ∧ alloc.hostname = allocatedHostname 9 := by
  have hcommit : ((racedAllocate 7 9 10).commit (fun _ => 0) Overlap.start.db).map Prod.fst =
      .ok (.allocation (allocatedInstallation 10 5 "edge-1" 7 9).allocation) := by decide +kernel
  have hrow : ((racedAllocate 8 10 20).committed (fun _ => 0)
      ((racedAllocate 7 9 10).committed (fun _ => 0) Overlap.start.db)).installations.find? 7 =
      some (allocatedInstallation 10 5 "edge-1" 7 9) := by decide +kernel
  have hstart : OverlapRun (fun _ => 0) [] Overlap.start := .refl
  have hrun₁ := hstart.snoc (start_step (k := 0) (racedAllocate 7 9 10) rfl rfl)
  have hrun₂ := hrun₁.snoc (start_step (k := 1) (racedAllocate 8 10 20) rfl rfl)
  have hrun₃ := hrun₂.snoc (finish_step (k := 0) rfl)
  have hrun₄ := hrun₃.snoc (finish_step (k := 1) rfl)
  have hall := allocation_retries hrun₄
  obtain ⟨row, hfind, hretry⟩ := hall.2 _ (List.mem_cons_of_mem _ List.mem_cons_self)
    (racedAllocate 7 9 10) _ 1 5 "edge-1" 7 9
    (congrArg (fun r => some (racedAllocate 7 9 10, r)) hcommit) rfl
  obtain rfl : allocatedInstallation 10 5 "edge-1" 7 9 = row :=
    Option.some.inj (hrow.symm.trans hfind)
  obtain ⟨alloc, hexec, hid, hname⟩ := (hretry (racedAllocate 11 13 50) 11 13 rfl).1.mpr rfl
  exact ⟨_, _, hrun₄, (hall.1 1).1, alloc, hexec, hid, hname⟩

/-- After the installation has moved, the allocation that made it is refused. -/
theorem allocation_retry_refused :
    ∃ tr s, OverlapRun (fun _ => 0) tr s ∧
      (∃ e ∈ tr, ∃ alloc, e.src.answer? (fun _ => 0) e.label =
        some (racedAllocate 7 9 0, .ok (.allocation alloc))) ∧
      (racedAllocate 11 13 50).exec (fun _ => 0) s.db = .error .conflict := by
  have hfirst : ((racedAllocate 7 9 0).exec (fun _ => 0) Overlap.start.db).map Prod.fst =
      .ok (.allocation (allocatedInstallation 0 5 "edge-1" 7 9).allocation) := by decide +kernel
  have hrefused : (racedAllocate 11 13 50).exec (fun _ => 0) ((⟨.default, 40, .relocate 7 3 "edge-2"⟩ :
      Call).after (fun _ => 0) ((⟨.default, 30, .markDnsReady 7⟩ : Call).after (fun _ => 0)
        ((⟨.default, 20, .registerAcmeAccount 7
          "https://acme-v02.api.letsencrypt.org/acme/acct/1"⟩ : Call).after (fun _ => 0)
            ((racedAllocate 7 9 0).after (fun _ => 0) Overlap.start.db)))) =
      .error .conflict := by decide +kernel
  have hstart : OverlapRun (fun _ => 0) [] Overlap.start := .refl
  have hrun₁ := hstart.snoc (call_step (racedAllocate 7 9 0))
  have hrun₂ := hrun₁.snoc (call_step ⟨.default, 20, .registerAcmeAccount 7
    "https://acme-v02.api.letsencrypt.org/acme/acct/1"⟩)
  have hrun₃ := hrun₂.snoc (call_step ⟨.default, 30, .markDnsReady 7⟩)
  have hrun₄ := hrun₃.snoc (call_step ⟨.default, 40, .relocate 7 3 "edge-2"⟩)
  refine ⟨_, _, hrun₄, ⟨_, List.mem_cons_of_mem _ (List.mem_cons_of_mem _ (List.mem_cons_of_mem _
    List.mem_cons_self)), _, congrArg (fun r => some (racedAllocate 7 9 0, r)) hfirst⟩, hrefused⟩

end BloomRelay.Store
