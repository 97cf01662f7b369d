import BloomRelay.Store.Proofs.CredentialProofs
import BloomRelay.Store.Proofs.EffectProofs

/-!
# Retirement is terminal and complete

An administrator's `retire` cleans up after a ready installation; the sweep over pending allocations
deletes nothing. That both leave the same is due to what an installation that was never ready can
own: no lease (`Fenced.lease_none`) and no challenge value (`Retiring.values`). A retired row is never
written again, its name stays reserved, and each of the two removal jobs is queued exactly once.
-/

namespace BloomRelay.Store

open Protocol

variable {i : Uuid} {v v' : View} {c : Change}

/-! ## Over the life of one installation -/

def View.isRetired (v : View) : Bool := v.row.any fun r => r.state = .retired

theorem View.isRetired_of_row {r : Installation} (h : v.row = some r) :
    v.isRetired = decide (r.state = .retired) := by
  simp [View.isRetired, h]

theorem View.isRetired_iff : v.isRetired = true ↔ ∃ r, v.row = some r ∧ r.state = .retired := by
  unfold View.isRetired
  cases v.row <;> simp

/-- How many jobs of a kind were ever queued. -/
def View.queued (v : View) (kind : JobKind) : Nat := v.jobs.countP fun o => o.kind = kind

/-- A new job does not count among those of another kind. -/
theorem NewJob.queued_of_ne {o : OutboxRow} {kind kind' : JobKind} (ho : NewJob i kind' o)
    (hne : kind' ≠ kind) :
    (v.jobs ++ [o]).countP (fun o => o.kind = kind) = v.queued kind := by
  have hkind : o.kind ≠ kind := by
    rw [ho.2.1]
    exact hne
  simp [View.queued, hkind]

/-- The jobs that clean up after a retired installation. -/
def JobKind.isRemoval : JobKind → Bool
  | .removeRecords | .removeTxtAll => true
  | .publishName | .reconcileTxt => false

/-- Only a ready installation owns challenge values, and the removal jobs are queued when it
retires. -/
structure Retiring (v : View) : Prop where
  values : ∀ x ∈ v.values, ∃ r, v.row = some r ∧ r.state = .dnsReady
  removals : ∀ kind, kind.isRemoval = true → v.queued kind = if v.isRetired then 1 else 0

namespace Retiring

theorem migrated (i : Uuid) : Retiring (Db.migrated.view i) := by
  constructor
  · intro x hx
    cases hx
  · intro kind _
    rfl

theorem values_row (h : Retiring v) {r : Installation} (hrow : v.row = some r) :
    ∀ x ∈ v.values, r.state = .dnsReady := by
  intro x hx
  obtain ⟨r', hr', hstate⟩ := h.values x hx
  rw [hrow] at hr'
  cases hr'
  exact hstate

theorem values_nil (h : Retiring v) {r : Installation} (hrow : v.row = some r)
    (hstate : r.state ≠ .dnsReady) : v.values = [] :=
  List.eq_nil_iff_forall_not_mem.mpr fun x hx => hstate (h.values_row hrow x hx)

/-- A job of another kind does not count as a removal. -/
theorem queued_append {o : OutboxRow} {kind kind' : JobKind} (ho : NewJob i kind' o)
    (hkind : kind.isRemoval = true) (hkind' : kind'.isRemoval = false) :
    (v.jobs ++ [o]).countP (fun o => o.kind = kind) = v.queued kind := by
  refine ho.queued_of_ne ?_
  rintro rfl
  rw [hkind] at hkind'
  cases hkind'

/-- The two removal jobs count once each. -/
theorem queued_removal {o o' : OutboxRow} {kind : JobKind} (ho : NewJob i .removeRecords o)
    (ho' : NewJob i .removeTxtAll o') (hkind : kind.isRemoval = true) :
    (v.jobs ++ [o, o']).countP (fun o => o.kind = kind) = v.queued kind + 1 := by
  cases kind with
  | removeRecords | removeTxtAll => simp [View.queued, ho.2.1, ho'.2.1]
  | publishName | reconcileTxt => cases hkind

/-- A step that keeps the state of the installation and takes no value from nowhere. -/
theorem keep (h : Retiring v) (hret : v'.isRetired = v.isRetired)
    (hvalues : ∀ x ∈ v'.values, ∃ r, v'.row = some r ∧ r.state = .dnsReady)
    (hjobs : ∀ kind, kind.isRemoval = true → v'.queued kind = v.queued kind) : Retiring v' := by
  refine ⟨hvalues, fun kind hkind => ?_⟩
  rw [hjobs kind hkind, hret]
  exact h.removals kind hkind

/-- A retirement: nothing was queued before, and both jobs are now. -/
theorem retire (h : Retiring v) {r : Installation} (hrow : v.row = some r)
    (hstate : r.state ≠ .retired) {o o' : OutboxRow} (ho : NewJob i .removeRecords o)
    (ho' : NewJob i .removeTxtAll o') (now : Time) (lease : Option TunnelLease) :
    Retiring { v with
      row := some (r.retire now), lease, values := [], jobs := v.jobs ++ [o, o'] } := by
  refine ⟨fun x hx => (List.not_mem_nil hx).elim, fun kind hkind => ?_⟩
  have hzero := h.removals kind hkind
  rw [View.isRetired_of_row hrow] at hzero
  simp only [hstate, decide_false, Bool.false_eq_true, if_false] at hzero
  show (v.jobs ++ [o, o']).countP (fun o => o.kind = kind) = _
  rw [queued_removal ho ho' hkind, hzero]
  rfl

/-- Every step keeps the invariant. -/
theorem step (h : Retiring v) (hs : LifeStep i v c v') : Retiring v' := by
  cases hs with
  | same => exact h
  | allocated r o hrow _ hstate _ _ ho =>
    refine h.keep ?_ ?_ fun kind hk => queued_append ho hk rfl
    · simp [View.isRetired, hrow, hstate]
    · intro x hx
      obtain ⟨r', hr', -⟩ := h.values x hx
      rw [hrow] at hr'
      cases hr'
  | issued r now c hrow | renewed r now old c hrow | claimed r l hrow =>
    have hready := h.values_row hrow
    refine h.keep ?_ (fun x hx => ⟨r.bump, rfl, hready x hx⟩) fun _ _ => rfl
    rw [View.isRetired_of_row hrow]
    rfl
  | acmeBound r uri o hrow hstate ho =>
    have hready := h.values_row hrow
    refine h.keep ?_ (fun x hx => ⟨_, rfl, hready x hx⟩)
      fun kind hk => queued_append ho hk rfl
    rw [View.isRetired_of_row hrow]
    rfl
  | dnsReady r hrow hstate =>
    refine h.keep ?_ (fun x hx => ⟨_, rfl, rfl⟩) fun _ _ => rfl
    simp [View.isRetired, hrow, hstate]
  | leaseRenewed | reconciled => exact h.keep rfl h.values fun _ _ => rfl
  | relocated r placement o hrow hstate _ ho =>
    refine h.keep ?_ (fun x hx => ⟨_, rfl, hstate⟩) fun kind hk => queued_append ho hk rfl
    rw [View.isRetired_of_row hrow]
    rfl
  | retired r now o o' hrow hstate ho ho' => exact h.retire hrow hstate ho ho' now none
  | expired r now o o' hrow hstate ho ho' =>
    have hnone : v.values = [] := h.values_nil hrow (by rw [hstate]; simp)
    have h' := h.retire hrow (by rw [hstate]; simp) ho ho' now v.lease
    rw [← hnone] at h'
    exact h'
  | refreshed r txt expiresAt hrow hstate =>
    exact h.keep rfl (fun x hx => ⟨r, hrow, hstate⟩) fun _ _ => rfl
  | valueAdded r now x o hrow hstate _ _ _ _ _ ho =>
    exact h.keep rfl (fun x hx => ⟨r, hrow, hstate⟩) fun kind hk => queued_append ho hk rfl
  | valuesLapsed now o _ ho =>
    exact h.keep rfl (fun x hx => h.values x (List.mem_of_mem_filter hx))
      fun kind hk => queued_append ho hk rfl
  | jobRecorded f hf =>
    refine h.keep rfl h.values fun kind _ => ?_
    show (v.jobs.map f).countP _ = _
    rw [List.countP_map]
    refine List.countP_congr fun o _ => ?_
    simp [(hf o).2.2]

theorem run {tr : List (Event View Change)} (h : LifeRun i tr v) : Retiring v :=
  h.state_invariant Retiring (migrated i) fun _ _ _ => step

end Retiring

/-- A retired row is never written again. -/
theorem LifeStep.row_of_retired (h : LifeStep i v c v') {r : Installation} (hrow : v.row = some r)
    (hret : r.state = .retired) : v'.row = some r := by
  have hno : ∀ {r' : Installation}, v.row = some r' → r'.state ≠ .retired → v'.row = some r := by
    intro r' hr' hstate
    rw [hrow] at hr'
    cases hr'
    exact absurd hret hstate
  cases h with
  | same | leaseRenewed | valuesLapsed | reconciled | jobRecorded | refreshed | valueAdded =>
    exact hrow
  | allocated r' o hnone =>
    rw [hrow] at hnone
    cases hnone
  | issued r' _ _ hr' hstate | acmeBound r' _ _ hr' hstate | retired r' _ _ _ hr' hstate =>
    exact hno hr' hstate
  | renewed r' _ _ _ hr' hstate | dnsReady r' hr' hstate | claimed r' _ hr' hstate
  | relocated r' _ _ hr' hstate | expired r' _ _ _ hr' hstate =>
    exact hno hr' (by rw [hstate]; simp)

theorem LifeStep.isRetired (h : LifeStep i v c v') (hret : v.isRetired = true) :
    v'.isRetired = true := by
  obtain ⟨r, hr, hstate⟩ := View.isRetired_iff.mp hret
  exact View.isRetired_iff.mpr ⟨r, h.row_of_retired hr hstate, hstate⟩

/-! ## Names -/

/-- Hostnames are unique, and each is reserved for its installation. -/
structure Named (db : Db) : Prop where
  hostname_nodup : (db.names.map (·.hostname)).Nodup
  reserved : ∀ n ∈ db.names, ∃ h, db.hostnameReservations.find? n.hostname = some h ∧
    h.installationId = n.installationId

section Database

variable {sha256 : Bytes → Bytes32} {db db' : Db} {tr later : List (Event Db Call)}

/-- A reservation is never dropped or rewritten. -/
theorem Effect.reservation {op : StoreOp} (h : Effect op db db') {hostname : String}
    {res : HostnameReservation} (hres : db.hostnameReservations.find? hostname = some res) :
    db'.hostnameReservations.find? hostname = some res := by
  obtain hsame | ⟨r, new, hnew⟩ := h.names
  · rw [hsame.reservations]
    exact hres
  · have hfree := ((Table.insert?_eq_some_iff _).mp hnew.reserved).1
    rw [Table.find?_insert?_ne hnew.reserved ?_]
    · exact hres
    · rintro rfl
      rw [hfree] at hres
      cases hres

theorem Named.step {op : StoreOp} (h : Named db) (he : Effect op db db') : Named db' := by
  obtain hsame | ⟨r, new, hnew⟩ := he.names
  · exact ⟨hsame.names ▸ h.hostname_nodup, by rw [hsame.names, hsame.reservations]; exact h.reserved⟩
  · have hnames : db'.names = db.names ++ [r.name] := by simp [Db.names, hnew.rows]
    constructor
    · rw [hnames, List.map_append, List.map_singleton]
      refine List.nodup_append.mpr ⟨h.hostname_nodup, List.nodup_singleton _, fun a ha b hb hab => ?_⟩
      obtain ⟨n, hn, rfl⟩ := List.mem_map.mp ha
      obtain ⟨x, hx, rfl⟩ := List.mem_map.mp hn
      rw [List.mem_singleton.mp hb] at hab
      exact hnew.fresh x hx hab
    · intro n hn
      rw [hnames] at hn
      rcases List.mem_append.mp hn with hn | hn
      · obtain ⟨res, hres, howner⟩ := h.reserved n hn
        exact ⟨res, he.reservation hres, howner⟩
      · rw [List.mem_singleton.mp hn]
        refine ⟨new, ?_, hnew.owner_eq⟩
        have hself := Table.find?_insert?_self hnew.reserved
        rw [hnew.hostname_eq] at hself
        exact hself

theorem Named.run (h : StoreRun sha256 tr db) : Named db := by
  refine h.state_invariant Named ?_ ?_
  · exact ⟨List.nodup_nil, fun n hn => (List.not_mem_nil hn).elim⟩
  · rintro db call _ hn rfl
    exact hn.step (call_effect sha256 call db)

/-- No two installations share a hostname. -/
theorem Named.owner (h : Named db) {r r' : Installation} (hr : r ∈ db.installations.rows)
    (hr' : r' ∈ db.installations.rows) (heq : r'.hostname = r.hostname) : r' = r := by
  have hnodup : (db.installations.rows.map (·.hostname)).Nodup := by
    have := h.hostname_nodup
    rw [Db.names, List.map_map] at this
    exact this
  exact List.inj_on_of_nodup_map hnodup hr' hr heq

/-! ## What a retired installation is refused -/

/-- Everything a gateway, a client or an administrator could still ask of installation `i`. -/
structure Refused (sha256 : Bytes → Bytes32) (db : Db) (i : Uuid) : Prop where
  authenticate : ∀ now scope bearer, authenticateBearer sha256 db now i scope bearer = none
  claim : ∀ now gatewayId ttl, (claimTunnel db now i gatewayId ttl).toBool = false
  current : ∀ now gatewayId g, tunnelIsCurrent db now i gatewayId g = false
  renewLease : ∀ now gatewayId g, (renewTunnel db now i gatewayId g).1 = false
  ensure : ∀ now g txt, (ensureChallengeValue db now i g txt).toBool = false
  ready : ∀ now txt revision, challengeValueReady db now i txt revision ≠ .ok true
  account : ∀ store now uri, (registerAcmeAccount store db now i uri).toBool = false
  certificate : ∀ now cert, (recordExpectedCertificate db now i cert).toBool = false
  issue : ∀ store now op scope hash validity, db.operations.find? op = none →
    (issueBearer sha256 store db now i op scope hash validity).toBool = false
  renew : ∀ store now op scope g token hash, db.operations.find? op = none →
    (renewBearer sha256 store db now i op scope g token hash).toBool = false
  relocate : ∀ now op placement, db.operations.find? op = none →
    (relocate sha256 db now i op placement).toBool = false

theorem toBool_eq_false {ε α : Type} {x : Except ε α} (h : ∀ a, x ≠ .ok a) : x.toBool = false := by
  cases x with
  | error e => rfl
  | ok a => exact absurd rfl (h a)

/-- A retired installation without lease and values is refused all of it. -/
theorem refused_of_retired {r : Installation} (hr : db.installations.find? i = some r)
    (hret : r.state = .retired) (hlease : db.tunnelLeases.find? i = none)
    (hvalues : valuesOf db i = []) : Refused sha256 db i := by
  have hcur : ∀ now gatewayId g, tunnelIsCurrent db now i gatewayId g = false := by
    intro now gatewayId g
    simp [tunnelIsCurrent, hlease]
  have hnot : ∀ {r' : Installation}, db.installations.find? i = some r' → r'.state ≠ .dnsReady ∧
      ¬ r'.state ≠ .retired := by
    intro r' hr'
    rw [hr] at hr'
    cases hr'
    rw [hret]
    exact ⟨by simp, by simp⟩
  refine ⟨?_, ?_, hcur, ?_, ?_, ?_, ?_, ?_, ?_, ?_, ?_⟩
  · intro now scope bearer
    refine Option.eq_none_iff_forall_ne_some.mpr fun g hg => ?_
    obtain ⟨s, r', -, hr', hstate, -⟩ := authenticateBearer_eq_some hg
    exact (hnot hr').1 hstate
  · intro now gatewayId ttl
    refine toBool_eq_false fun a ha => ?_
    obtain ⟨r', hr', hstate, -⟩ := claimTunnel_ok ha
    exact (hnot hr').1 hstate
  · intro now gatewayId g
    exact renewTunnel_of_not_current (hcur now gatewayId g)
  · intro now g txt
    refine toBool_eq_false fun a ha => ?_
    obtain ⟨-, -, r', hr', hstate, -⟩ := ensureChallengeValue_ok ha
    exact (hnot hr').1 hstate
  · intro now txt revision hready
    obtain ⟨v, hv, -⟩ := challengeValueReady_ok hready
    have hmem := mem_values_iff.mpr (liveValue_eq_some.mp hv).1
    rw [show (db.view i).values = valuesOf db i from rfl, hvalues] at hmem
    cases hmem.1
  · intro store now uri
    refine toBool_eq_false fun a ha => ?_
    obtain ⟨r', hr', hstate, -⟩ := registerAcmeAccount_ok ha
    exact (hnot hr').2 hstate
  · intro now cert
    refine toBool_eq_false fun a ha => ?_
    obtain ⟨r', hr', hstate, -⟩ := recordExpectedCertificate_ok ha
    exact (hnot hr').1 hstate
  · intro store now op scope hash validity hnew
    refine toBool_eq_false fun a ha => ?_
    obtain ⟨s, -, -, -, ⟨hold, -⟩ | ⟨-, htx⟩⟩ := issueBearer_ok ha
    · exact hold hnew
    · obtain ⟨r', hr', hstate, -⟩ := issueBearerTx_ok htx
      exact (hnot hr').2 hstate
  · intro store now op scope g token hash hnew
    refine toBool_eq_false fun a ha => ?_
    obtain ⟨s, -, -, ⟨hold, -⟩ | ⟨-, htx⟩⟩ := renewBearer_ok ha
    · exact hold hnew
    · obtain ⟨-, c, -, hcred, -⟩ := renewBearerTx_ok htx
      obtain ⟨r', hr', hstate, -⟩ := renewableCredential_eq_some hcred
      exact (hnot hr').1 hstate
  · intro now op placement hnew
    refine toBool_eq_false fun a ha => ?_
    obtain ⟨hold, -⟩ | ⟨-, -, r', hr', hstate, -⟩ := relocate_ok ha
    · exact hold hnew
    · exact (hnot hr').1 hstate

/-! ## In the database -/

/-- A retired row is the same row in every later state. -/
theorem retired_row_run {r : Installation} (hr : db.installations.find? i = some r)
    (hret : r.state = .retired) (h : Run (StoreStep sha256) db later db') :
    db'.installations.find? i = some r := by
  refine h.state_invariant (fun d => d.installations.find? i = some r) hr ?_
  rintro d call _ hd rfl
  exact (life_step call d i).row_of_retired hd hret

theorem reservation_run {hostname : String} {res : HostnameReservation}
    (hres : db.hostnameReservations.find? hostname = some res)
    (h : Run (StoreStep sha256) db later db') :
    db'.hostnameReservations.find? hostname = some res := by
  refine h.state_invariant (fun d => d.hostnameReservations.find? hostname = some res) hres ?_
  rintro d call _ hd rfl
  exact (call_effect sha256 call d).reservation hd

/-- How many jobs of a kind were ever queued for an installation: rows of the outbox are kept. -/
def Db.queued (db : Db) (i : Uuid) (kind : JobKind) : Nat :=
  db.outbox.countP fun o => o.installationId = i ∧ o.kind = kind

theorem queued_view (db : Db) (i : Uuid) (kind : JobKind) :
    (db.view i).queued kind = db.queued i kind := by
  simp only [View.queued, Db.view, Db.queued, List.countP_filter]
  refine List.countP_congr fun o _ => ?_
  simp [and_comm]

/-- **Retirement is terminal and complete.** From the moment an installation is retired, in every
later state: its row and its reservation are unchanged and its hostname belongs to no other
installation; it has no lease and no challenge value; everything that would let it serve again is
refused; and each removal job has been queued exactly once. -/
theorem retirement_terminal (h : StoreRun sha256 tr db) {i : Uuid} {r : Installation}
    (hr : db.installations.find? i = some r) (hret : r.state = .retired)
    (hlater : Run (StoreStep sha256) db later db') :
    db'.installations.find? i = some r ∧
    (∃ res, db.hostnameReservations.find? r.hostname = some res ∧ res.installationId = i ∧
      db'.hostnameReservations.find? r.hostname = some res) ∧
    (∀ r' ∈ db'.installations.rows, r'.hostname = r.hostname → r'.installationId = i) ∧
    db'.tunnelLeases.find? i = none ∧ valuesOf db' i = [] ∧ Refused sha256 db' i ∧
    db'.queued i .removeRecords = 1 ∧ db'.queued i .removeTxtAll = 1 := by
  have hrun := h.trans hlater
  have hr' := retired_row_run hr hret hlater
  have hid : r.installationId = i := db.installations.find?_key hr
  have hlife := life_run hrun i
  have hlease : db'.tunnelLeases.find? i = none :=
    (Fenced.run hlife).lease_none hr' (by rw [hret]; simp)
  have hvalues : valuesOf db' i = [] :=
    (Retiring.run hlife).values_nil hr' (by rw [hret]; simp)
  have hqueued : ∀ kind, kind.isRemoval = true → db'.queued i kind = 1 := by
    intro kind hkind
    rw [← queued_view, (Retiring.run hlife).removals kind hkind, View.isRetired_of_row hr', hret]
    rfl
  refine ⟨hr', ?_, ?_, hlease, hvalues, refused_of_retired hr' hret hlease hvalues,
    hqueued _ rfl, hqueued _ rfl⟩
  · have hmem : r.name ∈ db.names := List.mem_map_of_mem (db.installations.find?_mem hr)
    obtain ⟨res, hres, howner⟩ := (Named.run h).reserved r.name hmem
    exact ⟨res, hres, howner.trans hid, reservation_run hres hlater⟩
  · intro r' hmem heq
    rw [(Named.run hrun).owner (db'.installations.find?_mem hr') hmem heq]
    exact hid

/-- The claimed installation is retired by its administrator. -/
def retiredCalls : List Call := ⟨.default, 60, .retire 7 3⟩ :: claimedCalls

/-- It is retired once more, and its gateway tries to get the lease back. -/
theorem retirement_terminal_retired :
    ∃ later db', Run (StoreStep fun _ => 0) (runOf (fun _ => 0) retiredCalls).2 later db' ∧
      later.map (·.label) =
        [⟨.default, 80, .claimTunnel 7 "edge-1" 30⟩, ⟨.default, 70, .retire 7 4⟩] ∧
      valuesOf db' 7 = [] ∧ Refused (fun _ => 0) db' 7 ∧
      db'.queued 7 .removeRecords = 1 ∧ db'.queued 7 .removeTxtAll = 1 := by
  have hr : (runOf (fun _ => 0) retiredCalls).2.installations.find? 7 = some
      ⟨7, allocatedHostname 9, 5, "edge-1", 3, .retired,
        some "https://acme-v02.api.letsencrypt.org/acme/acct/1", 0, some 60⟩ := by
    decide +kernel
  have hrun := storeRun_runOf (fun _ => 0) retiredCalls
  generalize (runOf (fun _ => 0) retiredCalls).2 = db at hr hrun ⊢
  have hlater : Run (StoreStep fun _ => 0) db _ _ :=
    (Run.refl.snoc (l := ⟨.default, 70, .retire 7 4⟩) rfl).snoc
      (l := ⟨.default, 80, .claimTunnel 7 "edge-1" 30⟩) rfl
  exact ⟨_, _, hlater, rfl, (retirement_terminal hrun hr rfl hlater).2.2.2.2⟩

end Database

end BloomRelay.Store
