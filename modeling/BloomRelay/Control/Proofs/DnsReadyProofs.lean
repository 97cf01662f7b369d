import BloomRelay.Control.Proofs.ReadinessProofs

/-!
# Which account a ready name authorises

An attempt publishes the account it read at its start and declares the name ready at its end. The
lock of the installation keeps the placement in between, but `register_acme_account` does not take it:
an account bound under a running attempt is declared ready although DNS authorises the one before.
-/

namespace BloomRelay.Control

open Protocol Store Dns

variable {cfg : DnsConfig} {g g' : Workers} {action : DnsAction} {k : Nat} {a a' : Attempt}
  {tr : List (Event Workers DnsAction)} {e : Event Workers DnsAction} {records : NameRecords}

/-- The step is the `mark_dns_ready` of attempt `k`, which has published `records`, and it moves the
installation from pending to ready; `r` is the row it leaves. -/
structure DeclaresReady (e : Event Workers DnsAction) (k : Nat) (a : Attempt) (records : NameRecords)
    (r : Installation) : Prop where
  label : ∃ now acknowledged, e.label = .attempt k (.mark now acknowledged)
  attempt : e.src.attempts k = some a
  work : a.pc = .mark (.publishName records)
  before : ∃ r₀, e.src.db.installations.find? a.job.installationId = some r₀ ∧
    r₀.state = .pendingDns
  after : e.dst.db.installations.find? a.job.installationId = some r ∧ r.state = .dnsReady

/-- The step binds no installation to another account than the one an attempt is publishing for it. -/
def KeepsAccounts (cfg : DnsConfig) (e : Event Workers DnsAction) : Prop :=
  ∀ call uri k a records, e.label = .store call → (call.exec cfg.sha256 e.src.db).toBool = true →
    e.src.attempts k = some a → call.op = .registerAcmeAccount a.job.installationId uri →
    a.pc.work? = some (.publishName records) → uri = records.acmeAccountUri

/-- The records are those of the account that is bound. -/
def Names (v : View) (a : Attempt) : Prop :=
  ∀ records, a.pc.work? = some (.publishName records) → records.addresses = a.worker.ingress ∧
    ∃ r, v.row = some r ∧ r.acmeAccountUri = some records.acmeAccountUri

theorem account_of_identity {db : Db} {i : Uuid} {hostname uri placement : String}
    (h : dnsIdentity db i = some (hostname, uri, placement)) :
    ∃ r, (db.view i).row = some r ∧ r.acmeAccountUri = some uri := by
  unfold dnsIdentity at h
  split at h
  · cases h
  · rename_i r hr
    split_ifs at h
    obtain ⟨uri', huri, heq⟩ := Option.map_eq_some_iff.mp h
    simp only [Prod.mk.injEq] at heq
    exact ⟨r, hr, huri.trans (congrArg some heq.2.1)⟩

theorem Names.progress {db db' : Db} {act : AttemptAction}
    (h : Names (db.view a.job.installationId) a) (hp : Progress cfg db a act a' db') :
    Names (db'.view a'.job.installationId) a' := by
  cases hp with
  | read _ hpc hread =>
    cases hread with
    | publish hkind hostname uri hid =>
      rintro records ⟨⟩
      exact ⟨rfl, account_of_identity hid⟩
    | outside | unpublished | elsewhere | unretired | reconcile | removeRecords | removeTxtAll =>
      rintro records ⟨⟩
  | target hostname hpc => rintro records ⟨⟩
  | start w hpc | apply w applied hpc | accepted w hpc =>
    have hw : a.pc.work? = some w := by rw [hpc]; rfl
    rintro records ⟨⟩
    exact h records hw
  | refused | mark | fail => rintro records ⟨⟩
  | observe w visible hpc =>
    have hw : a.pc.work? = some w := by rw [hpc]; rfl
    intro records hrecords
    replace hrecords : (observed a.job.installationId w visible).work? =
      some (.publishName records) := hrecords
    unfold observed at hrecords
    split_ifs at hrecords
    · exact h records (hw.trans hrecords)
    · cases hrecords
    · cases hrecords

/-- In a run whose steps keep accounts, the records of every attempt are those of the bound account. -/
theorem names_of_run (h : DnsRun cfg tr g) (hkeeps : ∀ e ∈ tr, KeepsAccounts cfg e) :
    ∀ k a, g.attempts k = some a → Names (g.db.view a.job.installationId) a := by
  induction h with
  | refl =>
    intro k a ha
    cases ha
  | snoc hrun hs ih =>
    rename_i g action g' tr
    have hbefore := ih fun e he => hkeeps e (List.mem_cons_of_mem _ he)
    have hkeep : KeepsAccounts cfg ⟨_, _, _⟩ := hkeeps _ List.mem_cons_self
    have hm := dnsMoves_of_step hs
    intro k a ha
    cases hm.came ha with
    | stayed ha₀ hother =>
      intro records hw
      obtain ⟨haddr, r, hr, huri⟩ := hbefore k a ha₀ records hw
      obtain ⟨c, hlife, -, hbound⟩ := hm.beside (Locked.run hrun) ha₀ (work_past_lock hw) hother
      obtain ⟨r', hr', heq | ⟨uri, hc, heq⟩⟩ := hlife.account hr
      · exact ⟨haddr, r', hr', heq.trans huri⟩
      · obtain ⟨call, hlabel, hop, hexec⟩ := hbound uri hc
        have hsame := hkeep call uri k a records hlabel hexec ha₀ hop hw
        exact ⟨haddr, r', hr', hsame ▸ heq⟩
    | claimed worker now o hk ho hclaim heq hdb =>
      subst heq
      rintro records ⟨⟩
    | locked a₀ ha₀ hpc heq hdb =>
      subst heq
      rintro records ⟨⟩
    | progressed a₀ act ha₀ hact hp => exact (hbefore k a₀ ha₀).progress hp

/-- The database after `mark_dns_ready`. -/
theorem db_of_mark {now : Time} {acknowledged : Bool}
    (h : DnsStep cfg g (.attempt k (.mark now acknowledged)) g') (ha : g.attempts k = some a)
    (hpc : a.pc = .mark (.publishName records)) :
    g'.db = (workerCall cfg now (.markDnsReady a.job.installationId)).after cfg.sha256 g.db := by
  simp only [DnsStep, Workers.step, ha, Option.bind_some, attemptStep, hpc, Work.markOp?,
    Option.map_some, Option.some.injEq] at h
  rw [← h]
  rfl

/-- `mark_dns_ready` keeps the account and the placement. -/
theorem row_of_mark {call : Call} {db : Db} {i : Uuid} {r r' : Installation}
    (hop : call.op = .markDnsReady i) (hr : db.installations.find? i = some r)
    (hstate : r.state ≠ .retired) (hr' : (call.after cfg.sha256 db).installations.find? i = some r') :
    r'.acmeAccountUri = r.acmeAccountUri ∧ r'.placement = r.placement ∧ r'.hostname = r.hostname := by
  have hlife : LifeStep i (db.view i) (call.change cfg.sha256 db i)
      ((call.after cfg.sha256 db).view i) := life_step call db i
  have hby := call_changedBy cfg.sha256 call db i
  rw [hop] at hby
  generalize call.change cfg.sha256 db i = c at hlife hby
  cases hby
  obtain ⟨r₁, hr₁, -, hname, hplace⟩ := hlife.unretired nofun hr hstate
  obtain rfl : r₁ = r' := Option.some.inj (hr₁.symm.trans hr')
  obtain ⟨r₂, hr₂, huri | ⟨uri, hbound, -⟩⟩ := hlife.account hr
  · obtain rfl : r₂ = r₁ := Option.some.inj (hr₂.symm.trans hr')
    exact ⟨huri, hplace nofun, hname⟩
  · cases hbound

/-- **A ready name is that of the observed account.** In every run in which no account is bound under an
attempt that publishes another one, an attempt that declares a name ready has published and then seen
records of exactly the account and the placement that are stored at that moment. -/
theorem dns_ready_identity (h : DnsRun cfg tr g) (hkeeps : ∀ e ∈ tr, KeepsAccounts cfg e)
    {later earlier : List (Event Workers DnsAction)} (htr : tr = later ++ e :: earlier)
    {r : Installation} (hready : DeclaresReady e k a records r) :
    r.acmeAccountUri = some records.acmeAccountUri ∧ r.placement = a.worker.placement ∧
      r.hostname = records.hostname ∧ records.addresses = a.worker.ingress ∧
      Visible k a.job (.publishName records) earlier := by
  subst htr
  obtain ⟨g₀, action, g₁⟩ := e
  obtain ⟨hrun, hstep, -⟩ := h.split
  have hnames := names_of_run hrun fun e' he' =>
    hkeeps e' (List.mem_append_right _ (List.mem_cons_of_mem _ he'))
  have hw : a.pc.work? = some (.publishName records) := by rw [hready.work]; rfl
  obtain ⟨haddr, r₀, hr₀, huri⟩ := hnames k a hready.attempt records hw
  obtain ⟨r₁, hr₁, hstate, hname, hplace⟩ := (Relies.run hrun k a hready.attempt).work _ hw
  obtain rfl : r₀ = r₁ := Option.some.inj (hr₀.symm.trans hr₁)
  obtain ⟨now, acknowledged, rfl⟩ := hready.label
  have hdb := db_of_mark hstep hready.attempt hready.work
  have hafter := hready.after.1
  rw [hdb] at hafter
  obtain ⟨hsame, hsame', hsame''⟩ := row_of_mark rfl hr₀ hstate hafter
  exact ⟨hsame.trans huri, hsame'.trans hplace, hsame''.trans hname, haddr,
    (Backed.run hrun k a hready.attempt).seen _ hready.work⟩

/-! ## An account bound under a running attempt -/

/-- The attempt of the worker up to its `mark_dns_ready`. -/
def observedActions : List DnsAction :=
  [.claim 0 edgeWorker 20, .attempt 0 .lock, .attempt 0 .read, .attempt 0 .start, .attempt 0 .apply,
    .attempt 0 (.answer true), .attempt 0 (.observe true)]

/-- The installation is allocated and bound to its first account. -/
def boundActions : List DnsAction :=
  [.store ⟨.default, 0, .allocate 1 5 "edge-1" 7 9⟩,
    .store ⟨.default, 10, .registerAcmeAccount 7 accountUri⟩]

def nextAccountUri : String := "https://acme-v02.api.letsencrypt.org/acme/acct/2"

def observedRecords : NameRecords := ⟨allocatedHostname 9, [.v4 1], accountUri⟩

def observedAttempt : Attempt :=
  ⟨edgeWorker, ⟨1, 7, .publishName, [("hostname", allocatedHostname 9), ("placement", "edge-1")]⟩,
    some (some (allocatedHostname 9, accountUri, "edge-1")), none, .mark (.publishName observedRecords)⟩

/-- What the last step of an attempt starts from and leaves. -/
structure Declared where
  attempt : Option Attempt
  before : Option Installation
  after : Option (Option Installation)
  deriving DecidableEq

def declared (g : Workers) : Declared where
  attempt := g.attempts 0
  before := g.db.installations.find? 7
  after := (g.step edgeDns (.attempt 0 (.mark 30 true))).map fun g' => g'.db.installations.find? 7

/-- The installation with an account, in a state. -/
def edgeRow (state : AllocationState) (uri : String) : Installation :=
  ⟨7, allocatedHostname 9, 5, "edge-1", 1, state, some uri, 0, none⟩

/-- The last step of the attempt declares the name ready. -/
theorem declaresReady_of_declared {uri : String}
    (h : declared g = ⟨some observedAttempt, some (edgeRow .pendingDns uri),
      some (some (edgeRow .dnsReady uri))⟩) :
    ∃ g', DnsStep edgeDns g (.attempt 0 (.mark 30 true)) g' ∧
      DeclaresReady ⟨g, .attempt 0 (.mark 30 true), g'⟩ 0 observedAttempt observedRecords
        (edgeRow .dnsReady uri) := by
  obtain ⟨hattempt, hbefore, hafter⟩ := Declared.mk.inj h
  obtain ⟨g', hstep, hrow⟩ := Option.map_eq_some_iff.1 hafter
  exact ⟨g', hstep, ⟨30, true, rfl⟩, hattempt, rfl, ⟨_, hbefore, rfl⟩, hrow, rfl⟩

/-- The installation is bound to another account after the records were observed and before they are
declared ready: the declared name authorises the first account, the stored one is the second. -/
theorem dns_ready_other_account :
    ∃ tr g e, DnsRun edgeDns (e :: tr) g ∧
      DeclaresReady e 0 observedAttempt observedRecords (edgeRow .dnsReady nextAccountUri) ∧
      (edgeRow .dnsReady nextAccountUri).acmeAccountUri ≠ some observedRecords.acmeAccountUri := by
  have hplay : ((Run.play (Workers.step edgeDns) (Workers.start .migrated) (boundActions ++
      observedActions ++ [.store ⟨.default, 25, .registerAcmeAccount 7 nextAccountUri⟩])).map
      declared) = some ⟨some observedAttempt, some (edgeRow .pendingDns nextAccountUri),
        some (some (edgeRow .dnsReady nextAccountUri))⟩ := by decide +kernel
  obtain ⟨g, hg, hdeclared⟩ := Option.map_eq_some_iff.1 hplay
  obtain ⟨tr, hrun, -⟩ := Run.of_play hg
  obtain ⟨g', hstep, hready⟩ := declaresReady_of_declared hdeclared
  exact ⟨tr, g', _, hrun.snoc hstep, hready, by decide⟩

/-- A worker's own steps bind no account. -/
theorem keepsAccounts_of_label (h : ∀ call, e.label ≠ .store call) : KeepsAccounts cfg e := by
  intro call uri k a records hlabel
  exact absurd hlabel (h call)

/-- Before the first claim any calls of others can be made. -/
theorem run_of_calls (cfg : DnsConfig) (calls : List Call)
    (h : ∀ call ∈ calls, byWorker call.op = false) :
    ∃ tr, DnsRun cfg tr (Workers.start (runOf cfg.sha256 calls).2) ∧
      ∀ e ∈ tr, ∀ k, e.src.attempts k = none := by
  induction calls with
  | nil => exact ⟨[], .refl, fun _ he => absurd he List.not_mem_nil⟩
  | cons call earlier ih =>
    obtain ⟨tr, hrun, hidle⟩ := ih fun c hc => h c (List.mem_cons_of_mem _ hc)
    have hstep : DnsStep cfg (Workers.start (runOf cfg.sha256 earlier).2) (.store call)
        (Workers.start (runOf cfg.sha256 (call :: earlier)).2) := by
      have hfree : (lockedInstallation? call.op).all
          ((Workers.start (runOf cfg.sha256 earlier).2).unlocked cfg) = true := by
        cases lockedInstallation? call.op <;> rfl
      simp only [DnsStep, Workers.step, h call List.mem_cons_self, hfree, and_self, if_true]
      rfl
    refine ⟨_, hrun.snoc hstep, fun e he k => ?_⟩
    rcases List.mem_cons.mp he with rfl | he
    · rfl
    · exact hidle e he k

/-- An installation that is allocated and bound to its account, the latest call first. -/
def boundCalls : List Call :=
  [⟨.default, 10, .registerAcmeAccount 7 accountUri⟩, ⟨.default, 0, .allocate 1 5 "edge-1" 7 9⟩]

theorem dns_ready_identity_observed :
    ∃ tr g e, DnsRun edgeDns (e :: tr) g ∧
      DeclaresReady e 0 observedAttempt observedRecords (edgeRow .dnsReady accountUri) ∧
      Visible 0 observedAttempt.job (.publishName observedRecords) tr := by
  obtain ⟨tr₁, hrun₁, hidle⟩ := run_of_calls edgeDns boundCalls (by decide)
  have hplay : ((Run.play (Workers.step edgeDns) (Workers.start (runOf (fun _ => 0) boundCalls).2)
      observedActions).map declared) = some ⟨some observedAttempt,
        some (edgeRow .pendingDns accountUri), some (some (edgeRow .dnsReady accountUri))⟩ := by
    decide +kernel
  obtain ⟨g, hg, hdeclared⟩ := Option.map_eq_some_iff.1 hplay
  obtain ⟨tr₂, hrun₂, hlabels⟩ := Run.of_play hg
  obtain ⟨g', hstep, hready⟩ := declaresReady_of_declared hdeclared
  have hrun := hrun₁.trans hrun₂
  have hkeeps : ∀ e ∈ tr₂ ++ tr₁, KeepsAccounts edgeDns e := by
    intro e he
    rcases List.mem_append.mp he with he | he
    · refine keepsAccounts_of_label fun call hcall => ?_
      have hmem := hlabels e he
      rw [hcall] at hmem
      simp [observedActions] at hmem
    · intro call uri k a records _ _ ha
      rw [hidle e he k] at ha
      cases ha
  have hlast : KeepsAccounts edgeDns ⟨g, .attempt 0 (.mark 30 true), g'⟩ :=
    keepsAccounts_of_label nofun
  have hall : ∀ e ∈ ⟨g, .attempt 0 (.mark 30 true), g'⟩ :: (tr₂ ++ tr₁), KeepsAccounts edgeDns e := by
    intro e he
    rcases List.mem_cons.mp he with rfl | he
    · exact hlast
    · exact hkeeps e he
  have hident := dns_ready_identity (hrun.snoc hstep) hall (List.nil_append _).symm hready
  exact ⟨_, g', _, hrun.snoc hstep, hready, hident.2.2.2.2⟩

end BloomRelay.Control
