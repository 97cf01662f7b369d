import BloomRelay.Control.Proofs.WorkerProofs

/-!
# DNS writes follow the current authority

What an attempt read stays true while it holds the lock of its installation: the installation is where
the worker is and not retired, or it is retired, as the work needs it; and the challenge set it is
about to publish is the stored one unless the revision has moved on. So no call of a provider is made
for a placement that lost the installation or for records that were removed.
-/

namespace BloomRelay.Control

open Protocol Store Dns

variable {cfg : DnsConfig} {g g' : Workers} {action : DnsAction} {k k' : Nat} {a a' : Attempt}
  {tr : List (Event Workers DnsAction)} {worker : DnsWorker} {v v' : View} {i : Uuid} {c : Change}
  {w : Work} {hostname : String}

/-! ## What a work relies on -/

/-- The installation is published under `hostname` by workers of this placement. -/
def Serves (worker : DnsWorker) (v : View) (hostname : String) : Prop :=
  ∃ r, v.row = some r ∧ r.state ≠ .retired ∧ r.hostname = hostname ∧ r.placement = worker.placement

/-- The installation is retired, and `hostname` was its name. -/
def RetiredAs (v : View) (hostname : String) : Prop :=
  ∃ r, v.row = some r ∧ r.state = .retired ∧ r.hostname = hostname

/-- What a work relies on. The values of a reconciliation are the stored ones while the revision is
the one that was read, and no later revision is ready. -/
def Fits (worker : DnsWorker) (v : View) : Work → Prop
  | .publishName records => Serves worker v records.hostname
  | .reconcileTxt hostname revision values => Serves worker v hostname ∧ revision ≤ v.revision ∧
      (revision = v.revision → values = v.members) ∧ ∀ n, v.ready = some n → n ≤ revision
  | .removeRecords hostname | .removeTxtAll hostname => RetiredAs v hostname

theorem Serves.step (h : Serves worker v hostname) (hs : LifeStep i v c v')
    (hc : steers c = false) : Serves worker v' hostname := by
  obtain ⟨r, hr, hstate, hname, hplace⟩ := h
  have hret : c ≠ .retired := by
    rintro rfl
    cases hc
  obtain ⟨r', hr', hstate', hname', hplace'⟩ := hs.unretired hret hr hstate
  have hmoved : c ≠ .relocated := by
    rintro rfl
    cases hc
  exact ⟨r', hr', hstate', hname'.trans hname, (hplace' hmoved).trans hplace⟩

theorem RetiredAs.step (h : RetiredAs v hostname) (hs : LifeStep i v c v') :
    RetiredAs v' hostname := by
  obtain ⟨r, hr, hstate, hname⟩ := h
  exact ⟨r, hs.row_of_retired hr hstate, hstate, hname⟩

theorem Fits.step (h : Fits worker v w) (hv : Challenged v) (hs : LifeStep i v c v')
    (hc : steers c = false) : Fits worker v' w := by
  cases w with
  | publishName records => exact Serves.step h hs hc
  | reconcileTxt hostname revision values =>
    obtain ⟨hserves, hle, hvalues, hready⟩ := h
    have hret : c ≠ .retired := by
      rintro rfl
      cases hc
    have hrec : c ≠ .reconciled := by
      rintro rfl
      cases hc
    refine ⟨hserves.step hs hc, hle.trans hs.revision_le, fun heq => ?_, ?_⟩
    · have hsame : v'.revision = v.revision := le_antisymm (heq ▸ hle) hs.revision_le
      rw [hs.members_eq hv hret hsame]
      exact hvalues (heq.trans hsame)
    · rw [hs.ready_eq hrec]
      exact hready
  | removeRecords hostname | removeTxtAll hostname => exact RetiredAs.step h hs

/-- The work at hand. -/
def WorkerPc.work? : WorkerPc → Option Work
  | .write w | .writing w _ | .observe w | .mark w => some w
  | _ => none

/-- What an attempt relies on about its installation. -/
structure Holds (v : View) (a : Attempt) : Prop where
  target : ∀ hostname, a.pc = .target hostname → Serves a.worker v hostname
  work : ∀ w, a.pc.work? = some w → Fits a.worker v w

theorem Holds.idle (htarget : ∀ hostname, a.pc ≠ .target hostname) (hwork : a.pc.work? = none) :
    Holds v a := by
  constructor
  · intro hostname hpc
    exact absurd hpc (htarget hostname)
  · intro w hw
    rw [hwork] at hw
    cases hw

theorem Holds.outcome {finished : Bool} (hpc : a.pc = .outcome finished) : Holds v a :=
  .idle (by rw [hpc]; nofun) (by rw [hpc]; rfl)

/-- An attempt that goes on with the work it had. -/
theorem Holds.same_work (h : Holds v a) (hw : a.pc.work? = some w) (hw' : a'.pc.work? = some w)
    (hworker : a'.worker = a.worker) : Holds v a' := by
  constructor
  · intro hostname hpc
    rw [hpc] at hw'
    cases hw'
  · intro w₁ hw₁
    obtain rfl : w = w₁ := Option.some.inj (hw'.symm.trans hw₁)
    rw [hworker]
    exact h.work w hw

theorem serves_of_identity {db : Db} {uri placement : String}
    (h : dnsIdentity db i = some (hostname, uri, placement)) (hplace : placement = worker.placement) :
    Serves worker (db.view i) hostname := by
  unfold dnsIdentity at h
  split at h
  · cases h
  · rename_i r hr
    split_ifs at h with hstate
    obtain ⟨uri', -, heq⟩ := Option.map_eq_some_iff.mp h
    simp only [Prod.mk.injEq] at heq
    exact ⟨r, hr, hstate, heq.1, heq.2.2.trans hplace⟩

theorem retiredAs_of_retiredHostname {db : Db} (h : retiredHostname db i = some hostname) :
    RetiredAs (db.view i) hostname := by
  obtain ⟨r, hr, hname⟩ := Option.map_eq_some_iff.mp h
  obtain ⟨hr, hstate⟩ := Option.filter_eq_some_iff.mp hr
  exact ⟨r, hr, by simpa using hstate, hname⟩

/-- What an attempt relies on after a step of its own. -/
theorem Holds.progress {db db' : Db} {act : AttemptAction} (h : Holds (db.view a.job.installationId) a)
    (hv : Challenged (db.view a.job.installationId)) (hp : Progress cfg db a act a' db') :
    Holds (db'.view a'.job.installationId) a' := by
  cases hp with
  | read _ hpc hread =>
    cases hread with
    | outside | unpublished | elsewhere | unretired => exact .outcome rfl
    | publish hkind hostname uri hid =>
      refine ⟨nofun, ?_⟩
      rintro w ⟨⟩
      exact serves_of_identity hid rfl
    | reconcile hkind hostname uri hid =>
      refine ⟨?_, nofun⟩
      rintro hostname' ⟨⟩
      exact serves_of_identity hid rfl
    | removeRecords hkind hostname hid | removeTxtAll hkind hostname hid =>
      refine ⟨nofun, ?_⟩
      rintro w ⟨⟩
      exact retiredAs_of_retiredHostname hid
  | target hostname hpc =>
    refine ⟨nofun, ?_⟩
    rintro w ⟨⟩
    -- the snapshot is the state itself
    exact ⟨h.target hostname hpc, le_rfl, fun _ => rfl, hv.ready_le⟩
  | start w hpc | apply w applied hpc | accepted w hpc =>
    have hw : a.pc.work? = some w := by rw [hpc]; rfl
    exact h.same_work hw rfl rfl
  | refused | mark | fail => exact .outcome rfl
  | observe w visible hpc =>
    have hw : a.pc.work? = some w := by rw [hpc]; rfl
    by_cases hmark : visible = true ∧ (w.markOp? a.job.installationId).isSome = true
    · exact h.same_work hw (by simp [observed, hmark.1, hmark.2, WorkerPc.work?]) rfl
    · obtain ⟨finished, hout⟩ := observed_outcome hmark
      exact .outcome hout

/-- What every attempt relies on holds. -/
def Relies (g : Workers) : Prop :=
  ∀ k a, g.attempts k = some a → Holds (g.db.view a.job.installationId) a

theorem Relies.step (h : Relies g) (hl : Locked cfg g) (hv : ∀ i, Challenged (g.db.view i))
    (hm : DnsMoves cfg g action g') : Relies g' := by
  intro k a ha
  cases hm.came ha with
  | stayed ha₀ hother =>
    by_cases hpc : a.pc = .lock
    · exact .idle (by rw [hpc]; nofun) (by rw [hpc]; rfl)
    · obtain ⟨c, hs, hc, -⟩ := hm.beside hl ha₀ hpc hother
      have hholds := h k a ha₀
      exact ⟨fun hostname ht => (hholds.target hostname ht).step hs hc,
        fun w hw => (hholds.work w hw).step (hv _) hs hc⟩
  | claimed worker now o hk ho hclaim heq hdb =>
    subst heq
    exact .idle nofun rfl
  | locked a₀ ha₀ hpc heq hdb =>
    subst heq
    exact .idle nofun rfl
  | progressed a₀ act ha₀ hact hp => exact (h k a₀ ha₀).progress (hv _) hp

/-- Every installation has the challenge state a life gives it. -/
theorem challenged_of_run (h : DnsRun cfg tr g) (i : Uuid) : Challenged (g.db.view i) := by
  obtain ⟨calls, hrun⟩ := storeRun_of_run h
  exact Challenged.run (life_run hrun i)

theorem Relies.run (h : DnsRun cfg tr g) : Relies g := by
  refine h.invariant (fun _ g => Relies g) ?_ ?_
  · intro k a ha
    cases ha
  · intro tr g action g' hrun hrelies hs
    exact hrelies.step (Locked.run hrun) (challenged_of_run hrun) (dnsMoves_of_step hs)

/-! ## Calls of a provider -/

/-- The call of the provider an attempt is waiting for. -/
def Attempt.calling? (a : Attempt) : Option Work :=
  match a.pc with
  | .writing w _ => some w
  | _ => none

/-- The installation is as a call needs it: retired for a removal; for anything else not retired, and
placed where the worker is. -/
def Authorised (db : Db) (a : Attempt) (w : Work) : Prop :=
  ∃ r, db.installations.find? a.job.installationId = some r ∧ r.hostname = w.write.hostname ∧
    if w.write.removes then r.state = .retired
    else r.state ≠ .retired ∧ r.placement = a.worker.placement

theorem authorised_of_fits {db : Db} (h : Fits a.worker (db.view a.job.installationId) w) :
    Authorised db a w := by
  cases w with
  | publishName records =>
    obtain ⟨r, hr, hstate, hname, hplace⟩ := h
    exact ⟨r, hr, hname, hstate, hplace⟩
  | reconcileTxt hostname revision values =>
    obtain ⟨⟨r, hr, hstate, hname, hplace⟩, -⟩ := h
    exact ⟨r, hr, hname, hstate, hplace⟩
  | removeRecords hostname | removeTxtAll hostname =>
    obtain ⟨r, hr, hstate, hname⟩ := h
    exact ⟨r, hr, hname, hstate⟩

theorem calling_work (h : a.calling? = some w) : a.pc.work? = some w ∧ a.pc ≠ .lock := by
  unfold Attempt.calling? at h
  split at h
  · rename_i w' applied hpc
    obtain rfl : w' = w := Option.some.inj h
    exact ⟨by rw [hpc]; rfl, by rw [hpc]; nofun⟩
  · cases h

theorem authorised_of_calling (h : DnsRun cfg tr g) (ha : g.attempts k = some a)
    (hw : a.calling? = some w) : Authorised g.db a w :=
  authorised_of_fits ((Relies.run h k a ha).work w (calling_work hw).1)

/-- A change takes effect while its attempt waits for the call. -/
theorem writeOf?_eq_some {e : Event Workers DnsAction} (h : writeOf? e = some (a, w)) :
    ∃ k, e.label = .attempt k .apply ∧ e.src.attempts k = some a ∧ a.calling? = some w := by
  unfold writeOf? at h
  split at h
  · rename_i k hlabel
    split at h
    · rename_i a₀ ha
      split at h
      · rename_i w₀ applied hpc
        simp only [Option.some.injEq, Prod.mk.injEq] at h
        obtain ⟨rfl, rfl⟩ := h
        exact ⟨k, hlabel, ha, by simp [Attempt.calling?, hpc]⟩
      · cases h
    · cases h
  · cases h

theorem authorised_of_write (h : DnsRun cfg tr g) {e : Event Workers DnsAction} (he : e ∈ tr)
    (hw : writeOf? e = some (a, w)) : Authorised e.src.db a w := by
  obtain ⟨later, earlier, rfl⟩ := List.append_of_mem he
  obtain ⟨k, -, ha, hcall⟩ := writeOf?_eq_some hw
  exact authorised_of_calling h.split.1 ha hcall

/-- A retired row is the same in every later state. -/
theorem retired_later {later : List (Event Workers DnsAction)} {r : Installation}
    (hr : g.db.installations.find? i = some r) (hret : r.state = .retired)
    (h : Run (DnsStep cfg) g later g') : g'.db.installations.find? i = some r := by
  refine h.state_invariant (fun g => g.db.installations.find? i = some r) hr ?_
  intro g action g' hr hs
  obtain heq | ⟨call, heq⟩ := (dnsMoves_of_step hs).store_step
  · rw [heq]
    exact hr
  · rw [heq]
    exact (life_step call g.db i).row_of_retired hr hret

/-- No two installations share a hostname. -/
theorem hostname_inj (h : DnsRun cfg tr g) {j : Uuid} {r r' : Installation}
    (hr : g.db.installations.find? i = some r) (hr' : g.db.installations.find? j = some r')
    (hname : r'.hostname = r.hostname) : j = i := by
  obtain ⟨calls, hrun⟩ := storeRun_of_run h
  have heq := (Named.run hrun).owner (g.db.installations.find?_mem hr)
    (g.db.installations.find?_mem hr') hname
  rw [← g.db.installations.find?_key hr', heq, g.db.installations.find?_key hr]

/-- After an installation is retired, every change at its name is a removal. -/
theorem removal_after_retirement {later earlier : List (Event Workers DnsAction)}
    {e e' : Event Workers DnsAction} (h : DnsRun cfg (later ++ e :: earlier) g) {r : Installation}
    (hr : e.dst.db.installations.find? i = some r) (hret : r.state = .retired) (he' : e' ∈ later)
    (hw : writeOf? e' = some (a, w)) (hname : w.write.hostname = r.hostname) :
    w.write.removes = true := by
  have hauth := authorised_of_write h (List.mem_append_left _ he') hw
  obtain ⟨between, before, rfl⟩ := List.append_of_mem he'
  have hafter : Run (DnsStep cfg) e.dst (between ++ e' :: before) g := h.split.2.2
  have hr' := retired_later hr hret hafter.split.1
  have hrun : DnsRun cfg (before ++ e :: earlier) e'.src := by
    rw [List.append_assoc] at h
    exact h.split.1
  obtain ⟨r₁, hr₁, hname₁, hstate⟩ := hauth
  have hi := hostname_inj hrun hr' hr₁ (hname₁.trans hname)
  rw [hi, hr'] at hr₁
  obtain rfl := Option.some.inj hr₁
  by_contra hremoves
  rw [if_neg hremoves] at hstate
  exact hstate.1 hret

/-- **DNS writes follow the current authority.** No two calls of a provider for one installation
overlap. While a call that publishes a name or a challenge set is in progress the installation is not
retired and is placed where the worker is; while a removal is in progress it is retired. So after the
retirement no change at the name is anything but a removal, and a placement that lost the installation
publishes nothing for it until it has the installation again. -/
theorem writes_follow_authority (h : DnsRun cfg tr g) :
    (∀ k k' a a', g.attempts k = some a → g.attempts k' = some a' → a.calling? ≠ none →
      a'.calling? ≠ none → a.job.installationId = a'.job.installationId → k = k') ∧
    (∀ k a w, g.attempts k = some a → a.calling? = some w → Authorised g.db a w) ∧
    (∀ later e earlier i r, tr = later ++ e :: earlier → e.dst.db.installations.find? i = some r →
      r.state = .retired → ∀ e' ∈ later, ∀ a w, writeOf? e' = some (a, w) →
        w.write.hostname = r.hostname → w.write.removes = true) ∧
    (∀ later earlier i placement, tr = later ++ earlier →
      (∀ e' ∈ later, ∀ r, e'.src.db.installations.find? i = some r → r.placement ≠ placement) →
      ∀ e' ∈ later, ∀ a w, writeOf? e' = some (a, w) → a.job.installationId = i →
        a.worker.placement = placement → w.write.removes = true) := by
  refine ⟨?_, fun k a w ha hw => authorised_of_calling h ha hw, ?_, ?_⟩
  · intro k k' a a' ha ha' hcall hcall' hi
    obtain ⟨w, hw⟩ := Option.ne_none_iff_exists'.mp hcall
    obtain ⟨w', hw'⟩ := Option.ne_none_iff_exists'.mp hcall'
    exact (Locked.run h).eq_of_installation ha (calling_work hw).2 ha' (calling_work hw').2 hi
  · rintro later e earlier i r rfl hr hret e' he' a w hw hname
    exact removal_after_retirement h hr hret he' hw hname
  · rintro later earlier i placement rfl hmoved e' he' a w hw rfl rfl
    obtain ⟨r, hr, -, hauth⟩ := authorised_of_write h (List.mem_append_left _ he') hw
    by_contra hremoves
    rw [if_neg hremoves] at hauth
    exact hmoved e' he' r hr hauth.2

/-! ## A name is published -/

def edgeDns : DnsConfig := ⟨fun _ => 0, .default, fun i => i.toNat⟩

def edgeWorker : DnsWorker := ⟨"edge-1", .serving, [.v4 1]⟩

def accountUri : String := "https://acme-v02.api.letsencrypt.org/acme/acct/1"

/-- An installation is allocated and bound to an account, and a worker calls the provider for it. -/
def publishedActions : List DnsAction :=
  [.store ⟨.default, 0, .allocate 1 5 "edge-1" 7 9⟩,
    .store ⟨.default, 10, .registerAcmeAccount 7 accountUri⟩,
    .claim 0 edgeWorker 20, .attempt 0 .lock, .attempt 0 .read, .attempt 0 .start,
    .attempt 0 .apply]

theorem writes_follow_authority_published :
    ∃ tr g a, DnsRun edgeDns tr g ∧ g.attempts 0 = some a ∧ a.calling? =
      some (.publishName ⟨allocatedHostname 9, [.v4 1], accountUri⟩) ∧
      Authorised g.db a (.publishName ⟨allocatedHostname 9, [.v4 1], accountUri⟩) := by
  have hplay : ((Run.play (Workers.step edgeDns) (Workers.start .migrated) publishedActions).bind
      fun g => (g.attempts 0).map Attempt.calling?) =
      some (some (.publishName ⟨allocatedHostname 9, [.v4 1], accountUri⟩)) := by decide +kernel
  obtain ⟨g, hg, hcalling⟩ := Option.bind_eq_some_iff.1 hplay
  obtain ⟨a, ha, hw⟩ := Option.map_eq_some_iff.1 hcalling
  obtain ⟨tr, hrun, -⟩ := Run.of_play hg
  exact ⟨tr, g, a, hrun, ha, hw, (writes_follow_authority hrun).2.1 0 a _ ha hw⟩

end BloomRelay.Control
