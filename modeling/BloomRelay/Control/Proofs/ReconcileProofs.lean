import BloomRelay.Control.Proofs.JobProofs
import BloomRelay.Control.Proofs.ReadinessProofs

/-!
# No change is lost

A job says only that something has changed; what an attempt then publishes is what it reads. Every
change queues a job, and an attempt that completes its job without having seen the newest change
leaves the job of that change behind. So as long as what is published differs from what is stored,
there is a job whose attempts have not read anything older.
-/

namespace BloomRelay.Control

open Protocol Store Dns

variable {cfg : DnsConfig} {g g' : Workers} {action : DnsAction} {k k' : Nat} {a a' : Attempt}
  {tr : List (Event Workers DnsAction)} {e : Event Workers DnsAction} {v v' : View} {i : Uuid}
  {c : Change} {w : Work} {o : OutboxRow}

/-! ## What an attempt has read -/

/-- The kind of job a work is for. -/
def Work.kind : Work → JobKind
  | .publishName _ => .publishName
  | .reconcileTxt _ _ _ => .reconcileTxt
  | .removeRecords _ => .removeRecords
  | .removeTxtAll _ => .removeTxtAll

/-- The attempt has read what its job is about, and did not fail. -/
def WorkerPc.informed : WorkerPc → Bool
  | .lock | .read | .outcome false => false
  | _ => true

theorem informed_of_work {pc : WorkerPc} (h : pc.work? = some w) : pc.informed = true := by
  cases pc <;> first | rfl | cases h

/-- What an attempt remembers fits where it is. -/
structure Coherent (a : Attempt) : Prop where
  unread : a.pc = .lock ∨ a.pc = .read → a.identity = none ∧ a.revision = none
  informed : a.pc.informed = true → a.job.kind.isRemoval = false → a.identity ≠ none
  target : ∀ hostname, a.pc = .target hostname → a.job.kind = .reconcileTxt
  work : ∀ w, a.pc.work? = some w → w.kind = a.job.kind
  revision : ∀ hostname revision values,
    a.pc.work? = some (.reconcileTxt hostname revision values) → a.revision = some revision

namespace Coherent

theorem failed (hpc : a.pc = .outcome false) : Coherent a := by
  refine ⟨?_, ?_, ?_, ?_, ?_⟩ <;> rw [hpc] <;> simp [WorkerPc.informed, WorkerPc.work?]

theorem finished (hpc : a.pc = .outcome true)
    (hread : a.job.kind.isRemoval = false → a.identity ≠ none) : Coherent a := by
  refine ⟨?_, fun _ => hread, ?_, ?_, ?_⟩ <;> rw [hpc] <;> simp [WorkerPc.work?]

/-- Work that was decided on, with what it was decided from. -/
theorem decided (hw : a.pc.work? = some w) (hkind : w.kind = a.job.kind)
    (hread : a.job.kind.isRemoval = false → a.identity ≠ none)
    (hrev : ∀ hostname revision values, w = .reconcileTxt hostname revision values →
      a.revision = some revision) : Coherent a := by
  refine ⟨?_, fun _ => hread, ?_, ?_, ?_⟩
  · rintro (hpc | hpc) <;> rw [hpc] at hw <;> cases hw
  · intro hostname hpc
    rw [hpc] at hw
    cases hw
  · intro w' hw'
    rw [hw] at hw'
    cases hw'
    exact hkind
  · intro hostname revision values hw'
    exact hrev hostname revision values (Option.some.inj (hw.symm.trans hw'))

/-- An attempt that goes on with its work. -/
theorem goes_on (h : Coherent a) (hw : a.pc.work? = some w) (hw' : a'.pc.work? = some w)
    (hjob : a'.job = a.job) (hid : a'.identity = a.identity) (hrev : a'.revision = a.revision) :
    Coherent a' := by
  refine .decided hw' ?_ ?_ ?_
  · rw [hjob]
    exact h.work w hw
  · rw [hjob, hid]
    exact h.informed (informed_of_work hw)
  · rintro hostname revision values rfl
    rw [hrev]
    exact h.revision hostname revision values hw

/-- An attempt whose work is done. -/
theorem ends (h : Coherent a) (hw : a.pc.work? = some w) {finished : Bool}
    (hpc : a'.pc = .outcome finished) (hjob : a'.job = a.job) (hid : a'.identity = a.identity) :
    Coherent a' := by
  cases finished with
  | false => exact .failed hpc
  | true =>
    refine .finished hpc ?_
    rw [hjob, hid]
    exact h.informed (informed_of_work hw)

theorem read {db : Db} (h : ReadNext db a a') : Coherent a' := by
  cases h with
  | outside | elsewhere => exact .failed rfl
  | unpublished => exact .finished rfl fun _ => nofun
  | publish hkind hostname uri hid => exact .decided rfl hkind.symm (fun _ => nofun) nofun
  | reconcile hkind hostname uri hid =>
    refine ⟨?_, fun _ _ => nofun, fun _ _ => hkind, nofun, nofun⟩
    rintro (hpc | hpc)
    · cases hpc
    · cases hpc
  | unretired hkind hid =>
    refine .finished rfl fun hno => ?_
    rw [hkind] at hno
    cases hno
  | removeRecords hkind hostname hid =>
    refine .decided rfl hkind.symm (fun hno => ?_) nofun
    rw [hkind] at hno
    cases hno
  | removeTxtAll hkind hostname hid =>
    refine .decided rfl hkind.symm (fun hno => ?_) nofun
    rw [hkind] at hno
    cases hno

theorem progress {db db' : Db} {act : AttemptAction} (h : Coherent a)
    (hp : Progress cfg db a act a' db') : Coherent a' := by
  cases hp with
  | read _ hpc hread => exact .read hread
  | target hostname hpc =>
    refine .decided rfl (h.target hostname hpc).symm ?_ ?_
    · exact h.informed (by rw [hpc]; rfl)
    · rintro hostname' revision values ⟨⟩
      rfl
  | start w hpc | apply w applied hpc | accepted w hpc =>
    have hw : a.pc.work? = some w := by rw [hpc]; rfl
    exact h.goes_on hw rfl rfl rfl rfl
  | refused | fail => exact .failed rfl
  | observe w visible hpc =>
    have hw : a.pc.work? = some w := by rw [hpc]; rfl
    by_cases hmark : visible = true ∧ (w.markOp? a.job.installationId).isSome = true
    · exact h.goes_on hw (by simp [observed, hmark.1, hmark.2, WorkerPc.work?]) rfl rfl rfl
    · obtain ⟨finished, hout⟩ := observed_outcome hmark
      exact h.ends hw hout rfl rfl
  | mark w op now acknowledged hpc hop =>
    have hw : a.pc.work? = some w := by rw [hpc]; rfl
    exact h.ends hw rfl rfl rfl

theorem run (h : DnsRun cfg tr g) : ∀ k a, g.attempts k = some a → Coherent a := by
  refine h.state_invariant (fun g => ∀ k a, g.attempts k = some a → Coherent a) ?_ ?_
  · intro k a ha
    cases ha
  · intro g action g' hcoh hs k a ha
    cases (dnsMoves_of_step hs).came ha with
    | stayed ha₀ hother => exact hcoh k a ha₀
    | claimed worker now o hk ho hclaim heq hdb =>
      subst heq
      exact ⟨fun _ => ⟨rfl, rfl⟩, nofun, nofun, nofun, nofun⟩
    | locked a₀ ha₀ hpc heq hdb =>
      subst heq
      exact ⟨fun _ => (hcoh k a₀ ha₀).unread (.inl hpc), nofun, nofun, nofun, nofun⟩
    | progressed a₀ act ha₀ hact hp => exact (hcoh k a₀ ha₀).progress hp

end Coherent

/-! ## Challenge sets -/

/-- The mark of the current revision makes it the ready one. -/
theorem reconcile_current {db : Db} {s : ChallengeState} (hs : db.challengeState.find? i = some s)
    (hin : s.revision < 2 ^ 63) :
    ((markChallengeReconciled db i s.revision).2.view i).ready = some s.revision := by
  have hi64 : i64OfU64 s.revision = s.revision := by
    unfold i64OfU64
    rw [if_pos hin]
  have hmark : markChallengeReconciled db i s.revision = (true, db.modifyChallengeState i
      (fun s => { s with readyRevision := some s.revision }) (fun _ => rfl)) := by
    simp [markChallengeReconciled, hs, Option.filter, hi64]
  rw [hmark]
  simp [View.ready, Db.view, Db.modifyChallengeState, hs]

theorem revision_of_mark (db : Db) (i : Uuid) (revision : Nat) :
    ((markChallengeReconciled db i revision).2.view i).revision = (db.view i).revision := by
  obtain heq | ⟨s, hs, -, heq⟩ := markChallengeReconciled_cases db i revision
  · rw [heq]
  · rw [heq]
    simp [View.revision, Db.view, Db.modifyChallengeState, hs]

/-- An attempt that finished a reconciliation has published what is stored, or something older. -/
def Reconciled (v : View) (a : Attempt) : Prop :=
  a.job.kind = .reconcileTxt → a.pc = .outcome true → v.isRetired = true ∨
    ∃ revision, a.revision = some revision ∧ revision ≤ v.revision ∧
      (revision = v.revision → v.ready = some revision)

theorem Reconciled.step (h : Reconciled v a) (hs : LifeStep i v c v') (hc : steers c = false) :
    Reconciled v' a := by
  intro hkind hpc
  have hrec : c ≠ .reconciled := by
    rintro rfl
    cases hc
  rcases h hkind hpc with hret | ⟨revision, hrev, hle, hready⟩
  · exact .inl (hs.isRetired hret)
  · refine .inr ⟨revision, hrev, hle.trans hs.revision_le, fun heq => ?_⟩
    rw [hs.ready_eq hrec]
    exact hready (le_antisymm hle (heq ▸ hs.revision_le))

theorem Reconciled.open (hpc : a.pc ≠ .outcome true) : Reconciled v a :=
  fun _ hout => absurd hout hpc

/-- A mark that succeeds leaves the database it computed. -/
theorem after_of_mark {db : Db} {now : Time} {revision : Nat}
    (h : ((workerCall cfg now (.markChallengeReconciled i revision)).exec cfg.sha256 db).toBool =
      true) :
    (workerCall cfg now (.markChallengeReconciled i revision)).after cfg.sha256 db =
      (markChallengeReconciled db i revision).2 := by
  unfold Call.after
  cases hexec : (workerCall cfg now (.markChallengeReconciled i revision)).exec cfg.sha256 db with
  | error e =>
    rw [hexec] at h
    cases h
  | ok p =>
    have htx := (exec_ok hexec).1
    exact (answer_total.mp htx).2

theorem revision_in_range (hrun : DnsRun cfg tr g) {s : ChallengeState}
    (hs : g.db.challengeState.find? i = some s) : s.revision < 2 ^ 63 := by
  obtain ⟨calls, hstore⟩ := storeRun_of_run hrun
  have hin := inRange_run hstore
  simp only [Db.inRange, Bool.and_eq_true, List.all_eq_true, decide_eq_true_eq] at hin
  exact hin.1.2 s (g.db.challengeState.find?_mem hs)

/-- A reconciliation that is attempted is about a set that was changed. -/
theorem attempted_set (hrun : DnsRun cfg tr g) (ha : g.attempts k = some a)
    (hkind : a.job.kind = .reconcileTxt) :
    0 < (g.db.view a.job.installationId).revision ∧
      ∃ r, (g.db.view a.job.installationId).row = some r ∧ r.acmeAccountUri ≠ none := by
  obtain ⟨calls, hstore⟩ := storeRun_of_run hrun
  obtain ⟨o, ho, hjob, -⟩ := Processing.run hrun k a ha
  rw [← hjob] at hkind ⊢
  exact reconciled_set hstore ho hkind

/-- The mark that ends a reconciliation. -/
theorem Reconciled.mark (hrun : DnsRun cfg tr g) (ha : g.attempts k = some a) {now : Time}
    {acknowledged : Bool} {hostname : String} {revision : Nat} {values : List String}
    (hpc : a.pc = .mark (.reconcileTxt hostname revision values)) (hrev' : a'.revision = a.revision)
    (hpc' : a'.pc = marked ((workerCall cfg now
      (.markChallengeReconciled a.job.installationId revision)).exec cfg.sha256 g.db)
        acknowledged) :
    Reconciled (((workerCall cfg now (.markChallengeReconciled a.job.installationId revision)).after
        cfg.sha256 g.db).view a.job.installationId) a' := by
  intro hkind hout
  have hw : a.pc.work? = some (.reconcileTxt hostname revision values) := by rw [hpc]; rfl
  obtain ⟨-, hle, -⟩ := (Relies.run hrun k a ha).work _ hw
  have hcoherent := Coherent.run hrun k a ha
  have hkind₀ : a.job.kind = .reconcileTxt := (hcoherent.work _ hw).symm
  have hok : ((workerCall cfg now (.markChallengeReconciled a.job.installationId revision)).exec
      cfg.sha256 g.db).toBool = true := by
    have hboth := WorkerPc.outcome.inj (hpc'.symm.trans hout)
    exact (Bool.and_eq_true_iff.mp hboth).1
  rw [after_of_mark hok]
  refine .inr ⟨revision, ?_, ?_, fun heq => ?_⟩
  · rw [hrev']
    exact hcoherent.revision _ _ _ hw
  · rw [revision_of_mark]
    exact hle
  · rw [revision_of_mark] at heq
    -- the set was changed, so that it has a row
    obtain ⟨hpos, -⟩ := attempted_set hrun ha hkind₀
    obtain ⟨s, hs⟩ : ∃ s, g.db.challengeState.find? a.job.installationId = some s := by
      refine Option.ne_none_iff_exists'.mp fun hnone => ?_
      simp [View.revision, Db.view, hnone] at hpos
    have hcurrent : revision = s.revision := by
      rw [heq]
      simp [View.revision, Db.view, hs]
    rw [hcurrent]
    exact reconcile_current hs (revision_in_range hrun hs)

theorem Reconciled.progress {act : AttemptAction} {db' : Db} (hrun : DnsRun cfg tr g)
    (ha : g.attempts k = some a) (hp : Progress cfg g.db a act a' db') :
    Reconciled (db'.view a'.job.installationId) a' := by
  have hcoherent := Coherent.run hrun k a ha
  cases hp with
  | read _ hpc hread =>
    cases hread with
    | unpublished hkind hid =>
      intro hkind' _
      obtain ⟨-, r, hr, huri⟩ := attempted_set hrun ha hkind'
      exact .inl (View.isRetired_of_identity hid hr huri)
    | unretired hkind hid =>
      intro hkind'
      rw [show a.job.kind = .reconcileTxt from hkind'] at hkind
      cases hkind
    | _ => exact .open nofun
  | observe w visible hpc =>
    intro hkind hout
    have hw : a.pc.work? = some w := by rw [hpc]; rfl
    have hwork : w.kind = .reconcileTxt := (hcoherent.work w hw).trans hkind
    cases w with
    | reconcileTxt hostname revision values =>
      cases visible <;> cases hout
    | _ => cases hwork
  | mark w op now acknowledged hpc hop =>
    cases w with
    | reconcileTxt hostname revision values =>
      cases hop
      exact Reconciled.mark hrun ha hpc rfl rfl
    | publishName records =>
      intro hkind
      have hw : a.pc.work? = some (.publishName records) := by rw [hpc]; rfl
      have hwork := (hcoherent.work _ hw).trans hkind
      cases hwork
    | _ => cases hop
  | _ => exact .open nofun

theorem Reconciled.run (h : DnsRun cfg tr g) :
    ∀ k a, g.attempts k = some a → Reconciled (g.db.view a.job.installationId) a := by
  refine h.invariant
    (fun _ g => ∀ k a, g.attempts k = some a → Reconciled (g.db.view a.job.installationId) a) ?_ ?_
  · intro k a ha
    cases ha
  · intro tr g action g' hrun hrec hs k a ha
    have hm := dnsMoves_of_step hs
    cases hm.came ha with
    | stayed ha₀ hother =>
      by_cases hpc : a.pc = .lock
      · exact .open (by rw [hpc]; nofun)
      · obtain ⟨c, hlife, hc, -⟩ := hm.beside (Locked.run hrun) ha₀ hpc hother
        exact (hrec k a ha₀).step hlife hc
    | claimed worker now o hk ho hclaim heq hdb =>
      subst heq
      exact .open nofun
    | locked a₀ ha₀ hpc heq hdb =>
      subst heq
      exact .open nofun
    | progressed a₀ act ha₀ hact hp => exact .progress hrun ha₀ hp

/-- An attempt reads the current revision or none. -/
theorem revision_of_progress {db db' : Db} {act : AttemptAction} (h : Progress cfg db a act a' db')
    (hP : a.revision = none ∨ a.revision = some (db.view a.job.installationId).revision) :
    a'.revision = none ∨ a'.revision = some (db.view a.job.installationId).revision := by
  cases h with
  | read _ hpc hread => cases hread <;> exact hP
  | target hostname hpc => exact .inr rfl
  | _ => exact hP

/-- The stored revision is ready, or a job is still to publish it. -/
def Reconciling (g : Workers) (i : Uuid) : Prop :=
  (g.db.view i).isRetired = true ∨ (g.db.view i).revision = 0 ∨
    (g.db.view i).ready = some (g.db.view i).revision ∨
    Waiting g i .reconcileTxt fun a =>
      a.revision = none ∨ a.revision = some (g.db.view i).revision

theorem Reconciling.step (h : Reconciling g i) (hrun : DnsRun cfg tr g)
    (hs : DnsStep cfg g action g') : Reconciling g' i := by
  have hm := dnsMoves_of_step hs
  obtain ⟨c, hlife⟩ := hm.life i
  rcases hlife.revision_change with hsame | ⟨o, hnew, hjobs⟩
  · by_cases hret : (g.db.view i).isRetired = true
    · exact .inl (hlife.isRetired hret)
    by_cases hready : (g.db.view i).ready = some (g.db.view i).revision
    · exact .inr (.inr (.inl (hlife.ready_stays hready hsame)))
    rcases h with h | hzero | h | hwait
    · exact absurd h hret
    · exact .inr (.inl (hsame.trans hzero))
    · exact absurd h hready
    · unfold Reconciling
      rw [hsame]
      refine .inr (.inr (.inr (hwait.step hrun hm ?_ ?_ ?_ ?_)))
      · exact fun _ _ => .inl rfl
      · exact fun _ hP => hP
      · rintro k a₀ act a ha₀ rfl hkind hp hP
        exact revision_of_progress hp hP
      · intro a hdone hi hkind hP
        obtain ⟨k, now, -, ha, hpc⟩ := completionOf?_eq_some hdone
        have hfinished := Reconciled.run hrun k a ha hkind hpc
        rw [hi] at hfinished
        rcases hfinished with h | ⟨revision, hrev, -, hcurrent⟩
        · exact hret h
        · rw [hrev] at hP
          rcases hP with hP | hP
          · cases hP
          · cases hP
            exact hready (hcurrent rfl)
  · exact .inr (.inr (.inr (.fresh hrun hs hnew hjobs _)))

theorem Reconciling.run (h : DnsRun cfg tr g) (i : Uuid) : Reconciling g i := by
  refine h.invariant (fun _ g => Reconciling g i) ?_ ?_
  · exact .inr (.inl rfl)
  · intro tr g action g' hrun hrec hs
    exact hrec.step hrun hs

/-! ## Names -/

/-- A step of an attempt neither retires its installation nor moves it. -/
theorem Progress.life {db db' : Db} {act : AttemptAction} (h : Progress cfg db a act a' db')
    (i : Uuid) : ∃ c, LifeStep i (db.view i) c (db'.view i) ∧ c ≠ .retired := by
  cases h with
  | mark w op now acknowledged hpc hop =>
    refine ⟨_, life_step (workerCall cfg now op) db i, fun hc => ?_⟩
    have hby : ChangedBy i op ((workerCall cfg now op).change cfg.sha256 db i) :=
      call_changedBy cfg.sha256 (workerCall cfg now op) db i
    rw [hc] at hby
    cases w <;> cases hop <;> cases hby
  | _ => exact ⟨.other, .same _, nofun⟩

/-- What an attempt at a publication has read is the identity, or there is a job that nobody has
begun to process. -/
def Informed (g : Workers) (a : Attempt) : Prop :=
  a.job.kind = .publishName → ∀ x, a.identity = some x →
    x = (g.db.view a.job.installationId).identity ∨
      Waiting g a.job.installationId .publishName fun b => b.identity = none

theorem finished_publication (hrun : DnsRun cfg tr g) (hdone : completionOf? ⟨g, action, g'⟩ = some a)
    (hkind : a.job.kind = .publishName) : a.identity ≠ none := by
  obtain ⟨k, now, -, ha, hpc⟩ := completionOf?_eq_some hdone
  refine (Coherent.run hrun k a ha).informed ?_ ?_
  · rw [hpc]
    rfl
  · rw [hkind]
    rfl

theorem past_lock_of_identity {x : Option (String × String × String)} (hrun : DnsRun cfg tr g)
    (ha : g.attempts k = some a) (hid : a.identity = some x) : a.pc ≠ .lock := by
  intro hpc
  rw [((Coherent.run hrun k a ha).unread (.inl hpc)).1] at hid
  cases hid

/-- While an attempt that has read lasts, nobody begins to process another publication of its
installation. -/
theorem Waiting.unread_step {x : Option (String × String × String)} (hrun : DnsRun cfg tr g)
    (hm : DnsMoves cfg g action g') (ha : g.attempts k = some a) (hid : a.identity = some x)
    (h : Waiting g a.job.installationId .publishName fun b => b.identity = none) :
    Waiting g' a.job.installationId .publishName fun b => b.identity = none := by
  refine h.step hrun hm ?_ ?_ ?_ ?_
  · exact fun _ _ => rfl
  · exact fun _ hP => hP
  · -- only this attempt is past the lock of the installation, and it has read already
    intro k₂ a₂ act a₃ ha₂ hi hkind₂ hp hnone
    have hpast := past_lock_of_identity hrun ha hid
    have hk : k₂ = k := (Locked.run hrun).eq_of_installation ha₂ hp.past_lock.1 ha hpast hi
    subst hk
    obtain rfl : a₂ = a := Option.some.inj (ha₂.symm.trans ha)
    rw [hid] at hnone
    cases hnone
  · intro a₂ hdone hi hkind₂
    exact finished_publication hrun hdone hkind₂

/-- An attempt that has read goes on: what it read is still the identity, or the change queued a
job. -/
theorem Informed.keep {x : Option (String × String × String)} (h : Informed g a)
    (hrun : DnsRun cfg tr g) (hs : DnsStep cfg g action g') (ha : g.attempts k = some a)
    (hkind : a.job.kind = .publishName) (hid : a.identity = some x)
    (hlife : LifeStep a.job.installationId (g.db.view a.job.installationId) c
      (g'.db.view a.job.installationId)) (hc : c ≠ .retired) :
    x = (g'.db.view a.job.installationId).identity ∨
      Waiting g' a.job.installationId .publishName fun b => b.identity = none := by
  have hm := dnsMoves_of_step hs
  rcases hlife.identity_change with hsame | ⟨hret, -⟩ | ⟨o, hnew, hjobs⟩
  · rcases h hkind x hid with hx | hwait
    · exact .inl (hx.trans hsame.symm)
    · exact .inr (hwait.unread_step hrun hm ha hid)
  · exact absurd hret hc
  · exact .inr (.fresh hrun hs hnew hjobs _)

theorem identity_of_progress {db db' : Db} {act : AttemptAction} (h : Progress cfg db a act a' db') :
    a'.identity = a.identity ∨ a.job.kind.isRemoval = false ∧ db' = db ∧
      a'.identity = some (db.view a.job.installationId).identity := by
  cases h with
  | read _ hpc hread =>
    cases hread with
    | outside | unretired | removeRecords | removeTxtAll => exact .inl rfl
    | unpublished hkind hid => exact .inr ⟨hkind, rfl, congrArg some hid.symm⟩
    | elsewhere hkind hostname uri placement hid => exact .inr ⟨hkind, rfl, congrArg some hid.symm⟩
    | publish hkind hostname uri hid | reconcile hkind hostname uri hid =>
      exact .inr ⟨by rw [hkind]; rfl, rfl, congrArg some hid.symm⟩
  | _ => exact .inl rfl

theorem Informed.run (h : DnsRun cfg tr g) : ∀ k a, g.attempts k = some a → Informed g a := by
  refine h.invariant (fun _ g => ∀ k a, g.attempts k = some a → Informed g a) ?_ ?_
  · intro k a ha
    cases ha
  · intro tr g action g' hrun hinf hs k a ha hkind x hid
    have hm := dnsMoves_of_step hs
    cases hm.came ha with
    | stayed ha₀ hother =>
      have hpast := past_lock_of_identity hrun ha₀ hid
      obtain ⟨c, hlife, hc, -⟩ := hm.beside (Locked.run hrun) ha₀ hpast hother
      refine (hinf k a ha₀).keep hrun hs ha₀ hkind hid hlife ?_
      rintro rfl
      cases hc
    | claimed worker now o hk ho hclaim heq hdb =>
      subst heq
      cases hid
    | locked a₀ ha₀ hpc heq hdb =>
      subst heq
      have hnone : a₀.identity = none := ((Coherent.run hrun k a₀ ha₀).unread (.inl hpc)).1
      have hsome : a₀.identity = some x := hid
      rw [hnone] at hsome
      cases hsome
    | progressed a₀ act ha₀ hact hp =>
      obtain ⟨hjob, -⟩ := hp.kept
      rw [hjob] at hkind ⊢
      rcases identity_of_progress hp with hsame | ⟨-, hdb, hread⟩
      · obtain ⟨c, hlife, hc⟩ := hp.life a₀.job.installationId
        exact (hinf k a₀ ha₀).keep hrun hs ha₀ hkind (hsame ▸ hid) hlife hc
      · rw [hdb]
        exact .inl (Option.some.inj (hid.symm.trans hread))

/-- The identity is the one of the last completed publication, or a job is still to publish it. -/
def Publishing (tr : List (Event Workers DnsAction)) (g : Workers) (i : Uuid) : Prop :=
  (g.db.view i).identity = none ∨
    lastPublished i tr = (g.db.view i).identity.map (·.2) ∨
    Waiting g i .publishName fun a =>
      a.identity = none ∨ a.identity = some (g.db.view i).identity

theorem lastPublished_cons (h : ∀ a, completionOf? e = some a →
    ¬ (a.job.installationId = i ∧ a.job.kind = .publishName)) :
    lastPublished i (e :: tr) = lastPublished i tr := by
  rw [lastPublished]
  split
  · rename_i a hdone
    rw [if_neg (h a hdone)]
  · rfl

/-- A completed publication leaves the identity published, or a job that nobody has begun. -/
theorem Publishing.completed (hrun : DnsRun cfg tr g) (hm : DnsMoves cfg g action g')
    (hdone : completionOf? ⟨g, action, g'⟩ = some a) (hi : a.job.installationId = i)
    (hkind : a.job.kind = .publishName)
    (hsame : (g'.db.view i).identity = (g.db.view i).identity) :
    Publishing (⟨g, action, g'⟩ :: tr) g' i := by
  obtain ⟨k, now, -, ha, -⟩ := completionOf?_eq_some hdone
  obtain ⟨x, hx⟩ := Option.ne_none_iff_exists'.mp (finished_publication hrun hdone hkind)
  subst hi
  rcases Informed.run hrun k a ha hkind x hx with heq | hwait
  · refine .inr (.inl ?_)
    simp [lastPublished, hdone, hkind, hx, hsame, heq]
  · exact .inr (.inr ((hwait.unread_step hrun hm ha hx).mono fun _ hnone => .inl hnone))

theorem identity_read {db db' : Db} {act : AttemptAction} (h : Progress cfg db a act a' db')
    (hP : a.identity = none ∨ a.identity = some (db.view a.job.installationId).identity) :
    a'.identity = none ∨ a'.identity = some (db.view a.job.installationId).identity := by
  rcases identity_of_progress h with hsame | ⟨-, -, hread⟩
  · rw [hsame]
    exact hP
  · exact .inr hread

theorem Publishing.step (h : Publishing tr g i) (hrun : DnsRun cfg tr g)
    (hs : DnsStep cfg g action g') : Publishing (⟨g, action, g'⟩ :: tr) g' i := by
  have hm := dnsMoves_of_step hs
  obtain ⟨c, hlife⟩ := hm.life i
  rcases hlife.identity_change with hsame | ⟨-, hnone⟩ | ⟨o, hnew, hjobs⟩
  · by_cases hmine : ∃ a, completionOf? ⟨g, action, g'⟩ = some a ∧ a.job.installationId = i ∧
        a.job.kind = .publishName
    · obtain ⟨a, hdone, hi, hkind⟩ := hmine
      exact .completed hrun hm hdone hi hkind hsame
    · have hlast : lastPublished i (⟨g, action, g'⟩ :: tr) = lastPublished i tr :=
        lastPublished_cons fun a hdone hjob => hmine ⟨a, hdone, hjob⟩
      unfold Publishing
      rw [hlast, hsame]
      rcases h with hnone | hpublished | hwait
      · exact .inl hnone
      · exact .inr (.inl hpublished)
      · refine .inr (.inr (hwait.step hrun hm ?_ ?_ ?_ ?_))
        · exact fun _ _ => .inl rfl
        · exact fun _ hP => hP
        · rintro k a₀ act a ha₀ rfl hkind hp hP
          exact identity_read hp hP
        · exact fun a hdone hi hkind _ => hmine ⟨a, hdone, hi, hkind⟩
  · exact .inl hnone
  · exact .inr (.inr (.fresh hrun hs hnew hjobs _))

theorem Publishing.run (h : DnsRun cfg tr g) (i : Uuid) : Publishing tr g i := by
  refine h.invariant (fun tr g => Publishing tr g i) ?_ ?_
  · exact .inl rfl
  · intro tr g action g' hrun hpub hs
    exact hpub.step hrun hs

/-! ## Removals -/

/-- The attempt has removed what its job is about, and saw that it is gone. -/
def Removed (tr : List (Event Workers DnsAction)) (v : View) (k : Nat) (job : OutboxJob) : Prop :=
  ∃ w, w.kind = job.kind ∧ RetiredAs v w.write.hostname ∧ Happened (Saw k job w) tr

theorem Removed.step {job : OutboxJob} (h : Removed tr v k job) (hs : LifeStep i v c v') :
    Removed (e :: tr) v' k job := by
  obtain ⟨w, hkind, hret, hsaw⟩ := h
  exact ⟨w, hkind, hret.step hs, hsaw.cons⟩

/-- A removal that is attempted is about a retired installation. -/
theorem attempted_removal (hrun : DnsRun cfg tr g) (ha : g.attempts k = some a)
    (hkind : a.job.kind.isRemoval = true) :
    (g.db.view a.job.installationId).isRetired = true := by
  obtain ⟨calls, hstore⟩ := storeRun_of_run hrun
  obtain ⟨o, ho, hjob, -⟩ := Processing.run hrun k a ha
  rw [← hjob] at hkind ⊢
  exact retired_of_removal hstore ho hkind

theorem retiredHostname_of_isRetired {db : Db} (h : (db.view i).isRetired = true) :
    retiredHostname db i ≠ none := by
  obtain ⟨r, hr, hstate⟩ := View.isRetired_iff.mp h
  have hfind : db.installations.find? i = some r := hr
  simp [retiredHostname, hfind, Option.filter, hstate]

/-- An attempt that finished a removal. -/
def Cleared (tr : List (Event Workers DnsAction)) (v : View) (k : Nat) (a : Attempt) : Prop :=
  a.job.kind.isRemoval = true → a.pc = .outcome true → Removed tr v k a.job

theorem Cleared.open (hpc : a.pc ≠ .outcome true) : Cleared tr v k a :=
  fun _ hout => absurd hout hpc

theorem Cleared.progress {act : AttemptAction} {db' : Db} (hrun : DnsRun cfg tr g)
    (ha : g.attempts k = some a) (hp : Progress cfg g.db a act a' db') (hsrc : e.src = g)
    (hlabel : e.label = .attempt k act) :
    Cleared (e :: tr) (db'.view a'.job.installationId) k a' := by
  have hcoherent := Coherent.run hrun k a ha
  cases hp with
  | read _ hpc hread =>
    cases hread with
    | unpublished hkind hid =>
      intro hkind'
      rw [show a.job.kind.isRemoval = true from hkind'] at hkind
      cases hkind
    | unretired hkind hid =>
      exact absurd hid (retiredHostname_of_isRetired (attempted_removal hrun ha hkind))
    | _ => exact .open (by simp)
  | observe w visible hpc =>
    intro hkind hout
    have hw : a.pc.work? = some w := by rw [hpc]; rfl
    have hwork := hcoherent.work w hw
    have hfits := (Relies.run hrun k a ha).work w hw
    have hvisible : visible = true := by
      by_contra hno
      simp [observed, hno] at hout
    subst hvisible
    have hobs : observationOf? e = some (a, w) := by
      simp [observationOf?, hlabel, hsrc, ha, hpc]
    have hquiet := undisturbed_of_work hrun ha hw hsrc
    have hsaw : Saw k a.job w e tr :=
      ⟨hlabel, ⟨a, hobs, rfl⟩, hquiet, (Backed.run hrun k a ha).written w (.inr hpc)⟩
    refine ⟨w, hwork, ?_, .now hsaw⟩
    cases w with
    | removeRecords hostname | removeTxtAll hostname => exact hfits
    | publishName | reconcileTxt => cases hout
  | mark w op now acknowledged hpc hop =>
    intro hkind
    have hw : a.pc.work? = some w := by rw [hpc]; rfl
    have hremoval : w.kind.isRemoval = true := by
      rw [hcoherent.work w hw]
      exact hkind
    cases w with
    | publishName | reconcileTxt => cases hremoval
    | removeRecords | removeTxtAll => cases hop
  | _ => exact .open fun hdone => by cases hdone

theorem Cleared.run (h : DnsRun cfg tr g) :
    ∀ k a, g.attempts k = some a → Cleared tr (g.db.view a.job.installationId) k a := by
  refine h.invariant (fun tr g => ∀ k a, g.attempts k = some a →
    Cleared tr (g.db.view a.job.installationId) k a) ?_ ?_
  · intro k a ha
    cases ha
  · intro tr g action g' hrun hcleared hs k a ha
    have hm := dnsMoves_of_step hs
    cases hm.came ha with
    | stayed ha₀ hother =>
      intro hkind hpc
      obtain ⟨c, hlife⟩ := hm.life a.job.installationId
      exact (hcleared k a ha₀ hkind hpc).step hlife
    | claimed worker now o hk ho hclaim heq hdb =>
      subst heq
      exact .open nofun
    | locked a₀ ha₀ hpc heq hdb =>
      subst heq
      exact .open nofun
    | progressed a₀ act ha₀ hact hp => exact .progress hrun ha₀ hp rfl hact

/-- A step completes the removal `job` of records at `hostname`, after its attempt made the change and
then saw it in place. -/
def RemovalDone (job : OutboxJob) (hostname : String) (e : Event Workers DnsAction)
    (earlier : List (Event Workers DnsAction)) : Prop :=
  ∃ k now a w, e.label = .attempt k (.finish now) ∧ completionOf? e = some a ∧ a.job = job ∧
    w.kind = job.kind ∧ w.write.hostname = hostname ∧ Happened (Saw k job w) earlier

/-- Every removal that is completed was done. -/
theorem removals_done (h : DnsRun cfg tr g) (ho : o ∈ g.db.outbox)
    (hkind : o.kind.isRemoval = true) (hdone : o.completedAt ≠ none) :
    ∃ hostname, RetiredAs (g.db.view o.installationId) hostname ∧
      Happened (RemovalDone (outboxJob o) hostname) tr := by
  have hall : ∀ o ∈ g.db.outbox, o.kind.isRemoval = true → o.completedAt ≠ none →
      ∃ hostname, RetiredAs (g.db.view o.installationId) hostname ∧
        Happened (RemovalDone (outboxJob o) hostname) tr := by
    refine h.invariant (fun tr g => ∀ o ∈ g.db.outbox, o.kind.isRemoval = true →
      o.completedAt ≠ none → ∃ hostname, RetiredAs (g.db.view o.installationId) hostname ∧
        Happened (RemovalDone (outboxJob o) hostname) tr) ?_ ?_
    · intro o ho
      cases ho
    · intro tr g action g' hrun hinv hs o' ho' hkind hdone
      have hm := dnsMoves_of_step hs
      obtain ⟨o, ho, hjob, hbefore⟩ := hm.job_before ho' hdone
      have hi : o.installationId = o'.installationId := congrArg OutboxJob.installationId hjob
      have hkind₀ : o.kind = o'.kind := congrArg OutboxJob.kind hjob
      rw [← hjob, ← hi]
      rw [← hkind₀] at hkind
      obtain ⟨c, hlife⟩ := hm.life o.installationId
      rcases hbefore with hold | ⟨a, hcomplete, hid⟩
      · obtain ⟨hostname, hret, hhappened⟩ := hinv o ho hkind hold
        exact ⟨hostname, hret.step hlife, hhappened.cons⟩
      · obtain ⟨k, now, hlabel, ha, hpc⟩ := completionOf?_eq_some hcomplete
        have hid₀ : a.job.id = o.id := hid.trans (congrArg OutboxJob.id hjob).symm
        have hajob : a.job = outboxJob o := job_of_id hrun ha ho hid₀
        have hcleared := Cleared.run hrun k a ha
        rw [Cleared, hajob] at hcleared
        obtain ⟨w, hwkind, hret, hsaw⟩ := hcleared hkind hpc
        exact ⟨_, hret.step hlife, .now ⟨k, now, a, w, hlabel, hcomplete, hajob, hwkind, rfl, hsaw⟩⟩
  exact hall o ho hkind hdone

theorem removal_queued (hrun : DnsRun cfg tr g) {r : Installation}
    (hr : g.db.installations.find? i = some r) (hret : r.state = .retired) {kind : JobKind}
    (hkind : kind.isRemoval = true) : ∃ o ∈ g.db.outbox, o.installationId = i ∧ o.kind = kind := by
  obtain ⟨calls, hstore⟩ := storeRun_of_run hrun
  have hretired : (g.db.view i).isRetired = true := View.isRetired_iff.mpr ⟨r, hr, hret⟩
  have hcount := (Retiring.run (life_run hstore i)).removals kind hkind
  rw [hretired, if_pos rfl] at hcount
  have hpos : 0 < (g.db.view i).queued kind := by omega
  obtain ⟨o, ho, hk⟩ := List.countP_pos_iff.mp hpos
  obtain ⟨ho, hi⟩ := List.mem_filter.mp ho
  exact ⟨o, ho, by simpa using hi, by simpa using hk⟩

/-- **No reconciliation is lost.** In every state that the store and the workers reach, whatever
attempts fail, are deferred or are dropped: the challenge set of an installation is ready, or a
reconciliation waits that has not read its target or has read the current revision; the account and
the placement are those of the last completed publication, or a publication waits that has not read
the identity or has read the current one; and a removal of a retired installation waits, or it was
completed after the records were removed and seen to be gone. -/
theorem no_lost_reconciliation (h : DnsRun cfg tr g) {r : Installation}
    (hr : g.db.installations.find? i = some r) :
    (r.state ≠ .retired → ∀ s, g.db.challengeState.find? i = some s →
      s.readyRevision ≠ some s.revision → 0 < s.revision →
      Waiting g i .reconcileTxt fun a => a.revision = none ∨ a.revision = some s.revision) ∧
    (r.state ≠ .retired → ∀ uri, r.acmeAccountUri = some uri →
      lastPublished i tr ≠ some (uri, r.placement) →
      Waiting g i .publishName fun a =>
        a.identity = none ∨ a.identity = some (some (r.hostname, uri, r.placement))) ∧
    (r.state = .retired → ∀ kind : JobKind, kind.isRemoval = true →
      (∃ o ∈ g.db.outbox, o.installationId = i ∧ o.kind = kind) ∧
      ∀ o ∈ g.db.outbox, o.installationId = i → o.kind = kind →
        o.completedAt = none ∨ Happened (RemovalDone (outboxJob o) r.hostname) tr) := by
  have hview : (g.db.view i).row = some r := hr
  refine ⟨fun hstate s hs hready hpos => ?_, fun hstate uri huri hlast => ?_,
    fun hret kind hkind => ⟨removal_queued h hr hret hkind, fun o ho hi hk => ?_⟩⟩
  · have hrevision : (g.db.view i).revision = s.revision := by simp [View.revision, Db.view, hs]
    have hreadyv : (g.db.view i).ready = s.readyRevision := by simp [View.ready, Db.view, hs]
    rcases Reconciling.run h i with hret | hzero | hdone | hwait
    · rw [View.isRetired_of_row hview] at hret
      exact absurd (of_decide_eq_true hret) hstate
    · omega
    · rw [hrevision, hreadyv] at hdone
      exact absurd hdone hready
    · rw [hrevision] at hwait
      exact hwait
  · have hid := View.identity_of_row hview hstate huri
    rcases Publishing.run h i with hnone | hpublished | hwait
    · rw [hid] at hnone
      cases hnone
    · rw [hid] at hpublished
      exact absurd hpublished hlast
    · rw [hid] at hwait
      exact hwait
  · by_cases hdone : o.completedAt = none
    · exact .inl hdone
    · obtain ⟨hostname, ⟨r', hr', -, hname⟩, hhappened⟩ := removals_done h ho (hk ▸ hkind) hdone
      rw [hi] at hr'
      obtain rfl : r' = r := Option.some.inj (hr'.symm.trans hview)
      exact .inr (hname ▸ hhappened)

/-- The run of `readyActions` up to the commit of the challenge value. -/
def ensuredActions : List DnsAction := readyActions.take 13

/-- The installation then. -/
def ensuredRow : Installation :=
  ⟨7, allocatedHostname 9, 5, "edge-1", 2, .dnsReady, some accountUri, 0, none⟩

theorem no_lost_reconciliation_ensured :
    ∃ tr g, DnsRun edgeDns tr g ∧ g.db.installations.find? 7 = some ensuredRow ∧
      Waiting g 7 .reconcileTxt fun a => a.revision = none ∨ a.revision = some 1 := by
  have hplay : ((Run.play (Workers.step edgeDns) (Workers.start .migrated) ensuredActions).map
      fun g => (g.db.installations.find? 7, g.db.challengeState.find? 7)) =
        some (some ensuredRow, some ⟨7, 1, none⟩) := by
    decide +kernel
  obtain ⟨g, hg, hfacts⟩ := Option.map_eq_some_iff.1 hplay
  obtain ⟨hrow, hstate⟩ := Prod.mk.inj hfacts
  obtain ⟨tr, hrun, -⟩ := Run.of_play hg
  refine ⟨tr, g, hrun, hrow, ?_⟩
  exact (no_lost_reconciliation hrun hrow).1 nofun ⟨7, 1, none⟩ hstate nofun (by decide)

end BloomRelay.Control
