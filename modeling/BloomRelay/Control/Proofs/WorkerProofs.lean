import BloomRelay.Control.DnsWorker
import BloomRelay.Store.Proofs.QueueProofs

/-!
# What the DNS workers hold

The inversion of a step, the run of the store below a run of the workers, and what an attempt holds
from its claim to its end: the row of its job and, once it is past the lock, the lock of its
installation. So no two attempts work for one installation, and while an attempt works its installation
is neither retired nor moved.
-/

namespace BloomRelay.Control

open Protocol Store Dns

variable {cfg : DnsConfig} {g g' : Workers} {action : DnsAction} {k k' : Nat} {a a' : Attempt}
  {tr : List (Event Workers DnsAction)}

/-! ## Steps -/

/-- What an attempt can find when it starts to process its job. -/
inductive ReadNext (db : Db) (a : Attempt) : Attempt → Prop where
  | outside (hscope : a.worker.scope.allows a.job.kind = false) :
      ReadNext db a { a with pc := .outcome false }
  | unpublished (hkind : a.job.kind.isRemoval = false)
      (hid : dnsIdentity db a.job.installationId = none) :
      ReadNext db a { a with identity := some none, pc := .outcome true }
  | elsewhere (hkind : a.job.kind.isRemoval = false) (hostname uri placement : String)
      (hid : dnsIdentity db a.job.installationId = some (hostname, uri, placement))
      (hplace : placement ≠ a.worker.placement) :
      ReadNext db a
        { a with identity := some (some (hostname, uri, placement)), pc := .outcome false }
  | publish (hkind : a.job.kind = .publishName) (hostname uri : String)
      (hid : dnsIdentity db a.job.installationId = some (hostname, uri, a.worker.placement)) :
      ReadNext db a { a with
        identity := some (some (hostname, uri, a.worker.placement))
        pc := .write (.publishName ⟨hostname, a.worker.ingress, uri⟩) }
  | reconcile (hkind : a.job.kind = .reconcileTxt) (hostname uri : String)
      (hid : dnsIdentity db a.job.installationId = some (hostname, uri, a.worker.placement)) :
      ReadNext db a { a with
        identity := some (some (hostname, uri, a.worker.placement))
        pc := .target hostname }
  | unretired (hkind : a.job.kind.isRemoval = true)
      (hid : retiredHostname db a.job.installationId = none) :
      ReadNext db a { a with pc := .outcome true }
  | removeRecords (hkind : a.job.kind = .removeRecords) (hostname : String)
      (hid : retiredHostname db a.job.installationId = some hostname) :
      ReadNext db a { a with pc := .write (.removeRecords hostname) }
  | removeTxtAll (hkind : a.job.kind = .removeTxtAll) (hostname : String)
      (hid : retiredHostname db a.job.installationId = some hostname) :
      ReadNext db a { a with pc := .write (.removeTxtAll hostname) }

theorem readNext (db : Db) (a : Attempt) : ReadNext db a (readStep db a) := by
  unfold readStep
  split
  · split <;> rename_i hkind
    · split <;> rename_i hid
      · rw [hid]
        exact .unpublished (by rw [hkind]; rfl) hid
      · split <;> rename_i hplace
        · subst hplace
          rw [hid]
          exact .publish hkind _ _ hid
        · rw [hid]
          exact .elsewhere (by rw [hkind]; rfl) _ _ _ hid hplace
    · split <;> rename_i hid
      · rw [hid]
        exact .unpublished (by rw [hkind]; rfl) hid
      · split <;> rename_i hplace
        · subst hplace
          rw [hid]
          exact .reconcile hkind _ _ hid
        · rw [hid]
          exact .elsewhere (by rw [hkind]; rfl) _ _ _ hid hplace
    · split <;> rename_i hid
      · exact .unretired (by rw [hkind]; rfl) hid
      · exact .removeRecords hkind _ hid
    · split <;> rename_i hid
      · exact .unretired (by rw [hkind]; rfl) hid
      · exact .removeTxtAll hkind _ hid
  · rename_i hscope
    exact .outside (by simpa using hscope)

/-- After an observation that is nothing to record, the attempt is at its end. -/
theorem observed_outcome {i : Uuid} {w : Work} {visible : Bool}
    (h : ¬ (visible = true ∧ (w.markOp? i).isSome = true)) :
    ∃ finished, observed i w visible = .outcome finished := by
  unfold observed
  split_ifs with hvisible hsome
  · exact absurd ⟨hvisible, hsome⟩ h
  · exact ⟨true, rfl⟩
  · exact ⟨false, rfl⟩

/-- A step of an attempt that has its locks and keeps them. -/
inductive Progress (cfg : DnsConfig) (db : Db) (a : Attempt) :
    AttemptAction → Attempt → Db → Prop where
  | read (a' : Attempt) (hpc : a.pc = .read) (h : ReadNext db a a') : Progress cfg db a .read a' db
  | target (hostname : String) (hpc : a.pc = .target hostname) :
      Progress cfg db a .target (targetStep db a hostname) db
  | start (w : Work) (hpc : a.pc = .write w) :
      Progress cfg db a .start { a with pc := .writing w false } db
  | apply (w : Work) (applied : Bool) (hpc : a.pc = .writing w applied) :
      Progress cfg db a .apply { a with pc := .writing w true } db
  | accepted (w : Work) (hpc : a.pc = .writing w true) :
      Progress cfg db a (.answer true) { a with pc := .observe w } db
  | refused (w : Work) (applied : Bool) (hpc : a.pc = .writing w applied) :
      Progress cfg db a (.answer false) { a with pc := .outcome false } db
  | observe (w : Work) (visible : Bool) (hpc : a.pc = .observe w) :
      Progress cfg db a (.observe visible)
        { a with pc := observed a.job.installationId w visible } db
  | mark (w : Work) (op : StoreOp) (now : Time) (acknowledged : Bool) (hpc : a.pc = .mark w)
      (hop : w.markOp? a.job.installationId = some op) :
      Progress cfg db a (.mark now acknowledged)
        { a with pc := marked ((workerCall cfg now op).exec cfg.sha256 db) acknowledged }
        ((workerCall cfg now op).after cfg.sha256 db)
  | fail (hlock : a.pc ≠ .lock) (hopen : ∀ finished, a.pc ≠ .outcome finished) :
      Progress cfg db a .fail { a with pc := .outcome false } db

/-- Everything a step can do. -/
inductive DnsMoves (cfg : DnsConfig) (g : Workers) : DnsAction → Workers → Prop where
  | store (call : Call) (hop : byWorker call.op = false)
      (hfree : ∀ i, lockedInstallation? call.op = some i →
        g.installationLocks (cfg.lockKey i) = none) :
      DnsMoves cfg g (.store call) { g with db := call.after cfg.sha256 g.db }
  | claim (k : Nat) (worker : DnsWorker) (now : Time) (o : OutboxRow) (hk : g.attempts k = none)
      (ho : o ∈ g.db.outbox) (hclaim : claimable g.db now worker.placement worker.scope o = true)
      (hjob : g.jobLocks o.id = none) :
      DnsMoves cfg g (.claim k worker now)
        ({ g with jobLocks := Function.update g.jobLocks o.id (some k) }.setAttempt k
          ⟨worker, outboxJob o, none, none, .lock⟩)
  | lock (k : Nat) (a : Attempt) (ha : g.attempts k = some a) (hpc : a.pc = .lock)
      (hfree : g.installationLocks (cfg.lockKey a.job.installationId) = none) :
      DnsMoves cfg g (.attempt k .lock)
        ({ g with
          installationLocks := Function.update g.installationLocks
            (cfg.lockKey a.job.installationId) (some k) }.setAttempt k { a with pc := .read })
  | progress (k : Nat) (a : Attempt) (act : AttemptAction) (a' : Attempt) (db' : Db)
      (ha : g.attempts k = some a) (h : Progress cfg g.db a act a' db') :
      DnsMoves cfg g (.attempt k act) ({ g with db := db' }.setAttempt k a')
  | finish (k : Nat) (a : Attempt) (finished : Bool) (now : Time) (ha : g.attempts k = some a)
      (hpc : a.pc = .outcome finished) :
      DnsMoves cfg g (.attempt k (.finish now)) ({ g with
        db := (workerCall cfg now (outcomeOp a.job finished)).after cfg.sha256 g.db }.release k)
  | drop (k : Nat) (a : Attempt) (ha : g.attempts k = some a) :
      DnsMoves cfg g (.attempt k .drop) (g.release k)

theorem dnsMoves_of_attemptStep {act : AttemptAction} (ha : g.attempts k = some a)
    (h : attemptStep cfg g k a act = some g') : DnsMoves cfg g (.attempt k act) g' := by
  unfold attemptStep at h
  split at h <;> rename_i hpc
  · split at h
    · rename_i hfree
      cases h
      exact .lock k a ha hpc (by simpa [Workers.unlocked] using hfree)
    · cases h
  · cases h
    exact .progress k a _ _ g.db ha (.read _ hpc (readNext g.db a))
  · cases h
    exact .progress k a _ _ g.db ha (.target _ hpc)
  · cases h
    exact .progress k a _ _ g.db ha (.start _ hpc)
  · cases h
    exact .progress k a _ _ g.db ha (.apply _ _ hpc)
  · cases h
    exact .progress k a _ _ g.db ha (.accepted _ hpc)
  · cases h
    exact .progress k a _ _ g.db ha (.refused _ _ hpc)
  · cases h
    exact .progress k a _ _ g.db ha (.observe _ _ hpc)
  · obtain ⟨op, hop, rfl⟩ := Option.map_eq_some_iff.mp h
    exact .progress k a _ _ _ ha (.mark _ op _ _ hpc hop)
  · cases h
    exact .finish k a _ _ ha hpc
  · cases h
  · cases h
  · rename_i hlock
    cases h
    exact .progress k a _ _ g.db ha (.fail hlock hpc)
  · cases h
    exact .drop k a ha
  · cases h

theorem dnsMoves_of_step (h : DnsStep cfg g action g') : DnsMoves cfg g action g' := by
  cases action with
  | store call =>
    simp only [DnsStep, Workers.step, Option.ite_none_right_eq_some, Option.some.injEq] at h
    obtain ⟨⟨hop, hfree⟩, rfl⟩ := h
    refine .store call hop fun i hi => ?_
    simpa [hi, Workers.unlocked] using hfree
  | claim k worker now =>
    simp only [DnsStep, Workers.step, Option.ite_none_right_eq_some, Option.map_eq_some_iff] at h
    obtain ⟨hk, o, ho, rfl⟩ := h
    have hsel := List.find?_some ho
    simp only [Bool.and_eq_true, Option.isNone_iff_eq_none] at hsel
    exact .claim k worker now o hk (List.mem_of_find?_eq_some ho) hsel.1 hsel.2
  | attempt k act =>
    obtain ⟨a, ha, hstep⟩ := Option.bind_eq_some_iff.mp h
    exact dnsMoves_of_attemptStep ha hstep

/-- The attempt keeps its job and its worker. -/
theorem Progress.kept {db db' : Db} {act : AttemptAction} (h : Progress cfg db a act a' db') :
    a'.job = a.job ∧ a'.worker = a.worker := by
  cases h with
  | read _ hpc hread => cases hread <;> exact ⟨rfl, rfl⟩
  | _ => exact ⟨rfl, rfl⟩

theorem Progress.past_lock {db db' : Db} {act : AttemptAction} (h : Progress cfg db a act a' db') :
    a.pc ≠ .lock ∧ a'.pc ≠ .lock := by
  cases h with
  | read _ hpc hread => exact ⟨by rw [hpc]; nofun, by cases hread <;> nofun⟩
  | target hostname hpc | start w hpc | apply w applied hpc | accepted w hpc | refused w applied hpc
  | mark w op now acknowledged hpc => exact ⟨by rw [hpc]; nofun, nofun⟩
  | observe w visible hpc =>
    refine ⟨by rw [hpc]; nofun, ?_⟩
    show observed a.job.installationId w visible ≠ .lock
    unfold observed
    split_ifs <;> nofun
  | fail hlock hopen => exact ⟨hlock, nofun⟩

/-! ## The run of the store -/

/-- A worker's transaction or another's: the database takes a step of the store, or none. -/
theorem DnsMoves.store_step (h : DnsMoves cfg g action g') :
    g'.db = g.db ∨ ∃ call : Call, g'.db = call.after cfg.sha256 g.db := by
  cases h with
  | store call => exact .inr ⟨call, rfl⟩
  | claim | lock | drop => exact .inl rfl
  | progress k a act a' db' ha h =>
    cases h with
    | mark w op now acknowledged => exact .inr ⟨_, rfl⟩
    | _ => exact .inl rfl
  | finish => exact .inr ⟨_, rfl⟩

/-- Below every run of the workers is a run of the store. -/
theorem storeRun_of_run (h : DnsRun cfg tr g) : ∃ calls, StoreRun cfg.sha256 calls g.db := by
  refine h.state_invariant (fun g => ∃ calls, StoreRun cfg.sha256 calls g.db) ⟨[], .refl⟩ ?_
  rintro g action g' ⟨calls, hrun⟩ hstep
  obtain heq | ⟨call, heq⟩ := (dnsMoves_of_step hstep).store_step
  · exact ⟨calls, heq ▸ hrun⟩
  · exact ⟨_, hrun.snoc heq⟩

/-! ## Locks -/

/-- Every attempt holds the row of its job, and past the lock the lock of its installation. -/
structure Locked (cfg : DnsConfig) (g : Workers) : Prop where
  job : ∀ k a, g.attempts k = some a → g.jobLocks a.job.id = some k
  installation : ∀ k a, g.attempts k = some a → a.pc ≠ .lock →
    g.installationLocks (cfg.lockKey a.job.installationId) = some k

namespace Locked

theorem start : Locked cfg (Workers.start .migrated) := by
  constructor
  · intro k a ha
    cases ha
  · intro k a ha
    cases ha

theorem release (h : Locked cfg g) (k : Nat) : Locked cfg (g.release k) := by
  constructor
  · intro k' a' ha'
    obtain ⟨hk, ha'⟩ : k' ≠ k ∧ g.attempts k' = some a' := by
      simpa [Workers.release, Function.update_apply] using ha'
    simp [Workers.release, h.job k' a' ha', hk]
  · intro k' a' ha' hpast
    obtain ⟨hk, ha'⟩ : k' ≠ k ∧ g.attempts k' = some a' := by
      simpa [Workers.release, Function.update_apply] using ha'
    simp [Workers.release, h.installation k' a' ha' hpast, hk]

/-- An attempt moves on with the job and the locks it has. -/
theorem set (h : Locked cfg g) (db' : Db) (ha : g.attempts k = some a) (hjob : a'.job = a.job)
    (hpast : a'.pc ≠ .lock → a.pc ≠ .lock) :
    Locked cfg ({ g with db := db' }.setAttempt k a') := by
  constructor
  · intro k₁ a₁ h₁
    by_cases hk : k₁ = k
    · obtain rfl : a' = a₁ := by simpa [Workers.setAttempt, hk] using h₁
      rw [hjob, hk]
      exact h.job k a ha
    · exact h.job k₁ a₁ (by simpa [Workers.setAttempt, Function.update_apply, hk] using h₁)
  · intro k₁ a₁ h₁ hpc
    by_cases hk : k₁ = k
    · obtain rfl : a' = a₁ := by simpa [Workers.setAttempt, hk] using h₁
      rw [hjob, hk]
      exact h.installation k a ha (hpast hpc)
    · exact h.installation k₁ a₁ (by simpa [Workers.setAttempt, Function.update_apply, hk] using h₁)
        hpc

theorem step (h : Locked cfg g) (hm : DnsMoves cfg g action g') : Locked cfg g' := by
  cases hm with
  | store call => exact ⟨h.job, h.installation⟩
  | claim k worker now o hk ho hclaim hjob =>
    constructor
    · intro k₁ a₁ h₁
      by_cases hk₁ : k₁ = k
      · obtain rfl : (⟨worker, outboxJob o, none, none, .lock⟩ : Attempt) = a₁ := by
          simpa [Workers.setAttempt, hk₁] using h₁
        simp [Workers.setAttempt, outboxJob, hk₁]
      · have hold := h.job k₁ a₁
          (by simpa [Workers.setAttempt, Function.update_apply, hk₁] using h₁)
        have hne : a₁.job.id ≠ o.id := by
          intro heq
          rw [heq, hjob] at hold
          cases hold
        simpa [Workers.setAttempt, Function.update_apply, hne] using hold
    · intro k₁ a₁ h₁ hpc
      by_cases hk₁ : k₁ = k
      · obtain rfl : (⟨worker, outboxJob o, none, none, .lock⟩ : Attempt) = a₁ := by
          simpa [Workers.setAttempt, hk₁] using h₁
        exact absurd rfl hpc
      · exact h.installation k₁ a₁
          (by simpa [Workers.setAttempt, Function.update_apply, hk₁] using h₁) hpc
  | lock k a ha hpc hfree =>
    constructor
    · intro k₁ a₁ h₁
      by_cases hk₁ : k₁ = k
      · obtain rfl : { a with pc := .read } = a₁ := by simpa [Workers.setAttempt, hk₁] using h₁
        rw [hk₁]
        exact h.job k a ha
      · exact h.job k₁ a₁ (by simpa [Workers.setAttempt, Function.update_apply, hk₁] using h₁)
    · intro k₁ a₁ h₁ hpast
      by_cases hk₁ : k₁ = k
      · obtain rfl : { a with pc := .read } = a₁ := by simpa [Workers.setAttempt, hk₁] using h₁
        simp [Workers.setAttempt, hk₁]
      · have hold := h.installation k₁ a₁
          (by simpa [Workers.setAttempt, Function.update_apply, hk₁] using h₁) hpast
        have hne : cfg.lockKey a₁.job.installationId ≠ cfg.lockKey a.job.installationId := by
          intro heq
          rw [heq, hfree] at hold
          cases hold
        simpa [Workers.setAttempt, Function.update_apply, hne] using hold
  | progress k a act a' db' ha hp =>
    exact h.set db' ha hp.kept.1 fun _ => hp.past_lock.1
  | finish k a finished now ha hpc =>
    have hdb : Locked cfg { g with
        db := (workerCall cfg now (outcomeOp a.job finished)).after cfg.sha256 g.db } :=
      ⟨h.job, h.installation⟩
    exact hdb.release k
  | drop k a ha => exact h.release k

theorem run (h : DnsRun cfg tr g) : Locked cfg g :=
  h.state_invariant (Locked cfg) start fun _ _ _ hl hs => hl.step (dnsMoves_of_step hs)

/-- Two attempts past the lock of one installation are the same attempt. -/
theorem eq_of_installation (h : Locked cfg g) (ha : g.attempts k = some a) (hpc : a.pc ≠ .lock)
    (ha' : g.attempts k' = some a') (hpc' : a'.pc ≠ .lock)
    (hi : a.job.installationId = a'.job.installationId) : k = k' := by
  have hholder := h.installation k a ha hpc
  rw [hi, h.installation k' a' ha' hpc'] at hholder
  exact (Option.some.inj hholder).symm

/-- Two attempts at one job are the same attempt. -/
theorem eq_of_job (h : Locked cfg g) (ha : g.attempts k = some a) (ha' : g.attempts k' = some a')
    (hid : a.job.id = a'.job.id) : k = k' := by
  have hholder := h.job k a ha
  rw [hid, h.job k' a' ha'] at hholder
  exact (Option.some.inj hholder).symm

end Locked

/-! ## What other transactions do to a locked installation -/

/-- The changes an attempt relies on not to happen beside it. -/
def steers : Change → Bool
  | .retired | .relocated | .reconciled => true
  | _ => false

/-- The transactions that retire or move an installation take its lock; a reconciliation is a
worker's. -/
theorem steered_by {sha256 : Bytes → Bytes32} {call : Call} {db : Db} {i : Uuid}
    (h : steers (call.change sha256 db i) = true) :
    (lockedInstallation? call.op = some i ∧ call.change sha256 db i ≠ .reconciled) ∨
      ∃ revision, call.op = .markChallengeReconciled i revision := by
  have hby := call_changedBy sha256 call db i
  generalize call.change sha256 db i = change at h hby ⊢
  generalize call.op = op at hby ⊢
  cases hby with
  | relocated | retired | expired => exact .inl ⟨rfl, nofun⟩
  | reconciled revision => exact .inr ⟨revision, rfl⟩
  | _ => cases h

/-- Where the attempts after a step come from. -/
inductive Came (cfg : DnsConfig) (g : Workers) (action : DnsAction) (g' : Workers) (k : Nat)
    (a : Attempt) : Prop where
  | stayed (ha : g.attempts k = some a) (hother : ∀ act, action ≠ .attempt k act)
  | claimed (worker : DnsWorker) (now : Time) (o : OutboxRow) (hk : g.attempts k = none)
      (ho : o ∈ g.db.outbox) (hclaim : claimable g.db now worker.placement worker.scope o = true)
      (heq : a = ⟨worker, outboxJob o, none, none, .lock⟩) (hdb : g'.db = g.db)
  | locked (a₀ : Attempt) (ha : g.attempts k = some a₀) (hpc : a₀.pc = .lock)
      (heq : a = { a₀ with pc := .read }) (hdb : g'.db = g.db)
  | progressed (a₀ : Attempt) (act : AttemptAction) (ha : g.attempts k = some a₀)
      (hact : action = .attempt k act) (hp : Progress cfg g.db a₀ act a g'.db)

theorem DnsMoves.came (h : DnsMoves cfg g action g') (ha : g'.attempts k = some a) :
    Came cfg g action g' k a := by
  cases h with
  | store call => exact .stayed ha nofun
  | claim k₁ worker now o hk ho hclaim hjob =>
    by_cases hk₁ : k = k₁
    · subst hk₁
      have heq : (⟨worker, outboxJob o, none, none, .lock⟩ : Attempt) = a := by
        simpa [Workers.setAttempt] using ha
      exact .claimed worker now o hk ho hclaim heq.symm rfl
    · exact .stayed (by simpa [Workers.setAttempt, Function.update_apply, hk₁] using ha) nofun
  | lock k₁ a₁ ha₁ hpc hfree =>
    by_cases hk₁ : k = k₁
    · subst hk₁
      have heq : { a₁ with pc := .read } = a := by simpa [Workers.setAttempt] using ha
      exact .locked a₁ ha₁ hpc heq.symm rfl
    · refine .stayed (by simpa [Workers.setAttempt, Function.update_apply, hk₁] using ha) ?_
      rintro act ⟨⟩
      exact hk₁ rfl
  | progress k₁ a₁ act a' db' ha₁ hp =>
    by_cases hk₁ : k = k₁
    · subst hk₁
      obtain rfl : a' = a := by simpa [Workers.setAttempt] using ha
      exact .progressed a₁ act ha₁ rfl hp
    · refine .stayed (by simpa [Workers.setAttempt, Function.update_apply, hk₁] using ha) ?_
      rintro act' ⟨⟩
      exact hk₁ rfl
  | finish k₁ a₁ finished now ha₁ hpc =>
    obtain ⟨hk₁, ha⟩ : k ≠ k₁ ∧ g.attempts k = some a := by
      simpa [Workers.release, Function.update_apply] using ha
    refine .stayed ha ?_
    rintro act ⟨⟩
    exact hk₁ rfl
  | drop k₁ a₁ ha₁ =>
    obtain ⟨hk₁, ha⟩ : k ≠ k₁ ∧ g.attempts k = some a := by
      simpa [Workers.release, Function.update_apply] using ha
    refine .stayed ha ?_
    rintro act ⟨⟩
    exact hk₁ rfl

/-- What an attempt changes about an installation that is not its own. -/
theorem Progress.other_installation {db db' : Db} {act : AttemptAction} {i : Uuid}
    (h : Progress cfg db a act a' db') (hi : i ≠ a.job.installationId) :
    ∃ c, LifeStep i (db.view i) c (db'.view i) ∧ steers c = false ∧ ∀ uri, c ≠ .bound uri := by
  cases h with
  | mark w op now acknowledged hpc hop =>
    refine ⟨_, life_step (workerCall cfg now op) db i, ?_⟩
    have hby : ChangedBy i op ((workerCall cfg now op).change cfg.sha256 db i) :=
      call_changedBy cfg.sha256 (workerCall cfg now op) db i
    generalize (workerCall cfg now op).change cfg.sha256 db i = c at hby
    cases w <;> cases hop <;> cases hby
    · exact ⟨rfl, nofun⟩
    · exact ⟨rfl, nofun⟩
    · exact absurd rfl hi
  | _ => exact ⟨.other, .same _, rfl, nofun⟩

/-- While an attempt works, what others do to its installation does not steer it; they may bind it to
another account. -/
theorem DnsMoves.beside (h : DnsMoves cfg g action g') (hl : Locked cfg g)
    (ha : g.attempts k = some a) (hpc : a.pc ≠ .lock) (hother : ∀ act, action ≠ .attempt k act) :
    ∃ c, LifeStep a.job.installationId (g.db.view a.job.installationId) c
      (g'.db.view a.job.installationId) ∧ steers c = false ∧
      ∀ uri, c = .bound uri → ∃ call, action = .store call ∧
        call.op = .registerAcmeAccount a.job.installationId uri ∧
        (call.exec cfg.sha256 g.db).toBool = true := by
  cases h with
  | store call hop hfree =>
    refine ⟨_, life_step call g.db _, ?_, fun uri hbound => ⟨call, rfl, ?_⟩⟩
    · by_contra hsteers
      rcases steered_by (by simpa using hsteers) with ⟨hlock, -⟩ | ⟨revision, heq⟩
      · have hheld := hl.installation k a ha hpc
        rw [hfree _ hlock] at hheld
        cases hheld
      · rw [heq] at hop
        cases hop
    · have hby := call_changedBy cfg.sha256 call g.db a.job.installationId
      rw [hbound] at hby
      generalize hop' : call.op = op at hby ⊢
      cases hby
      refine ⟨rfl, ?_⟩
      unfold Call.change at hbound
      split at hbound
      · cases hbound
      · rename_i hexec
        rw [hexec]
        rfl
  | claim | lock | drop => exact ⟨.other, .same _, rfl, nofun⟩
  | progress k₁ a₁ act a' db' ha₁ hp =>
    have hne : a.job.installationId ≠ a₁.job.installationId := by
      intro heq
      have hk : k = k₁ := hl.eq_of_installation ha hpc ha₁ hp.past_lock.1 heq
      exact hother act (by rw [hk])
    obtain ⟨c, hs, hc, hbound⟩ := hp.other_installation hne
    exact ⟨c, hs, hc, fun uri heq => absurd heq (hbound uri)⟩
  | finish k₁ a₁ finished now ha₁ hpc₁ =>
    refine ⟨_, life_step (workerCall cfg now (outcomeOp a₁.job finished)) g.db _, ?_⟩
    have hby : ChangedBy a.job.installationId (outcomeOp a₁.job finished)
        ((workerCall cfg now (outcomeOp a₁.job finished)).change cfg.sha256 g.db
          a.job.installationId) :=
      call_changedBy cfg.sha256 (workerCall cfg now (outcomeOp a₁.job finished)) g.db _
    generalize (workerCall cfg now (outcomeOp a₁.job finished)).change cfg.sha256 g.db
      a.job.installationId = c at hby
    cases finished <;> cases hby <;> exact ⟨rfl, nofun⟩

end BloomRelay.Control
