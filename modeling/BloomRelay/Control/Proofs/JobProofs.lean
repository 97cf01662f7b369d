import BloomRelay.Control.Proofs.WorkerProofs
import BloomRelay.Store.Proofs.DesiredProofs

/-!
# Jobs and attempts

A job stays in the outbox and is completed by an attempt that finished it, and only so; the job of an
attempt is not completed as long as the attempt lasts. `Waiting` says that a job is still to be
processed by an attempt that has read nothing older than what is stored now.
-/

namespace BloomRelay.Control

open Protocol Store Dns

variable {cfg : DnsConfig} {g g' : Workers} {action : DnsAction} {k k' : Nat} {a a' : Attempt}
  {tr : List (Event Workers DnsAction)} {i : Uuid} {o o' : OutboxRow} {kind : JobKind}

/-! ## The rows of the outbox -/

theorem completionOf?_eq_some {e : Event Workers DnsAction} (h : completionOf? e = some a) :
    ∃ k now, e.label = .attempt k (.finish now) ∧ e.src.attempts k = some a ∧
      a.pc = .outcome true := by
  unfold completionOf? at h
  split at h
  · rename_i k now hlabel
    obtain ⟨ha, hpc⟩ := Option.filter_eq_some_iff.mp h
    exact ⟨k, now, hlabel, ha, by simpa using hpc⟩
  · cases h

theorem completionOf?_of_finish {now : Time} (ha : g.attempts k = some a)
    (hpc : a.pc = .outcome true) : completionOf? ⟨g, .attempt k (.finish now), g'⟩ = some a := by
  simp [completionOf?, ha, hpc]

theorem outboxJob_recorded (now : Time) (job : Nat) (finished : Bool) (o : OutboxRow) :
    outboxJob (o.recorded now job finished) = outboxJob o := by
  unfold OutboxRow.recorded
  split_ifs <;> rfl

theorem completedAt_recorded {now : Time} {job : Nat} {finished : Bool}
    (h : ¬ (finished = true ∧ o.id = job)) :
    (o.recorded now job finished).completedAt = o.completedAt := by
  unfold OutboxRow.recorded
  split_ifs with hid hfinished
  · exact absurd ⟨hfinished, hid⟩ h
  · rfl
  · rfl

/-- The rows after the outcome of an attempt: recorded, or as they were if that failed. -/
theorem outcome_outbox (cfg : DnsConfig) (now : Time) (job : OutboxJob) (finished : Bool) (db : Db) :
    ((workerCall cfg now (outcomeOp job finished)).after cfg.sha256 db).outbox = db.outbox ∨
      ((workerCall cfg now (outcomeOp job finished)).after cfg.sha256 db).outbox =
        db.outbox.map (OutboxRow.recorded now job.id finished) := by
  obtain heq | ⟨reply, -, htx, -⟩ :=
    after_cases cfg.sha256 (workerCall cfg now (outcomeOp job finished)) db
  · rw [heq]
    exact .inl rfl
  · generalize (workerCall cfg now (outcomeOp job finished)).after cfg.sha256 db = db' at htx ⊢
    cases finished <;> cases htx <;> exact .inr rfl

/-- A step that is not the end of an attempt only queues jobs. -/
theorem DnsMoves.queues (h : DnsMoves cfg g action g') :
    Queues g.db.outbox g'.db.outbox ∨ ∃ k a finished now, action = .attempt k (.finish now) ∧
      g.attempts k = some a ∧ a.pc = .outcome finished ∧
      g'.db.outbox = g.db.outbox.map (OutboxRow.recorded now a.job.id finished) := by
  cases h with
  | store call hop hfree =>
    refine .inl (call_queues ?_ g.db)
    generalize call.op = op at hop ⊢
    cases op <;> first | rfl | cases hop
  | claim | lock | drop => exact .inl .refl
  | progress k a act a' db' ha hp =>
    cases hp with
    | mark w op now acknowledged hpc hop =>
      refine .inl (call_queues ?_ g.db)
      cases w <;> cases hop <;> rfl
    | _ => exact .inl .refl
  | finish k a finished now ha hpc =>
    rcases outcome_outbox cfg now a.job finished g.db with heq | heq
    · refine .inl ?_
      show Queues g.db.outbox
        ((workerCall cfg now (outcomeOp a.job finished)).after cfg.sha256 g.db).outbox
      rw [heq]
      exact .refl
    · exact .inr ⟨k, a, finished, now, rfl, ha, hpc, heq⟩

/-- A row keeps its job, and it is completed by an attempt that finished it. -/
theorem DnsMoves.job_after (h : DnsMoves cfg g action g') (ho : o ∈ g.db.outbox) :
    ∃ o' ∈ g'.db.outbox, outboxJob o' = outboxJob o ∧ (o'.completedAt = o.completedAt ∨
      ∃ a, completionOf? ⟨g, action, g'⟩ = some a ∧ a.job.id = o.id) := by
  rcases h.queues with hq | ⟨k, a, finished, now, rfl, ha, hpc, heq⟩
  · exact ⟨o, hq.mem ho, rfl, .inl rfl⟩
  · refine ⟨o.recorded now a.job.id finished, ?_, outboxJob_recorded _ _ _ _, ?_⟩
    · rw [heq]
      exact List.mem_map_of_mem ho
    · by_cases hdone : finished = true ∧ o.id = a.job.id
      · obtain ⟨rfl, hid⟩ := hdone
        exact .inr ⟨a, completionOf?_of_finish ha hpc, hid.symm⟩
      · exact .inl (completedAt_recorded hdone)

/-- A completed row was completed before, or by an attempt that finished it. -/
theorem DnsMoves.job_before (h : DnsMoves cfg g action g') (ho' : o' ∈ g'.db.outbox)
    (hdone : o'.completedAt ≠ none) :
    ∃ o ∈ g.db.outbox, outboxJob o = outboxJob o' ∧ (o.completedAt ≠ none ∨
      ∃ a, completionOf? ⟨g, action, g'⟩ = some a ∧ a.job.id = o'.id) := by
  rcases h.queues with hq | ⟨k, a, finished, now, rfl, ha, hpc, heq⟩
  · exact ⟨o', hq.mem_of_completed ho' hdone, rfl, .inl hdone⟩
  · rw [heq] at ho'
    obtain ⟨o, ho, rfl⟩ := List.mem_map.mp ho'
    refine ⟨o, ho, (outboxJob_recorded _ _ _ _).symm, ?_⟩
    by_cases hfin : finished = true ∧ o.id = a.job.id
    · obtain ⟨rfl, hid⟩ := hfin
      refine .inr ⟨a, completionOf?_of_finish ha hpc, ?_⟩
      rw [OutboxRow.recorded_id]
      exact hid.symm
    · rw [completedAt_recorded hfin] at hdone
      exact .inl hdone

theorem numbered_of_run (h : DnsRun cfg tr g) : Numbered g.db.outbox := by
  obtain ⟨calls, hrun⟩ := storeRun_of_run h
  exact Numbered.run hrun

/-- Every step is a step in the life of every installation. -/
theorem DnsMoves.life (h : DnsMoves cfg g action g') (i : Uuid) :
    ∃ c, LifeStep i (g.db.view i) c (g'.db.view i) := by
  rcases h.store_step with heq | ⟨call, heq⟩
  · rw [heq]
    exact ⟨.other, .same _⟩
  · rw [heq]
    exact ⟨_, life_step call g.db i⟩

/-! ## The job of an attempt -/

/-- The job of every attempt is a row that is not completed. -/
def Processing (g : Workers) : Prop :=
  ∀ k a, g.attempts k = some a → ∃ o ∈ g.db.outbox, outboxJob o = a.job ∧ o.completedAt = none

theorem Processing.step (h : Processing g) (hl : Locked cfg g) (hm : DnsMoves cfg g action g') :
    Processing g' := by
  intro k a ha
  -- the attempt was at this job before, and goes on
  have hold : ∀ a₀, g.attempts k = some a₀ → a.job = a₀.job →
      (∀ now, action ≠ .attempt k (.finish now)) →
      ∃ o ∈ g'.db.outbox, outboxJob o = a.job ∧ o.completedAt = none := by
    intro a₀ ha₀ hjob hgoes
    obtain ⟨o, ho, heq, hnone⟩ := h k a₀ ha₀
    obtain ⟨o', ho', heq', hkept | ⟨a₁, hdone, hid⟩⟩ := hm.job_after ho
    · exact ⟨o', ho', by rw [heq', heq, hjob], hkept.trans hnone⟩
    · obtain ⟨k₁, now, hlabel, ha₁, -⟩ := completionOf?_eq_some hdone
      have hsame : a₁.job.id = a₀.job.id := by
        rw [hid, ← heq]
        rfl
      have hk : k₁ = k := hl.eq_of_job ha₁ ha₀ hsame
      subst hk
      exact absurd hlabel (hgoes now)
  cases hm.came ha with
  | stayed ha₀ hother => exact hold a ha₀ rfl fun now => hother _
  | claimed worker now o hk ho hclaim heq hdb =>
    subst heq
    rw [hdb]
    simp only [claimable, Bool.and_eq_true, Option.isNone_iff_eq_none] at hclaim
    exact ⟨o, ho, rfl, hclaim.1.2⟩
  | locked a₀ ha₀ hpc heq hdb =>
    rw [hdb, heq]
    exact h k a₀ ha₀
  | progressed a₀ act ha₀ hact hp =>
    refine hold a₀ ha₀ hp.kept.1 fun now heq => ?_
    rw [hact] at heq
    cases heq
    cases hp

theorem Processing.run (h : DnsRun cfg tr g) : Processing g := by
  refine h.invariant (fun _ g => Processing g) ?_ ?_
  · intro k a ha
    cases ha
  · intro tr g action g' hrun hproc hs
    exact hproc.step (Locked.run hrun) (dnsMoves_of_step hs)

/-- The row with the number of an attempt's job is its job. -/
theorem job_of_id (h : DnsRun cfg tr g) (ha : g.attempts k = some a) (ho : o ∈ g.db.outbox)
    (hid : a.job.id = o.id) : a.job = outboxJob o := by
  obtain ⟨o₁, ho₁, heq, -⟩ := Processing.run h k a ha
  have hid₁ : o₁.id = o.id := by
    rw [← hid, ← heq]
    rfl
  rw [← heq, (numbered_of_run h).id_inj ho₁ ho hid₁]

/-! ## Waiting jobs -/

/-- A job of this kind is not completed, and whoever is at it satisfies `P`. -/
def Waiting (g : Workers) (i : Uuid) (kind : JobKind) (P : Attempt → Prop) : Prop :=
  ∃ o ∈ g.db.outbox, o.installationId = i ∧ o.kind = kind ∧ o.completedAt = none ∧
    ∀ k a, g.attempts k = some a → a.job.id = o.id → P a

theorem Waiting.mono {P Q : Attempt → Prop} (h : Waiting g i kind P) (hPQ : ∀ a, P a → Q a) :
    Waiting g i kind Q := by
  obtain ⟨o, ho, hi, hkind, hnone, hP⟩ := h
  exact ⟨o, ho, hi, hkind, hnone, fun k a ha hid => hPQ a (hP k a ha hid)⟩

/-- Whoever is at a job after a step is at one that was there before it. -/
theorem DnsMoves.job_known (h : DnsMoves cfg g action g') (hproc : Processing g)
    (ha : g'.attempts k = some a) : ∃ o ∈ g.db.outbox, outboxJob o = a.job := by
  cases h.came ha with
  | stayed ha₀ hother =>
    obtain ⟨o, ho, heq, -⟩ := hproc k a ha₀
    exact ⟨o, ho, heq⟩
  | claimed worker now o hk ho hclaim heq hdb =>
    subst heq
    exact ⟨o, ho, rfl⟩
  | locked a₀ ha₀ hpc heq hdb =>
    subst heq
    obtain ⟨o, ho, heq, -⟩ := hproc k a₀ ha₀
    exact ⟨o, ho, heq⟩
  | progressed a₀ act ha₀ hact hp =>
    obtain ⟨o, ho, heq, -⟩ := hproc k a₀ ha₀
    exact ⟨o, ho, by rw [heq, hp.kept.1]⟩

/-- A row from before a step has another number than the one the step queued. -/
theorem fresh_id (hrun : DnsRun cfg tr g) (hs : DnsStep cfg g action g') (hnew : NewJob i kind o)
    (hjobs : (g'.db.view i).jobs = (g.db.view i).jobs ++ [o]) :
    ∀ o₀ ∈ g.db.outbox, o₀.id ≠ o.id := by
  intro o₀ ho₀ hid
  have hnumbered : Numbered g'.db.outbox := numbered_of_run (hrun.snoc hs)
  have hmem : o ∈ (g'.db.view i).jobs := by
    rw [hjobs]
    exact List.mem_append_right _ (List.mem_singleton_self o)
  obtain ⟨o₁, ho₁, heq, -⟩ := (dnsMoves_of_step hs).job_after ho₀
  have hid₁ : o₁.id = o.id := by
    rw [← hid]
    exact congrArg OutboxJob.id heq
  obtain rfl := hnumbered.id_inj ho₁ (List.mem_of_mem_filter hmem) hid₁
  have hi₀ : o₀.installationId = i := by
    rw [← hnew.1]
    exact (congrArg OutboxJob.installationId heq).symm
  have hold : o₀ ∈ (g.db.view i).jobs := List.mem_filter.mpr ⟨ho₀, by simp [hi₀]⟩
  have hnodup : ((g'.db.view i).jobs.map (·.id)).Nodup :=
    hnumbered.nodup.sublist (List.filter_sublist.map _)
  rw [hjobs, List.map_append, List.nodup_append] at hnodup
  exact hnodup.2.2 _ (List.mem_map_of_mem hold) _ (by simp) hid

/-- Nobody is at a job that was just queued. -/
theorem Waiting.fresh (hrun : DnsRun cfg tr g) (hs : DnsStep cfg g action g')
    (hnew : NewJob i kind o) (hjobs : (g'.db.view i).jobs = (g.db.view i).jobs ++ [o])
    (P : Attempt → Prop) : Waiting g' i kind P := by
  have hmem : o ∈ (g'.db.view i).jobs := by
    rw [hjobs]
    exact List.mem_append_right _ (List.mem_singleton_self o)
  refine ⟨o, List.mem_of_mem_filter hmem, hnew.1, hnew.2.1, hnew.2.2, fun k a ha hid => ?_⟩
  obtain ⟨o₀, ho₀, heq⟩ := (dnsMoves_of_step hs).job_known (Processing.run hrun) ha
  refine absurd ?_ (fresh_id hrun hs hnew hjobs o₀ ho₀)
  rw [← hid, ← heq]
  rfl

/-- A job goes on waiting as long as nobody that satisfies `P` completes it and those that are at it
keep `P`. -/
theorem Waiting.step {P : Attempt → Prop} (h : Waiting g i kind P) (hrun : DnsRun cfg tr g)
    (hm : DnsMoves cfg g action g')
    (hnew : ∀ worker job, P ⟨worker, job, none, none, .lock⟩)
    (hlock : ∀ a, P a → P { a with pc := .read })
    (hprogress : ∀ k a₀ act a, g.attempts k = some a₀ → a₀.job.installationId = i →
      a₀.job.kind = kind → Progress cfg g.db a₀ act a g'.db → P a₀ → P a)
    (hdone : ∀ a, completionOf? ⟨g, action, g'⟩ = some a → a.job.installationId = i →
      a.job.kind = kind → ¬ P a) : Waiting g' i kind P := by
  obtain ⟨o, ho, hi, hkind, hnone, hP⟩ := h
  have hjob : ∀ k a, g.attempts k = some a → a.job.id = o.id →
      a.job.installationId = i ∧ a.job.kind = kind := by
    intro k a ha hid
    rw [job_of_id hrun ha ho hid]
    exact ⟨hi, hkind⟩
  obtain ⟨o', ho', heq, hkept | ⟨a, hcomplete, hid⟩⟩ := hm.job_after ho
  · refine ⟨o', ho', ?_, ?_, hkept.trans hnone, fun k a ha hid => ?_⟩
    · exact (congrArg OutboxJob.installationId heq).trans hi
    · exact (congrArg OutboxJob.kind heq).trans hkind
    · replace hid : a.job.id = o.id := hid.trans (congrArg OutboxJob.id heq)
      cases hm.came ha with
      | stayed ha₀ hother => exact hP k a ha₀ hid
      | claimed worker now o₁ hk ho₁ hclaim heq₁ hdb =>
        subst heq₁
        exact hnew worker (outboxJob o₁)
      | locked a₀ ha₀ hpc heq₁ hdb =>
        subst heq₁
        exact hlock a₀ (hP k a₀ ha₀ hid)
      | progressed a₀ act ha₀ hact hp =>
        rw [hp.kept.1] at hid
        obtain ⟨hi₀, hkind₀⟩ := hjob k a₀ ha₀ hid
        exact hprogress k a₀ act a ha₀ hi₀ hkind₀ hp (hP k a₀ ha₀ hid)
  · obtain ⟨k, now, -, ha, -⟩ := completionOf?_eq_some hcomplete
    obtain ⟨hi₁, hkind₁⟩ := hjob k a ha hid
    exact absurd (hP k a ha hid) (hdone a hcomplete hi₁ hkind₁)

end BloomRelay.Control
