import BloomRelay.Control.Proofs.AuthorityProofs

/-!
# Readiness follows what was observed

An attempt that records its change has written it and then seen it on DNS. For a challenge set this
stays the last word: as long as the recorded revision is the current one, nobody has written another
set at the challenge name, because every attempt before it had ended, every attempt after it read the
same revision, and names belong to one installation.
-/

namespace BloomRelay.Control

open Protocol Store Dns

variable {cfg : DnsConfig} {g g' : Workers} {action : DnsAction} {k k' : Nat} {a a' : Attempt}
  {tr : List (Event Workers DnsAction)} {e : Event Workers DnsAction} {v v' : View} {i : Uuid}
  {c : Change} {w : Work} {hostname : String}

/-! ## What a run has written and seen -/

/-- A step of the run writes no challenge set at the name of `w` but that of `w`. -/
def Undisturbed (w : Work) (e : Event Workers DnsAction) : Prop :=
  ∀ a' w', writeOf? e = some (a', w') → w'.write.hostname = w.write.hostname →
    ∀ values, w.write.challengeSet? = some values →
    ∀ values', w'.write.challengeSet? = some values' → values' = values

/-- Attempt `k` at `job` makes the change `w`. -/
def Wrote (k : Nat) (job : OutboxJob) (w : Work) (e : Event Workers DnsAction)
    (_ : List (Event Workers DnsAction)) : Prop :=
  e.label = .attempt k .apply ∧ ∃ a, writeOf? e = some (a, w) ∧ a.job = job

/-- The change was made, and no other set was written at its challenge name since. -/
def Written (k : Nat) (job : OutboxJob) (w : Work) : List (Event Workers DnsAction) → Prop :=
  Since (Wrote k job w) (Undisturbed w)

/-- Attempt `k` at `job` sees its change in place. -/
def Saw (k : Nat) (job : OutboxJob) (w : Work) (e : Event Workers DnsAction)
    (earlier : List (Event Workers DnsAction)) : Prop :=
  e.label = .attempt k (.observe true) ∧ (∃ a, observationOf? e = some (a, w) ∧ a.job = job) ∧
    Undisturbed w e ∧ Written k job w earlier

/-- The change was made and then seen, and no other set was written at its challenge name since. -/
def Visible (k : Nat) (job : OutboxJob) (w : Work) : List (Event Workers DnsAction) → Prop :=
  Since (Saw k job w) (Undisturbed w)

/-! ## Attempts -/

theorem fits_of_calling (h : DnsRun cfg tr g) (ha : g.attempts k = some a)
    (hw : a.calling? = some w) : Fits a.worker (g.db.view a.job.installationId) w :=
  (Relies.run h k a ha).work w (calling_work hw).1

theorem work_past_lock (h : a.pc.work? = some w) : a.pc ≠ .lock := by
  intro hpc
  rw [hpc] at h
  cases h

/-- Work on a name is work for the installation that has it. -/
theorem installation_of_hostname (h : DnsRun cfg tr g) (ha : g.attempts k = some a)
    (hw : a.pc.work? = some w) {r : Installation} (hr : g.db.installations.find? i = some r)
    (hname : w.write.hostname = r.hostname) : a.job.installationId = i := by
  obtain ⟨r', hr', hname', -⟩ := authorised_of_fits ((Relies.run h k a ha).work w hw)
  exact hostname_inj h hr hr' (hname'.trans hname)

/-- Nobody but an attempt itself writes at the name it works on. -/
theorem undisturbed_of_work (h : DnsRun cfg tr g) (ha : g.attempts k = some a)
    (hw : a.pc.work? = some w) (hsrc : e.src = g) : Undisturbed w e := by
  intro a' w' hwrite hname values hvalues values' hvalues'
  obtain ⟨k', -, ha', hcall⟩ := writeOf?_eq_some hwrite
  rw [hsrc] at ha'
  obtain ⟨r, hr, hrname, -⟩ := authorised_of_fits ((Relies.run h k a ha).work w hw)
  have hi : a'.job.installationId = a.job.installationId :=
    installation_of_hostname h ha' (calling_work hcall).1 hr (hname.trans hrname.symm)
  have hk : k' = k :=
    (Locked.run h).eq_of_installation ha' (calling_work hcall).2 ha (work_past_lock hw) hi
  subst hk
  obtain rfl : a' = a := Option.some.inj (ha'.symm.trans ha)
  have hsame : w' = w := Option.some.inj ((calling_work hcall).1.symm.trans hw)
  rw [hsame, hvalues] at hvalues'
  exact (Option.some.inj hvalues').symm

/-- What stands behind an attempt at the points where it relies on DNS. -/
structure Backed (tr : List (Event Workers DnsAction)) (k : Nat) (a : Attempt) : Prop where
  written : ∀ w, a.pc = .writing w true ∨ a.pc = .observe w → Written k a.job w tr
  seen : ∀ w, a.pc = .mark w → Visible k a.job w tr

theorem Backed.trivial (hwriting : ∀ w, a.pc ≠ .writing w true) (hobserve : ∀ w, a.pc ≠ .observe w)
    (hmark : ∀ w, a.pc ≠ .mark w) : Backed tr k a := by
  constructor
  · rintro w (hpc | hpc)
    · exact absurd hpc (hwriting w)
    · exact absurd hpc (hobserve w)
  · intro w hpc
    exact absurd hpc (hmark w)

theorem Backed.outcome {finished : Bool} (hpc : a.pc = .outcome finished) : Backed tr k a := by
  refine .trivial ?_ ?_ ?_ <;> rw [hpc] <;> exact nofun

/-- Other steps leave behind an attempt what stood there. -/
theorem Backed.stay (h : Backed tr k a) (hrun : DnsRun cfg tr g) (ha : g.attempts k = some a)
    (hsrc : e.src = g) : Backed (e :: tr) k a := by
  have hquiet : ∀ w, a.pc.work? = some w → Undisturbed w e := fun w hw =>
    undisturbed_of_work hrun ha hw hsrc
  constructor
  · intro w hpc
    have hw : a.pc.work? = some w := by rcases hpc with hpc | hpc <;> rw [hpc] <;> rfl
    exact (h.written w hpc).cons (hquiet w hw)
  · intro w hpc
    have hw : a.pc.work? = some w := by rw [hpc]; rfl
    exact (h.seen w hpc).cons (hquiet w hw)

theorem Backed.progress {act : AttemptAction} {db' : Db} (h : Backed tr k a) (hrun : DnsRun cfg tr g)
    (ha : g.attempts k = some a) (hp : Progress cfg g.db a act a' db') (hsrc : e.src = g)
    (hlabel : e.label = .attempt k act) : Backed (e :: tr) k a' := by
  cases hp with
  | read _ hpc hread =>
    cases hread with
    | outside | unpublished | elsewhere | unretired => exact .outcome rfl
    | publish | reconcile | removeRecords | removeTxtAll => exact .trivial nofun nofun nofun
  | target hostname hpc => exact .trivial nofun nofun nofun
  | start w hpc => exact .trivial nofun nofun nofun
  | apply w applied hpc =>
    refine ⟨?_, nofun⟩
    rintro w' (hpc' | hpc') <;> cases hpc'
    · have hwrite : writeOf? e = some (a, w) := by simp [writeOf?, hlabel, hsrc, ha, hpc]
      exact .now ⟨hlabel, a, hwrite, rfl⟩
  | accepted w hpc =>
    have hw : a.pc.work? = some w := by rw [hpc]; rfl
    have hwritten := (h.written w (.inl hpc)).cons (undisturbed_of_work hrun ha hw hsrc)
    refine ⟨?_, nofun⟩
    rintro w' (hpc' | hpc') <;> cases hpc'
    exact hwritten
  | refused | mark | fail => exact .outcome rfl
  | observe w visible hpc =>
    have hw : a.pc.work? = some w := by rw [hpc]; rfl
    have hquiet := undisturbed_of_work hrun ha hw hsrc
    by_cases hmark : visible = true ∧ (w.markOp? a.job.installationId).isSome = true
    · obtain ⟨rfl, hsome⟩ := hmark
      have hpc' : observed a.job.installationId w true = .mark w := by simp [observed, hsome]
      have hobs : observationOf? e = some (a, w) := by
        simp [observationOf?, hlabel, hsrc, ha, hpc]
      rw [hpc']
      refine ⟨?_, ?_⟩
      · rintro w' (hbad | hbad) <;> cases hbad
      · rintro w' ⟨⟩
        exact .now ⟨hlabel, ⟨a, hobs, rfl⟩, hquiet, h.written w (.inr hpc)⟩
    · obtain ⟨finished, hout⟩ := observed_outcome hmark
      exact .outcome hout

theorem Backed.run (h : DnsRun cfg tr g) : ∀ k a, g.attempts k = some a → Backed tr k a := by
  refine h.invariant (fun tr g => ∀ k a, g.attempts k = some a → Backed tr k a) ?_ ?_
  · intro k a ha
    cases ha
  · intro tr g action g' hrun hbacked hs k a ha
    cases (dnsMoves_of_step hs).came ha with
    | stayed ha₀ hother => exact (hbacked k a ha₀).stay hrun ha₀ rfl
    | claimed worker now o hk ho hclaim heq hdb =>
      subst heq
      exact .trivial nofun nofun nofun
    | locked a₀ ha₀ hpc heq hdb =>
      subst heq
      exact .trivial nofun nofun nofun
    | progressed a₀ act ha₀ hact hp => exact (hbacked k a₀ ha₀).progress hrun ha₀ hp rfl hact

/-! ## The published set -/

/-- While the recorded revision of an installation is the current one, its stored values were
written and seen, and no other set was written since. -/
def Published (tr : List (Event Workers DnsAction)) (v : View) : Prop :=
  ∀ r, v.row = some r → r.state ≠ .retired → v.ready = some v.revision →
    ∃ k job, Visible k job (.reconcileTxt r.hostname v.revision v.members) tr

/-- Whoever writes a challenge set for an installation that is ready writes the stored one. -/
theorem undisturbed_of_ready (h : DnsRun cfg tr g) {r : Installation}
    (hr : (g.db.view i).row = some r) (hstate : r.state ≠ .retired)
    (hready : (g.db.view i).ready = some (g.db.view i).revision) (hsrc : e.src = g) :
    Undisturbed (.reconcileTxt r.hostname (g.db.view i).revision (g.db.view i).members) e := by
  intro a' w' hwrite hname values hvalues values' hvalues'
  obtain ⟨k', -, ha', hcall⟩ := writeOf?_eq_some hwrite
  rw [hsrc] at ha'
  have hi : a'.job.installationId = i :=
    installation_of_hostname h ha' (calling_work hcall).1 hr hname
  have hfits := fits_of_calling h ha' hcall
  rw [hi] at hfits
  obtain rfl : (g.db.view i).members = values := Option.some.inj hvalues
  cases w' with
  | publishName records => cases hvalues'
  | removeRecords hostname => cases hvalues'
  | reconcileTxt hostname revision values₁ =>
    obtain ⟨-, hle, hset, hleast⟩ := hfits
    have hcurrent : revision = (g.db.view i).revision := le_antisymm hle (hleast _ hready)
    rw [← hset hcurrent]
    exact (Option.some.inj hvalues').symm
  | removeTxtAll hostname =>
    obtain ⟨r', hr', hret, -⟩ := hfits
    obtain rfl : r' = r := Option.some.inj (hr'.symm.trans hr)
    exact absurd hret hstate

/-- A step that reconciles nothing keeps the published set published. -/
theorem Published.keep (h : Published tr (g.db.view i)) (hrun : DnsRun cfg tr g)
    (hs : LifeStep i (g.db.view i) c v') (hc : c ≠ .reconciled) (hsrc : e.src = g) :
    Published (e :: tr) v' := by
  intro r' hr' hstate' hready'
  have hv := challenged_of_run hrun i
  rw [hs.ready_eq hc] at hready'
  have hret : c ≠ .retired := by
    rintro rfl
    obtain ⟨r₁, hr₁, hret⟩ := hs.retired_of_change
    rw [hr'] at hr₁
    cases hr₁
    exact hstate' hret
  have hsame : v'.revision = (g.db.view i).revision :=
    le_antisymm (hv.ready_le _ hready') hs.revision_le
  have hchallenge : (g.db.view i).challenge ≠ none := by
    intro hnone
    simp [View.ready, hnone] at hready'
  obtain ⟨r, hr⟩ := Option.ne_none_iff_exists'.mp (hv.owner hchallenge)
  have hstate : r.state ≠ .retired := by
    intro hret'
    rw [hs.row_of_retired hr hret'] at hr'
    cases hr'
    exact hstate' hret'
  obtain ⟨r₁, hr₁, -, hname, -⟩ := hs.unretired hret hr hstate
  obtain rfl : r₁ = r' := Option.some.inj (hr₁.symm.trans hr')
  rw [hsame] at hready'
  obtain ⟨k, job, hvisible⟩ := h r hr hstate hready'
  rw [hname, hsame, hs.members_eq hv hret hsame]
  exact ⟨k, job, hvisible.cons (undisturbed_of_ready hrun hr hstate hready' hsrc)⟩

theorem revision_of_reconciled {sha256 : Bytes → Bytes32} {call : Call} {db : Db} {revision : Nat}
    (hop : call.op = .markChallengeReconciled i revision)
    (h : call.change sha256 db i = .reconciled) :
    ∃ s, db.challengeState.find? i = some s ∧ (s.revision : Int) = i64OfU64 revision := by
  unfold Call.change at h
  split at h
  · cases h
  · rename_i reply db' hexec
    obtain ⟨htx, -⟩ := exec_ok hexec
    rw [hop] at htx h
    simp only [StoreOp.transact, answer_total] at htx
    obtain heq | ⟨s, hs, hrev, -⟩ := markChallengeReconciled_cases db i revision
    · rw [htx.1, heq] at h
      simp [StoreOp.change] at h
    · exact ⟨s, hs, hrev⟩

/-- A revision that was read and is recorded is the current one. -/
theorem revision_eq_of_i64 {n revision : Nat} (hle : revision ≤ n)
    (h : (n : Int) = i64OfU64 revision) : revision = n := by
  unfold i64OfU64 at h
  split_ifs at h <;> omega

/-- The reconciliation of an attempt: the set it saw is the stored one. -/
theorem Published.mark (hrun : DnsRun cfg tr g) (ha : g.attempts k = some a) {now : Time}
    {revision : Nat} {values : List String} (hpc : a.pc = .mark (.reconcileTxt hostname revision values))
    (hchange : (workerCall cfg now (.markChallengeReconciled a.job.installationId revision)).change
      cfg.sha256 g.db a.job.installationId = .reconciled) (hsrc : e.src = g) :
    Published (e :: tr) (((workerCall cfg now
      (.markChallengeReconciled a.job.installationId revision)).after cfg.sha256 g.db).view
        a.job.installationId) := by
  have hw : a.pc.work? = some (.reconcileTxt hostname revision values) := by rw [hpc]; rfl
  obtain ⟨⟨r, hr, -, hname, -⟩, hle, hset, -⟩ := (Relies.run hrun k a ha).work _ hw
  obtain ⟨s, hs, hrev⟩ := revision_of_reconciled rfl hchange
  have hrevision : (g.db.view a.job.installationId).revision = s.revision := by
    simp [View.revision, Db.view, hs]
  have hcurrent : revision = (g.db.view a.job.installationId).revision :=
    revision_eq_of_i64 hle (hrevision ▸ hrev)
  have hlife : LifeStep a.job.installationId (g.db.view a.job.installationId)
      ((workerCall cfg now (.markChallengeReconciled a.job.installationId revision)).change
        cfg.sha256 g.db a.job.installationId)
      (((workerCall cfg now (.markChallengeReconciled a.job.installationId revision)).after
        cfg.sha256 g.db).view a.job.installationId) := life_step _ _ _
  rw [hchange] at hlife
  have hvisible := ((Backed.run hrun k a ha).seen _ hpc).cons
    (undisturbed_of_work hrun ha hw hsrc)
  rw [← hname, hset hcurrent] at hvisible
  generalize hv' : ((workerCall cfg now (.markChallengeReconciled a.job.installationId
    revision)).after cfg.sha256 g.db).view a.job.installationId = v' at hlife ⊢
  cases hlife with
  | reconciled s' hs' =>
    intro r' hr' _ _
    obtain rfl : r = r' := Option.some.inj (hr.symm.trans hr')
    have hkept : View.revision { g.db.view a.job.installationId with
        challenge := some { s' with readyRevision := some s'.revision } } = revision := by
      rw [hcurrent]
      simp [View.revision, hs']
    rw [hkept]
    exact ⟨k, a.job, hvisible⟩

/-- Only the worker's own mark reconciles. -/
theorem not_reconciled {call : Call} {db : Db}
    (hop : ∀ revision, call.op ≠ .markChallengeReconciled i revision) :
    call.change cfg.sha256 db i ≠ .reconciled := by
  intro hchange
  rcases steered_by (by rw [hchange]; rfl) with ⟨-, hne⟩ | ⟨revision, heq⟩
  · exact hne hchange
  · exact hop revision heq

theorem Published.step (h : ∀ i, Published tr (g.db.view i)) (hrun : DnsRun cfg tr g)
    (hm : DnsMoves cfg g action g') (i : Uuid) :
    Published (⟨g, action, g'⟩ :: tr) (g'.db.view i) := by
  have same : Published (⟨g, action, g'⟩ :: tr) (g.db.view i) :=
    (h i).keep hrun (.same _) nofun rfl
  cases hm with
  | store call hop hfree =>
    refine (h i).keep hrun (life_step call g.db i) (not_reconciled fun revision heq => ?_) rfl
    rw [heq] at hop
    cases hop
  | claim | lock | drop => exact same
  | progress k a act a' db' ha hp =>
    cases hp with
    | mark w op now acknowledged hpc hop =>
      by_cases hchange : (workerCall cfg now op).change cfg.sha256 g.db i = .reconciled
      · rcases steered_by (by rw [hchange]; rfl) with ⟨-, hne⟩ | ⟨revision, heq⟩
        · exact absurd hchange hne
        · obtain rfl : op = .markChallengeReconciled i revision := heq
          cases w <;> cases hop
          exact Published.mark hrun ha hpc hchange rfl
      · exact (h i).keep hrun (life_step (workerCall cfg now op) g.db i) hchange rfl
    | _ => exact same
  | finish k a finished now ha hpc =>
    refine (h i).keep hrun (life_step (workerCall cfg now (outcomeOp a.job finished)) g.db i)
      (not_reconciled fun revision heq => ?_) rfl
    cases finished <;> cases heq

theorem Published.run (h : DnsRun cfg tr g) (i : Uuid) : Published tr (g.db.view i) := by
  refine h.invariant (fun tr g => ∀ i, Published tr (g.db.view i)) ?_ ?_ i
  · intro i r hr
    cases hr
  · intro tr g action g' hrun hpublished hs
    exact Published.step hpublished hrun (dnsMoves_of_step hs)

/-- **Readiness is sound.** Whenever a value is reported ready, it is live and stored, the revision has
been reached, and some attempt that had read the current revision wrote exactly the stored set at the
challenge name and then saw every value of it; no step since has written another set there. -/
theorem challenge_ready_sound (h : DnsRun cfg tr g) {now : Time} {txt : String} {revision : Nat}
    (hready : challengeValueReady g.db now i txt revision = .ok true) :
    ∃ r, g.db.installations.find? i = some r ∧ liveValue g.db now i txt ≠ none ∧
      revision ≤ (challengeTarget g.db i).1 ∧ txt ∈ (challengeTarget g.db i).2 ∧
      ∃ later seen middle wrote earlier a a',
        tr = later ++ seen :: (middle ++ wrote :: earlier) ∧
        writeOf? wrote = some (a,
          .reconcileTxt r.hostname (challengeTarget g.db i).1 (challengeTarget g.db i).2) ∧
        observationOf? seen = some (a',
          .reconcileTxt r.hostname (challengeTarget g.db i).1 (challengeTarget g.db i).2) ∧
        ∀ e ∈ later ++ seen :: middle, ∀ a' w', writeOf? e = some (a', w') →
          w'.write.hostname = r.hostname → ∀ values, w'.write.challengeSet? = some values →
            values = (challengeTarget g.db i).2 := by
  obtain ⟨x, hx, s, hs, hcurrent, hle⟩ := challengeValueReady_ok hready
  obtain ⟨calls, hstore⟩ := storeRun_of_run h
  have hmem := mem_values_iff.mpr (liveValue_eq_some.mp hx).1
  obtain ⟨r, hr, hstate⟩ := (Retiring.run (life_run hstore i)).values x hmem.1
  have hrevision : (g.db.view i).revision = s.revision := by simp [View.revision, Db.view, hs]
  have hreadyView : (g.db.view i).ready = some (g.db.view i).revision := by
    rw [hrevision]
    simp [View.ready, Db.view, hs, hcurrent]
  obtain ⟨k, job, later, seen, before, rfl, ⟨-, ⟨a', hobs, -⟩, hquiet, hwritten⟩, hlater⟩ :=
    Published.run h i r hr (by rw [hstate]; decide) hreadyView
  obtain ⟨middle, wrote, earlier, rfl, ⟨-, a, hwrite, -⟩, hmiddle⟩ := hwritten
  refine ⟨r, hr, by rw [hx]; exact Option.some_ne_none x, hle.trans hrevision.ge, ?_, later, seen, middle, wrote, earlier, a, a',
    rfl, hwrite, hobs, ?_⟩
  · show txt ∈ (g.db.view i).members
    rw [View.members, List.mem_mergeSort]
    exact List.mem_map.mpr ⟨x, hmem⟩
  · intro e he a₁ w₁ hwrite₁ hname values hvalues
    have hall : Undisturbed (.reconcileTxt r.hostname (g.db.view i).revision (g.db.view i).members)
        e := by
      rcases List.mem_append.mp he with he | he
      · exact hlater e he
      · rcases List.mem_cons.mp he with rfl | he
        · exact hquiet
        · exact hmiddle e he
    exact hall a₁ w₁ hwrite₁ hname _ rfl values hvalues

/-! ## A challenge value gets ready -/

def challengeWorker : DnsWorker := ⟨"edge-1", .challenge, []⟩

def challengeTxt : String := "0123456789012345678901234567890123456789012"

/-- The steps of an attempt that gets through. -/
def attemptActions (k : Nat) (now : Time) (target : Bool) : List DnsAction :=
  [.attempt k .lock, .attempt k .read] ++ (if target then [.attempt k .target] else []) ++
    [.attempt k .start, .attempt k .apply, .attempt k (.answer true), .attempt k (.observe true),
      .attempt k (.mark now true), .attempt k (.finish now)]

/-- The name is published and ready, a challenge value is ensured, and it is published too. -/
def readyActions : List DnsAction :=
  [.store ⟨.default, 0, .allocate 1 5 "edge-1" 7 9⟩,
    .store ⟨.default, 10, .registerAcmeAccount 7 accountUri⟩,
    .claim 0 edgeWorker 20] ++ attemptActions 0 30 false ++
  [.store ⟨.default, 40, .issueBearer 7 2 "dns_challenge" 0 3600⟩,
    .store ⟨.default, 50, .ensureChallengeValue 7 2 challengeTxt⟩,
    .claim 1 challengeWorker 60] ++ attemptActions 1 70 true

theorem challenge_ready_sound_ready :
    ∃ tr g r wrote a, DnsRun edgeDns tr g ∧ challengeValueReady g.db 80 7 challengeTxt 1 = .ok true ∧
      wrote ∈ tr ∧ writeOf? wrote = some (a,
        .reconcileTxt r (challengeTarget g.db 7).1 (challengeTarget g.db 7).2) := by
  have hplay : ((Run.play (Workers.step edgeDns) (Workers.start .migrated) readyActions).map
      fun g => decide (challengeValueReady g.db 80 7 challengeTxt 1 = .ok true)) = some true := by
    decide +kernel
  obtain ⟨g, hg, hready⟩ := Option.map_eq_some_iff.1 hplay
  obtain ⟨tr, hrun, -⟩ := Run.of_play hg
  obtain ⟨r, -, -, -, -, later, seen, middle, wrote, earlier, a, a', htr, hwrite, -⟩ :=
    challenge_ready_sound hrun (of_decide_eq_true hready)
  refine ⟨tr, g, r.hostname, wrote, a, hrun, of_decide_eq_true hready, ?_, hwrite⟩
  rw [htr]
  simp

end BloomRelay.Control
