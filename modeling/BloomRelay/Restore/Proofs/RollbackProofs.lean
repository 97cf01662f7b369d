import BloomRelay.Restore.Service
import BloomRelay.Restore.Proofs.AdvanceProofs
import BloomRelay.Store.Proofs.EffectProofs

/-!
# A rolled back database is detected

An operation that changed what the fence guards answers `Ok` only after both witnesses have reached
the revision of its commit. A database of an earlier revision then fails the next start.
-/

namespace BloomRelay.Restore

open Store

/-! ## What an operation must acknowledge -/

/-- A transaction that changes guarded data is acknowledged before it is answered. -/
theorem acknowledges_of_guarded {sha256 : Bytes → Bytes32} {store : StoreConfig} {now : Time}
    {db db' : Db} {op : StoreOp} {reply : Reply}
    (h : op.transact sha256 store now db = .ok (reply, db')) (hg : db'.guarded ≠ db.guarded) :
    acknowledges op reply = true := by
  cases op with
  | createBootstrapChallenge nonce source =>
    obtain ⟨b, htx, -⟩ := answer_ok.mp h
    obtain ⟨t, rfl⟩ := createBootstrapChallenge_ok htx
    exact absurd rfl hg
  | consumeBootstrapChallenge nonce source =>
    simp only [StoreOp.transact, answer_total] at h
    obtain ⟨t, ht⟩ := consumeBootstrapChallenge_snd db now nonce source
    rw [h.2, ht] at hg
    exact absurd rfl hg
  | pruneBootstrap limit =>
    cases h
    exact absurd rfl hg
  | consumeNonce id nonce =>
    obtain ⟨b, htx, -⟩ := answer_ok.mp h
    obtain ⟨-, rfl⟩ | ⟨t, -, -, rfl⟩ := consumeNonce_ok htx
    · exact absurd rfl hg
    · exact absurd rfl hg
  | renewTunnel id gatewayId generation =>
    simp only [StoreOp.transact, answer_total] at h
    obtain heq | ⟨-, heq⟩ := renewTunnel_cases db now id gatewayId generation
    · rw [h.2, heq] at hg
      exact absurd rfl hg
    · rw [h.2, heq] at hg
      exact absurd rfl hg
  | expirePendingAllocation id =>
    simp only [StoreOp.transact, answer_total] at h
    obtain heq | ⟨row, -, -, heq⟩ := expirePendingAllocation_cases db now id
    · rw [h.2, heq] at hg
      exact absurd rfl hg
    · rw [h.1, heq]
      rfl
  | _ => rfl

section Fleet

variable {H P C T : Type} {sha256 : Bytes → Bytes32} {process : C → P} {host : P → H}
  {remote : P → Bool} {runs : T → P} {s s' : System H P C T} {l : SystemLabel C T}

/-- What every step of every operation keeps of the machine. -/
structure Advanced (s s' : System H P C T) : Prop where
  raised : Raised s.world s'.world
  revision : s.world.db.restoreRevision ≤ s'.world.db.restoreRevision
  began : ∀ c, s.world.pc c ≠ none →
    s'.world.began c = s.world.began c ∧ s'.world.pc c ≠ none

/-! ## An answered operation is covered by the witnesses -/

/-- Operation `t` has committed at revision `n`, and is answered `Ok` only with both witnesses at or
above `n`. -/
def Covered (F : Fleet Db H P C) (runs : T → P) (t : T) (n : Nat) (s : System H P C T) : Prop :=
  n ≤ s.world.db.restoreRevision ∧
  match s.task t with
  | some (.committed _ _) | some (.returned _ (.error _)) => True
  | some (.acknowledging _ _ c) =>
    F.process c = runs t ∧ n ≤ s.world.began c ∧ s.world.pc c ≠ none
  | some (.returned _ (.ok _)) =>
    AtLeast (s.world.file (F.host (runs t))).value n ∧
      (F.remote (runs t) = true → AtLeast (remoteValue s.world.object) n)
  | some (.verifying _ _) | none => False

variable {F : Fleet Db H P C} {t : T} {n : Nat}

theorem Covered.frame (hc : Covered F runs t n s) (htask : s'.task t = s.task t)
    (h : Advanced s s') : Covered F runs t n s' := by
  obtain ⟨hrev, htail⟩ := hc
  refine ⟨hrev.trans h.revision, ?_⟩
  rw [htask]
  cases hpc : s.task t with
  | none => simp [hpc] at htail
  | some pc =>
    rw [hpc] at htail
    cases pc with
    | verifying => exact htail
    | committed => trivial
    | acknowledging call reply c =>
      obtain ⟨hproc, hbegan, hstarted⟩ := htail
      obtain ⟨heq, hstarted'⟩ := h.began c hstarted
      exact ⟨hproc, heq ▸ hbegan, hstarted'⟩
    | returned call result =>
      cases result with
      | error e => trivial
      | ok reply =>
        obtain ⟨hlocal, hremote⟩ := htail
        exact ⟨h.raised.file _ _ hlocal, fun hr => h.raised.object _ (hremote hr)⟩

/-- An operation that has committed does not commit again. -/
theorem Covered.ne_of_mayTransact {t' : T} {call : Call} (hc : Covered F runs t n s)
    (h : s.MayTransact t' call) : t ≠ t' := by
  rintro rfl
  obtain ⟨-, htail⟩ := hc
  rcases h with ⟨hnone, -⟩ | ⟨c, hver, -⟩
  · simp [hnone] at htail
  · simp [hver] at htail

theorem setTask_of_ne [DecidableEq T] {t' : T} (hne : t ≠ t') (pc : TaskPc C) :
    (s.setTask t' pc).task t = s.task t := by simp [System.setTask, hne]

/-! ## The machine under the operations -/

variable [DecidableEq H] [DecidableEq P] [DecidableEq C] [DecidableEq T]

theorem Step.revision_le {D : Type} {F : Fleet D H P C} {w w' : World D H P C} {l : Label C}
    (h : Step F w l w') : F.revision w.db ≤ F.revision w'.db := by
  cases h with
  | commit d hle => exact hle
  | start | deliver => exact le_rfl
  | act c hc =>
    obtain ⟨pc, pc', hshape⟩ := hc.shape
    rw [hshape.db]

/-- A call that has started keeps the revision it started at. -/
theorem Step.began_eq {D : Type} {F : Fleet D H P C} {w w' : World D H P C} {l : Label C} {c : C}
    (h : Step F w l w') (hpc : w.pc c ≠ none) : w'.began c = w.began c ∧ w'.pc c ≠ none := by
  cases h with
  | commit | deliver => exact ⟨rfl, hpc⟩
  | start c' hnone =>
    have hne : c ≠ c' := by
      rintro rfl
      exact hpc hnone
    exact ⟨by simp [World.goto, hne], by simpa [World.goto, hne] using hpc⟩
  | act c' hc =>
    obtain ⟨pc, pc', hshape⟩ := hc.shape
    refine ⟨congrFun hshape.began c, ?_⟩
    rw [hshape.dst]
    by_cases heq : c = c'
    · subst heq
      simp
    · rwa [Function.update_of_ne heq]

/-- An operation's step is a step of the machine, or none. -/
theorem SystemStep.world_cases
    (h : SystemStep sha256 (storeFleet process host remote) runs s l s') :
    s'.world = s.world ∨ ∃ l', Step (storeFleet process host remote) s.world l' s'.world := by
  cases h with
  | machine hs _ => exact .inr ⟨_, hs⟩
  | verify _ _ _ hs | acknowledge _ _ hs => exact .inr ⟨_, hs⟩
  | refused | failed | answer => exact .inl rfl
  | transact _ hexec =>
    obtain ⟨htx, hin⟩ := exec_ok hexec
    refine .inr ⟨.commit, .commit _ ?_ ?_⟩
    · rcases (transact_effect htx).fence with hlt | ⟨heq, -⟩
      · exact hlt.le
      · exact heq.ge
    · simp only [Db.inRange, Bool.and_eq_true, decide_eq_true_eq] at hin
      exact hin.1.1.1

theorem SystemStep.advanced
    (h : SystemStep sha256 (storeFleet process host remote) runs s l s')
    (hinv : FleetInv (storeFleet process host remote) s.world) :
    FleetInv (storeFleet process host remote) s'.world ∧ Advanced s s' := by
  rcases h.world_cases with heq | ⟨l', hstep⟩
  · rw [heq]
    exact ⟨hinv, ⟨heq ▸ Raised.refl _, by rw [heq], fun c hc => by rw [heq]; exact ⟨rfl, hc⟩⟩⟩
  · obtain ⟨hinv', hraised⟩ := hstep.inv hinv
    exact ⟨hinv', ⟨hraised, hstep.revision_le, fun c hc => hstep.began_eq hc⟩⟩

theorem Covered.step (hc : Covered (storeFleet process host remote) runs t n s)
    (hinv : FleetInv (storeFleet process host remote) s.world)
    (h : SystemStep sha256 (storeFleet process host remote) runs s l s') :
    Covered (storeFleet process host remote) runs t n s' := by
  have hadv := (h.advanced hinv).2
  cases h with
  | machine => exact hc.frame rfl hadv
  | @verify t' call _ _ ht hop =>
    have hne : t ≠ t' := by
      rintro rfl
      simp [Covered, ht] at hc
    exact hc.frame (setTask_of_ne hne _) hadv
  | @refused t' call c _ ht =>
    have hne : t ≠ t' := by
      rintro rfl
      simp [Covered, ht] at hc
    exact hc.frame (setTask_of_ne hne _) hadv
  | failed ht | transact ht =>
    exact hc.frame (setTask_of_ne (hc.ne_of_mayTransact ht) _) hadv
  | @acknowledge t' call reply c w ht hproc hs =>
    by_cases hne : t = t'
    · subst hne
      refine ⟨hc.1.trans hadv.revision, ?_⟩
      simp only [System.setTask, System.setWorld, Function.update_self]
      cases hs with
      | start _ hnone =>
        refine ⟨hproc, ?_, by simp [World.goto]⟩
        simpa [World.goto, storeFleet] using hc.1
    · exact hc.frame (setTask_of_ne hne _) hadv
  | @answer t' call reply c result ht hpc =>
    by_cases hne : t = t'
    · subst hne
      obtain ⟨hrev, htail⟩ := hc
      rw [ht] at htail
      obtain ⟨hproc, hbegan, -⟩ := htail
      refine ⟨hrev, ?_⟩
      simp only [System.setTask, Function.update_self]
      cases result with
      | error e => trivial
      | ok u =>
        have hcall := hinv.call c _ trivial hpc
        obtain ⟨hlocal, hremote⟩ := hcall
        simp only [Fleet.hostOf, Fleet.remoteOf, hproc] at hlocal hremote
        exact ⟨hlocal.mono hbegan, fun hr => (hremote hr).mono hbegan⟩
    · exact hc.frame (setTask_of_ne hne _) hadv

/-! ## Rollback detection -/

/-- One of the two witnesses is the one the fleet had in `s`, as process `p` left it; the other may be
gone or be any older one, as long as it can be read. -/
def Survives (F : Fleet Db H P C) (p : P) (s : System H P C T) (configured : Bool)
    (file : LocalFile) (object : Option RemoteObject) : Prop :=
  (file = s.world.file (F.host p) ∧ (configured = true → ∃ r, readRemote object = .ok r)) ∨
    (configured = true ∧ F.remote p = true ∧ object = s.world.object ∧
      ∃ l, readRevision file = .ok l)

/-- In every run of the fleet, let operation `m` commit a change of guarded data and answer `Ok`, and
let a database be restored to a snapshot from before that commit. The commit advanced the fence. A new
process with a witness from after the answer is refused as stale and writes nothing; without any
witness it is refused as missing, unless the snapshot is the pristine database of revision 1. -/
theorem rollback_detected {s₀ snapshot before committed after : System H P C T}
    {tr₁ tr₂ tr₃ : List (Event (System H P C T) (SystemLabel C T))} {m : T} {call call' : Call}
    {reply : Reply} (h0 : s₀.Initial (storeFleet process host remote))
    (hsnapshot : Run (SystemStep sha256 (storeFleet process host remote) runs) s₀ tr₁ snapshot)
    (hbefore : Run (SystemStep sha256 (storeFleet process host remote) runs) snapshot tr₂ before)
    (hcommit : SystemStep sha256 (storeFleet process host remote) runs before (.transact m call)
      committed)
    (hchange : committed.world.db.guarded ≠ before.world.db.guarded)
    (hafter : Run (SystemStep sha256 (storeFleet process host remote) runs) committed tr₃ after)
    (hok : after.task m = some (.returned call' (.ok reply)))
    (p : Setup) (file : LocalFile) (object : Option RemoteObject) :
    before.world.db.restoreRevision < committed.world.db.restoreRevision ∧
    (Survives (storeFleet process host remote) (runs m) after p.remote file object →
      verifyAndAdvance p.etag p.remote snapshot.world.db.restoreRevision
          snapshot.world.db.restorePristine ⟨file, object, none⟩ =
        (.error .staleDatabase, ⟨file, object, none⟩) ∧
      p.connect snapshot.world.db file object =
        (.error (.witness WitnessError.staleDatabase.message),
          ⟨snapshot.world.db, file, object, none⟩)) ∧
    (file = .absent → (p.remote = true → object = none) →
      ¬ (snapshot.world.db.restoreRevision = 1 ∧ snapshot.world.db.restorePristine = true) →
      verifyAndAdvance p.etag p.remote snapshot.world.db.restoreRevision
          snapshot.world.db.restorePristine ⟨file, object, none⟩ =
        (.error .missing, ⟨file, object, none⟩)) := by
  have hinv₁ : FleetInv (storeFleet process host remote) snapshot.world :=
    hsnapshot.state_invariant (fun s => FleetInv (storeFleet process host remote) s.world)
      h0.world.inv fun _ _ _ hi hs => (hs.advanced hi).1
  have hinv₂ : FleetInv (storeFleet process host remote) before.world ∧
      snapshot.world.db.restoreRevision ≤ before.world.db.restoreRevision :=
    hbefore.state_invariant (fun s => FleetInv (storeFleet process host remote) s.world ∧
      snapshot.world.db.restoreRevision ≤ s.world.db.restoreRevision) ⟨hinv₁, le_rfl⟩
      fun _ _ _ hi hs => ⟨(hs.advanced hi.1).1, hi.2.trans (hs.advanced hi.1).2.revision⟩
  obtain ⟨hinv₂, hle⟩ := hinv₂
  have hinv₃ := (hcommit.advanced hinv₂).1
  -- the commit advanced the fence, and waits for its acknowledgement
  obtain ⟨hlt, hcovered⟩ :
      before.world.db.restoreRevision < committed.world.db.restoreRevision ∧
        Covered (storeFleet process host remote) runs m committed.world.db.restoreRevision
          committed := by
    cases hcommit with
    | failed => exact absurd rfl hchange
    | transact _ hexec =>
      obtain ⟨htx, -⟩ := exec_ok hexec
      have hack := acknowledges_of_guarded htx hchange
      refine ⟨?_, le_rfl, ?_⟩
      · rcases (transact_effect htx).fence with hlt | ⟨-, heq⟩
        · exact hlt
        · exact absurd heq hchange
      · simp [System.setTask, hack]
  have hcovered' := (hafter.state_invariant
    (fun s => FleetInv (storeFleet process host remote) s.world ∧
      Covered (storeFleet process host remote) runs m committed.world.db.restoreRevision s)
    ⟨hinv₃, hcovered⟩ fun _ _ _ hi hs => ⟨(hs.advanced hi.1).1, hi.2.step hi.1 hs⟩).2
  obtain ⟨-, htail⟩ := hcovered'
  rw [hok] at htail
  obtain ⟨hlocal, hremote⟩ := htail
  refine ⟨hlt, fun hsurvives => ?_, fun hfile hobject hnew => ?_⟩
  · have hbelow : Below p.remote snapshot.world.db.restoreRevision ⟨file, object, none⟩ := by
      rcases hsurvives with ⟨rfl, hread⟩ | ⟨hconf, hrem, rfl, hread⟩
      · exact below_of_local hlocal (by omega) hread
      · rw [hconf]
        exact below_of_remote (hremote hrem) (by omega) hread
    have hstale : verifyAndAdvance p.etag p.remote snapshot.world.db.restoreRevision
        snapshot.world.db.restorePristine ⟨file, object, none⟩ = _ :=
      verifyAndAdvance_of_below hbelow (skipsRemote_of_unseen rfl)
    exact ⟨hstale, by simp only [Setup.connect, Setup.acknowledge, hstale]⟩
  · exact verifyAndAdvance_of_absent hfile hobject rfl hnew

end Fleet

/-! ## A run -/

/-- One process on one host, without a remote witness, on the new database it has already started
with once. -/
def newSystem : System Unit Unit Unit Unit where
  world :=
    { db := .migrated
      file := fun _ => writtenFile 1
      lock := fun _ => none
      object := none
      versions := []
      inflight := []
      seen := fun _ => none
      pc := fun _ => none
      began := fun _ => 0 }
  task := fun _ => none

/-- The first allocation. -/
def firstAllocation : Call := ⟨.default, 1, .allocate 7 5 "gateway-a" 1 3⟩

/-- After the first allocation is answered, the new database no longer starts beside the file. -/
theorem rollback_detected_allocated :
    ∃ (after : System Unit Unit Unit Unit) (reply : Reply),
      after.task () = some (.returned firstAllocation (.ok reply)) ∧
      verifyAndAdvance (fun _ => "") false 1 true ⟨after.world.file (), none, none⟩ =
        (.error .staleDatabase, ⟨after.world.file (), none, none⟩) := by
  have hfence : (firstAllocation.after (fun _ => 0) .migrated).restoreRevision = 2 := by
    decide +kernel
  have hguarded : (firstAllocation.after (fun _ => 0) .migrated).guarded ≠ Db.migrated.guarded := by
    decide +kernel
  obtain heq | ⟨reply, hexec, -⟩ := after_cases (fun _ => 0) firstAllocation .migrated
  · rw [heq] at hfence
    cases hfence
  let soloStep := SystemStep (fun _ => 0) (storeFleet id id fun _ : Unit => false) (id : Unit → Unit)
  let committed := (newSystem.setWorld { newSystem.world with
    db := firstAllocation.after (fun _ => 0) .migrated }).setTask () (.committed firstAllocation reply)
  have hcommit : soloStep newSystem (.transact () firstAllocation) committed :=
    .transact (.inl ⟨rfl, rfl⟩) hexec
  have hlocal : readRevision (writtenFile 1) = .ok (some 1) := readRevision_writtenFile (by decide)
  have hle : 1 ≤ (firstAllocation.after (fun _ => 0) .migrated).restoreRevision := by omega
  have hne : some 1 ≠ some (firstAllocation.after (fun _ => 0) .migrated).restoreRevision := by
    rw [hfence]
    decide
  have hempty : Run soloStep committed [] committed := .refl
  have hstarted := (hempty.snoc
    (.acknowledge (c := ()) rfl rfl (.start () rfl))).snoc
    (.machine (.act () (.locked rfl rfl)) nofun)
  have hread := (hstarted.snoc
    (.machine (.act () (.revisionRead rfl)) nofun)).snoc
    (.machine (.act () (.localRead rfl hlocal)) nofun)
  have hchecked := ((hread.snoc
    (.machine (.act () (.noRemote rfl rfl)) nofun)).snoc
    (.machine (.act () (.fresh (p := 1) rfl rfl hle)) nofun)).snoc
    (.machine (.act () (.localOnly rfl rfl)) nofun)
  have hafter := (hchecked.snoc
    (.machine (.act () (.localWritten rfl hne)) nofun)).snoc
    (.answer (t := ()) (c := ()) rfl rfl)
  have h0 : newSystem.Initial (storeFleet id id fun _ : Unit => false) :=
    ⟨⟨by decide, fun _ => rfl, rfl, rfl, fun _ => rfl, fun _ => rfl⟩, fun _ => rfl⟩
  have hdetected := fun file => rollback_detected h0 .refl .refl hcommit hguarded hafter rfl
    ⟨fun _ => 0, fun _ => "", false⟩ file none
  exact ⟨_, reply, rfl, ((hdetected _).2.1 (.inl ⟨rfl, nofun⟩)).1⟩

end BloomRelay.Restore
