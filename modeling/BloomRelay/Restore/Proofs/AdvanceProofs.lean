import BloomRelay.Restore.Proofs.MachineProofs

/-!
# What a returned call has done to the witnesses

Along every run of the fleet no witness goes down; a call that returned `Ok` left both witnesses at or
above the revision at its start; a call that was refused changed neither.
-/

namespace BloomRelay.Restore

variable {D H P C : Type} {F : Fleet D H P C} {w₀ w w' : World D H P C} {c : C}
  {tr : List (Event (World D H P C) (Label C))}

/-! ## The shape of a call's step -/

/-- A call that is here has not written anything, and no write of it is on its way. -/
def Pc.clean : Pc → Bool
  | .settled .. | .finishing .. | .dead => false
  | .done (.ok ()) | .done (.error .io) => false
  | _ => true

/-- The states in which a call may leave a write behind. -/
def Pc.gone (pc : Pc) : Prop := pc = .dead ∨ pc = .done (.error .io)

theorem Pc.gone.not_clean {pc : Pc} (h : pc.gone) : pc.clean = false := by
  rcases h with rfl | rfl <;> rfl

variable [DecidableEq C]

/-- What every step of a call does, and does not do, to the rest of the fleet. -/
structure CallShape (F : Fleet D H P C) (c : C) (w w' : World D H P C) (pc pc' : Pc) : Prop where
  src : w.pc c = some pc
  live : ¬ pc.gone
  dst : w'.pc = Function.update w.pc c (some pc')
  began : w'.began = w.began
  db : w'.db = w.db
  unchanged : F.ConflictsUnwritten → pc'.clean = true →
    pc.clean = true ∧ w'.file = w.file ∧ w'.object = w.object
  inflight : ∀ q ∈ w'.inflight, q ∈ w.inflight ∨ q.caller = c ∧ pc'.gone

theorem not_gone_of_holdsLock {pc : Pc} (h : pc.holdsLock = true) : ¬ pc.gone := by
  rintro (rfl | rfl) <;> cases h

/-- A step that only moves the call on, or ends it. -/
theorem CallShape.moved {pc pc' : Pc} (hpc : w.pc c = some pc)
    (hlive : ¬ pc.gone) (hclean : pc'.clean = true → pc.clean = true) {lock : H → Option C} :
    CallShape F c w ({ w with lock := lock }.goto c pc') pc pc' where
  src := hpc
  live := hlive
  dst := rfl
  began := rfl
  db := rfl
  unchanged := fun _ hc => ⟨hclean hc, rfl, rfl⟩
  inflight := fun _ hq => .inl hq

/-- A step that leaves a clean place for good, with whatever it wrote, or that no honest store makes. -/
theorem CallShape.wrote {pc pc' : Pc} (hpc : w.pc c = some pc)
    (hheld : pc.holdsLock = true) (hclean : F.ConflictsUnwritten → pc'.clean = false)
    (hdst : w'.pc = Function.update w.pc c (some pc'))
    (hbegan : w'.began = w.began) (hdb : w'.db = w.db)
    (hinflight : ∀ q ∈ w'.inflight, q ∈ w.inflight ∨ q.caller = c ∧ pc'.gone) :
    CallShape F c w w' pc pc' where
  src := hpc
  live := not_gone_of_holdsLock hheld
  dst := hdst
  began := hbegan
  db := hdb
  unchanged := fun hstore hc => by rw [hclean hstore] at hc; cases hc
  inflight := hinflight

variable [DecidableEq H] [DecidableEq P]

theorem CallStep.shape (hs : CallStep F c w w') : ∃ pc pc', CallShape F c w w' pc pc' := by
  cases hs with
  | lockFailed hpc | locked hpc | diedWaiting hpc =>
    exact ⟨_, _, CallShape.moved hpc (by rintro (h | h) <;> cases h) fun _ => rfl⟩
  | exhausted hpc | revisionRead hpc | revisionFailed hpc | localRead hpc | localFailed hpc
  | noRemote hpc | skipped hpc | notSkipped hpc | remoteRead hpc | remoteFailed hpc | missing hpc
  | askPristine hpc | pristine hpc | established hpc | pristineFailed hpc | stale hpc | fresh hpc
  | localOnly hpc | remoteCurrent hpc | conflict hpc =>
    exact ⟨_, _, CallShape.moved hpc (not_gone_of_holdsLock rfl) fun _ => rfl⟩
  | localCurrent hpc | localWriteFailed hpc =>
    exact ⟨_, _, CallShape.moved hpc (not_gone_of_holdsLock rfl) fun h => by cases h⟩
  | died hpc hheld =>
    exact ⟨_, _, CallShape.moved hpc (not_gone_of_holdsLock hheld) fun h => by cases h⟩
  | remoteWritten hpc | seenStored hpc | localWritten hpc | localSyncFailed hpc =>
    exact ⟨_, _, CallShape.wrote hpc rfl (fun _ => rfl) rfl rfl rfl fun _ hq => .inl hq⟩
  | conflictWritten hpc _ _ _ _ hstore =>
    refine ⟨_, _, CallShape.wrote hpc rfl (fun hno => ?_) rfl rfl rfl fun _ hq => .inl hq⟩
    exact absurd (hstore.symm.trans hno) Bool.true_eq_false.mp
  | writeLost hpc =>
    refine ⟨_, _, CallShape.wrote hpc rfl (fun _ => rfl) rfl rfl rfl fun q hq => ?_⟩
    rcases List.mem_cons.mp hq with rfl | hold
    · exact .inr ⟨rfl, .inr rfl⟩
    · exact .inl hold
  | diedWriting hpc =>
    refine ⟨_, _, CallShape.wrote hpc rfl (fun _ => rfl) rfl rfl rfl fun q hq => ?_⟩
    rcases List.mem_cons.mp hq with rfl | hold
    · exact .inr ⟨rfl, .inl rfl⟩
    · exact .inl hold
  | seenCleared hpc =>
    exact ⟨_, _, ⟨hpc, not_gone_of_holdsLock rfl, rfl, rfl, rfl, fun _ _ => ⟨rfl, rfl, rfl⟩,
      fun _ hq => .inl hq⟩⟩

/-! ## A refused call wrote nothing -/

/-- Every write on its way was sent by a call that is gone. -/
def Abandoned (w : World D H P C) : Prop := ∀ q ∈ w.inflight, ∃ pc, w.pc q.caller = some pc ∧ pc.gone

theorem Step.abandoned {l : Label C} (hs : Step F w l w') (h : Abandoned w) : Abandoned w' := by
  cases hs with
  | commit | deliver => exact h
  | start c hpc =>
    intro q hq
    obtain ⟨pc, hqpc, hgone⟩ := h q hq
    have hne : q.caller ≠ c := by
      intro heq
      rw [heq, hpc] at hqpc
      cases hqpc
    exact ⟨pc, by simpa [World.goto, hne] using hqpc, hgone⟩
  | act c hc =>
    obtain ⟨pc, pc', hshape⟩ := hc.shape
    intro q hq
    rcases hshape.inflight q hq with hold | ⟨hcaller, hgone⟩
    · obtain ⟨p, hqpc, hgone⟩ := h q hold
      have hne : q.caller ≠ c := by
        intro heq
        rw [heq, hshape.src] at hqpc
        cases hqpc
        exact hshape.live hgone
      exact ⟨p, by rw [hshape.dst, Function.update_of_ne hne, hqpc], hgone⟩
    · exact ⟨pc', by rw [hshape.dst, hcaller, Function.update_self], hgone⟩

/-- A step of call `c` that changed neither witness. -/
def Untouched (c : C) (e : Event (World D H P C) (Label C)) : Prop :=
  e.label.caller? = some c → e.dst.file = e.src.file ∧ e.dst.object = e.src.object

/-- What the steps so far did for a call: nothing while it is not started, nothing to the witnesses
while it is clean. -/
def CleanHistory (tr : List (Event (World D H P C) (Label C))) (w : World D H P C) : Prop :=
  Abandoned w ∧ ∀ c, (∀ pc, w.pc c = some pc → pc.clean = true) → ∀ e ∈ tr, Untouched c e

theorem CleanHistory.snoc {l : Label C} (hstore : F.ConflictsUnwritten) (h : CleanHistory tr w)
    (hs : Step F w l w') : CleanHistory (⟨w, l, w'⟩ :: tr) w' := by
  refine ⟨hs.abandoned h.1, fun c hclean e he => ?_⟩
  have hold (hpc : ∀ pc, w.pc c = some pc → pc.clean = true)
      (hnew : Untouched c ⟨w, l, w'⟩) : Untouched c e := by
    rcases List.mem_cons.mp he with rfl | he
    · exact hnew
    · exact h.2 c hpc e he
  cases hs with
  | commit => exact hold hclean fun hc => by cases hc
  | start c' hpc =>
    refine hold (fun pc hpc' => ?_) fun _ => ⟨rfl, rfl⟩
    by_cases heq : c = c'
    · rw [heq, hpc] at hpc'
      cases hpc'
    · exact hclean pc (by simpa [World.goto, heq] using hpc')
  | act c' hc =>
    obtain ⟨pc, pc', hshape⟩ := hc.shape
    by_cases heq : c = c'
    · subst heq
      obtain ⟨hsrc, hfile, hobject⟩ := hshape.unchanged hstore
        (hclean pc' (by rw [hshape.dst, Function.update_self]))
      refine hold (fun p hp => ?_) fun _ => ⟨hfile, hobject⟩
      rw [hshape.src] at hp
      cases hp
      exact hsrc
    · refine hold (fun p hp => hclean p ?_) fun hcaller => ?_
      · rw [hshape.dst, Function.update_of_ne heq, hp]
      · exact absurd (Option.some.inj hcaller).symm heq
  | deliver q tag hq =>
    refine hold hclean fun hcaller => ?_
    -- a call whose write is still on its way is not clean
    obtain ⟨pc, hpc, hgone⟩ := h.1 q hq
    have heq : q.caller = c := Option.some.inj hcaller
    have := hclean pc (heq ▸ hpc)
    rw [hgone.not_clean] at this
    cases this

theorem cleanHistory_of_run (hstore : F.ConflictsUnwritten) (h0 : w₀.Initial F)
    (hrun : Run (Step F) w₀ tr w) : CleanHistory tr w := by
  refine hrun.invariant CleanHistory ⟨?_, ?_⟩ fun _ _ _ _ _ h hs => h.snoc hstore hs
  · intro q hq
    simp [h0.inflight] at hq
  · intro c _ e he
    cases he

/-! ## The revision a call started at -/

theorem began_of_run (hrun : Run (Step F) w₀ tr w) :
    ∀ c, ∀ e ∈ tr, e.label = .start c →
      w.began c = F.revision e.src.db ∧ ∃ pc, w.pc c = some pc := by
  refine hrun.invariant (fun tr t => ∀ c, ∀ e ∈ tr, e.label = Label.start c →
    t.began c = F.revision e.src.db ∧ ∃ pc, t.pc c = some pc) (fun _ _ he => by cases he) ?_
  intro tr t l u _ ih hs c e he hlabel
  rcases List.mem_cons.mp he with rfl | he
  · cases hlabel
    cases hs with
    | start _ hpc => simp [World.goto]
  · obtain ⟨hbegan, pc, hpc⟩ := ih c e he hlabel
    cases hs with
    | commit | deliver => exact ⟨hbegan, pc, hpc⟩
    | start c' hnone =>
      have hne : c ≠ c' := by
        rintro rfl
        rw [hnone] at hpc
        cases hpc
      exact ⟨by simpa [World.goto, hne] using hbegan, pc, by simpa [World.goto, hne] using hpc⟩
    | act c' hc =>
      obtain ⟨p, p', hshape⟩ := hc.shape
      refine ⟨by rw [hshape.began, hbegan], ?_⟩
      by_cases heq : c = c'
      · subst heq
        exact ⟨p', by rw [hshape.dst, Function.update_self]⟩
      · exact ⟨pc, by rw [hshape.dst, Function.update_of_ne heq, hpc]⟩

/-! ## The contract of `verify_and_advance` -/

/-- In every run of every fleet: no step lowers a witness; a call that has returned `Ok` left its
host's witness, and the remote one if its process has it, at or above the database revision at its
start; and if the remote store reports a conflict only for a write it has not applied, a call that has
returned `Missing`, `StaleDatabase` or `RemoteContention` changed neither. -/
theorem verifyAndAdvance_contract (h0 : w₀.Initial F) (hrun : Run (Step F) w₀ tr w) :
    (∀ e ∈ tr, Raised e.src e.dst) ∧
    (∀ c, ∀ e ∈ tr, e.label = .start c → w.pc c = some (.done (.ok ())) →
      AtLeast (w.file (F.hostOf c)).value (F.revision e.src.db) ∧
      (F.remoteOf c = true → AtLeast (remoteValue w.object) (F.revision e.src.db))) ∧
    (F.ConflictsUnwritten → ∀ c error, w.pc c = some (.done (.error error)) →
      error = .missing ∨ error = .staleDatabase ∨ error = .remoteContention →
      ∀ e ∈ tr, e.label.caller? = some c →
        e.dst.file = e.src.file ∧ e.dst.object = e.src.object) := by
  refine ⟨fun e he => ?_, fun c e he hstart hok => ?_, fun hstore c error hpc herror e he hcaller => ?_⟩
  · obtain ⟨later, earlier, rfl⟩ := List.append_of_mem he
    obtain ⟨hbefore, hstep, -⟩ := hrun.split
    exact (hstep.inv (inv_of_run h0 hbefore)).2
  · have hcall := (inv_of_run h0 hrun).call c _ trivial hok
    obtain ⟨hbegan, -⟩ := began_of_run hrun c e he hstart
    exact hbegan ▸ hcall
  · refine (cleanHistory_of_run hstore h0 hrun).2 c (fun pc hpc' => ?_) e he hcaller
    rw [hpc] at hpc'
    cases hpc'
    rcases herror with rfl | rfl | rfl <;> rfl

/-- One process on one host, with a remote witness; the database is its revision. -/
def soloFleet : Fleet Nat Unit Unit Unit where
  revision := id
  pristine := fun _ => false
  process := id
  host := id
  remote := fun _ => true
  conflictWrites := false

/-- The database has moved on to revision 5 while both witnesses stand at 4. -/
def soloWorld : World Nat Unit Unit Unit where
  db := 5
  file := fun _ => writtenFile 4
  lock := fun _ => none
  object := some ⟨revisionContents 4, "a"⟩
  versions := [⟨revisionContents 4, "a"⟩]
  inflight := []
  seen := fun _ => none
  pc := fun _ => none
  began := fun _ => 0

/-- A call that advances both witnesses from 4 to 5. -/
theorem verifyAndAdvance_contract_advanced :
    ∃ tr w, Run (Step soloFleet) soloWorld tr w ∧ w.pc () = some (.done (.ok ())) ∧
      AtLeast (w.file ()).value 5 ∧ AtLeast (remoteValue w.object) 5 := by
  have hlocal : readRevision (writtenFile 4) = .ok (some 4) := readRevision_writtenFile (by decide)
  have hremote : readRemote (some ⟨revisionContents 4, "a"⟩) = .ok (some ⟨4, "a"⟩) := by
    decide +kernel
  have htag : soloWorld.TagFor (revisionContents 5) "b" := by
    intro o ho heq
    rw [List.mem_singleton.mp ho] at heq
    exact absurd heq (by decide)
  have hempty : Run (Step soloFleet) soloWorld [] soloWorld := .refl
  have hread := ((((((hempty.snoc
    (.start () rfl)).snoc
    (.act () (.locked rfl rfl))).snoc
    (.act () (.revisionRead rfl))).snoc
    (.act () (.localRead rfl hlocal))).snoc
    (.act () (.notSkipped rfl rfl rfl))).snoc
    (.act () (.remoteRead rfl hremote)))
  have hrun := (((hread.snoc
    (.act () (.fresh (p := 4) rfl rfl (by decide)))).snoc
    (.act () (.remoteWritten rfl rfl (by decide) rfl htag))).snoc
    (.act () (.seenStored rfl))).snoc
    (.act () (.localWritten rfl (by decide)))
  have hinitial : soloWorld.Initial soloFleet :=
    ⟨by decide, fun _ => rfl, rfl, rfl, fun _ => rfl, fun _ => rfl⟩
  have hok := (verifyAndAdvance_contract hinitial hrun).2.1 () _
    (List.getLast_mem (List.cons_ne_nil _ _)) rfl rfl
  exact ⟨_, _, hrun, rfl, hok.1, hok.2 rfl⟩

end BloomRelay.Restore
