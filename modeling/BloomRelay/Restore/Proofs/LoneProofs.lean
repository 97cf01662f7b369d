import BloomRelay.Restore.Proofs.MachineProofs

/-!
# A call that runs alone

`verifyAndAdvance` is what the machine does when one call takes all the steps and no device fails: the
steps lead to exactly its answer and its witnesses.
-/

namespace BloomRelay.Restore

variable {D H P C : Type} {F : Fleet D H P C} {w x y z : World D H P C} {c : C}

/-- What the call sees of the witnesses. -/
def World.witnesses (F : Fleet D H P C) (w : World D H P C) (c : C) : Witnesses :=
  ⟨w.file (F.hostOf c), w.object, w.seen (F.process c)⟩

@[simp] theorem witnesses_goto [DecidableEq C] (pc : Pc) :
    (x.goto c pc).witnesses F c = x.witnesses F c := rfl

theorem goto_pc [DecidableEq C] (pc : Pc) : (x.goto c pc).pc c = some pc := by simp [World.goto]

variable [DecidableEq H] [DecidableEq P] [DecidableEq C]

/-- Steps of call `c` lead from `x` to `y`. -/
def LoneRun (F : Fleet D H P C) (c : C) (x y : World D H P C) : Prop :=
  ∃ tr, Run (Step F) x tr y ∧ ∀ e ∈ tr, e.label.caller? = some c

namespace LoneRun

theorem refl : LoneRun F c x x := ⟨[], .refl, fun _ he => (List.not_mem_nil he).elim⟩

theorem act (h : LoneRun F c x y) (hs : CallStep F c y z) : LoneRun F c x z := by
  obtain ⟨tr, hrun, hcaller⟩ := h
  refine ⟨_, hrun.snoc (.act c hs), fun e he => ?_⟩
  rcases List.mem_cons.mp he with rfl | hold
  · rfl
  · exact hcaller e hold

theorem trans (h : LoneRun F c x y) (h' : LoneRun F c y z) : LoneRun F c x z := by
  obtain ⟨tr, hrun, hcaller⟩ := h
  obtain ⟨tr', hrun', hcaller'⟩ := h'
  refine ⟨_, hrun.trans hrun', fun e he => ?_⟩
  rcases List.mem_append.mp he with hnew | hold
  · exact hcaller' e hnew
  · exact hcaller e hold

end LoneRun

/-- Call `c` runs alone from `x`, returns `result` and leaves the witnesses `ws`. -/
def Returns (F : Fleet D H P C) (c : C) (x : World D H P C)
    (outcome : Except WitnessError Unit × Witnesses) : Prop :=
  ∃ y, LoneRun F c x y ∧ y.pc c = some (.done outcome.1) ∧ y.witnesses F c = outcome.2

theorem Returns.after {outcome : Except WitnessError Unit × Witnesses} (h : LoneRun F c x y)
    (hret : Returns F c y outcome) : Returns F c x outcome := by
  obtain ⟨z, hrun, hz⟩ := hret
  exact ⟨z, h.trans hrun, hz⟩

/-- A step that ends the call and writes nothing. -/
theorem Returns.finish {result : Except WitnessError Unit}
    (h : CallStep F c x (x.finish F c (.done result))) :
    Returns F c x (result, x.witnesses F c) :=
  ⟨_, LoneRun.refl.act h, by simp [World.finish, World.goto], rfl⟩

/-! ## The last part first -/

theorem returns_of_finishing {R : Nat} {L : Option Nat} (h : x.pc c = some (.finishing R L)) :
    Returns F c x (.ok (), if L = some R then x.witnesses F c
      else { x.witnesses F c with file := writtenFile R }) := by
  by_cases hL : L = some R
  · rw [if_pos hL]
    exact .finish (.localCurrent h hL)
  · rw [if_neg hL]
    refine ⟨_, LoneRun.refl.act (.localWritten h hL), by simp [World.finish, World.goto], ?_⟩
    simp [World.witnesses, World.finish, World.goto, World.setLock, World.setFile]

/-- The tag that was read is still the current one. -/
theorem writeAllowed_of_read {object : Option RemoteObject} {r : Option RemoteRevision}
    (h : readRemote object = .ok r) : writeAllowed object r := by
  cases r with
  | none =>
    cases object with
    | none => rfl
    | some o =>
      simp [readRemote, Checked.bind_eq_ok] at h
  | some r =>
    obtain ⟨o, rfl, htag, -⟩ := readRemote_some h
    simp [writeAllowed, htag]

theorem returns_of_settled {R : Nat} {L : Option Nat} {r : RemoteRevision}
    (h : x.pc c = some (.settled R L r)) :
    Returns F c x (.ok (), if L = some R then { x.witnesses F c with seen := some r }
      else { x.witnesses F c with seen := some r, file := writtenFile R }) := by
  have hstep : CallStep F c x _ := .seenStored h
  have hret := returns_of_finishing (F := F) (goto_pc (x := x.setSeen (F.process c) (some r))
    (c := c) (.finishing R L))
  have hws : ((x.setSeen (F.process c) (some r)).goto c (.finishing R L)).witnesses F c =
      { x.witnesses F c with seen := some r } := by
    simp [World.witnesses, World.goto, World.setSeen]
  rw [hws] at hret
  exact .after (LoneRun.refl.act hstep) hret

/-- From the checks on, with a remote witness. -/
theorem returns_of_checked {n R : Nat} {L : Option Nat} {r : Option RemoteRevision}
    {etag : Bytes → String} (h : x.pc c = some (.checked n R L r)) (hr : F.remoteOf c = true)
    (hread : readRemote x.object = .ok r)
    (htag : x.TagFor (revisionContents R) (etag (revisionContents R))) :
    Returns F c x (.ok (), if L = some R then advanceRemote etag R r (x.witnesses F c)
      else { advanceRemote etag R r (x.witnesses F c) with file := writtenFile R }) := by
  by_cases hcurrent : r.map (·.revision) = some R
  · obtain ⟨v, rfl, hv⟩ := Option.map_eq_some_iff.mp hcurrent
    have hret := returns_of_settled (F := F) (goto_pc (x := x) (c := c) (.settled R L v))
    simpa [advanceRemote, hv] using Returns.after (LoneRun.refl.act (.remoteCurrent h hr hv)) hret
  · have hstep := CallStep.remoteWritten h hr hcurrent (writeAllowed_of_read hread) htag
    have hret := returns_of_settled (F := F)
      (goto_pc (x := x.putObject ⟨revisionContents R, etag (revisionContents R)⟩) (c := c)
        (.settled R L ⟨R, etag (revisionContents R)⟩))
    have hadvance : advanceRemote etag R r (x.witnesses F c) =
        { x.witnesses F c with
          object := some ⟨revisionContents R, etag (revisionContents R)⟩
          seen := some ⟨R, etag (revisionContents R)⟩ } := by
      cases r with
      | none => rfl
      | some v =>
        have hne : v.revision ≠ R := by simpa using hcurrent
        simp [advanceRemote, hne]
    rw [hadvance]
    exact .after (LoneRun.refl.act hstep) hret

/-! ## The checks -/

/-- The check against the highest witness passes, or the call returns its error. -/
theorem checked_of_gotRemote {n R : Nat} {L : Option Nat} {r : Option RemoteRevision}
    (h : x.pc c = some (.gotRemote n R L r))
    (hok : checkPrior R (F.pristine x.db) (prior L r) = .ok ()) :
    ∃ y, LoneRun F c x y ∧ y.pc c = some (.checked n R L r) ∧
      y.witnesses F c = x.witnesses F c ∧ y.versions = x.versions := by
  cases hp : prior L r with
  | none =>
    simp only [checkPrior, hp, Checked.require_eq_ok] at hok
    obtain ⟨hR, hpristine⟩ := hok
    have hask : LoneRun F c x _ := LoneRun.refl.act (.askPristine h hp hR)
    exact ⟨_, hask.act (.pristine (goto_pc _) hpristine), goto_pc _, rfl, rfl⟩
  | some p =>
    simp only [checkPrior, hp, Checked.require_eq_ok] at hok
    exact ⟨_, LoneRun.refl.act (.fresh h hp hok), goto_pc _, rfl, rfl⟩

theorem refused_of_gotRemote {n R : Nat} {L : Option Nat} {r : Option RemoteRevision}
    {e : WitnessError} (h : x.pc c = some (.gotRemote n R L r))
    (herror : checkPrior R (F.pristine x.db) (prior L r) = .error e) :
    Returns F c x (.error e, x.witnesses F c) := by
  cases hp : prior L r with
  | none =>
    simp only [checkPrior, hp, Checked.require] at herror
    split at herror
    · cases herror
    · rename_i hnew
      cases herror
      by_cases hR : R = 1
      · have hask : LoneRun F c x _ := LoneRun.refl.act (.askPristine h hp hR)
        have hpristine : F.pristine x.db = false := by simpa [hR] using hnew
        exact .after hask (.finish (.established (goto_pc _) hpristine))
      · exact .finish (.missing h hp hR)
  | some p =>
    simp only [checkPrior, hp, Checked.require] at herror
    split at herror
    · cases herror
    · rename_i hlt
      cases herror
      exact .finish (.stale h hp (by omega))

theorem returns_of_gotRemote {n R : Nat} {L : Option Nat} {r : Option RemoteRevision}
    {etag : Bytes → String} (h : x.pc c = some (.gotRemote n R L r))
    (hread : F.remoteOf c = true → readRemote x.object = .ok r)
    (htag : x.TagFor (revisionContents R) (etag (revisionContents R))) :
    Returns F c x (concludeAttempt etag (F.remoteOf c) R (F.pristine x.db) L r
      (x.witnesses F c)) := by
  unfold concludeAttempt
  cases hcheck : checkPrior R (F.pristine x.db) (prior L r) with
  | error e => exact refused_of_gotRemote h hcheck
  | ok u =>
    obtain ⟨y, hrun, hy, hws, hversions⟩ := checked_of_gotRemote h hcheck
    refine .after hrun ?_
    have hobject : y.object = x.object := congrArg Witnesses.object hws
    rw [← hws]
    cases hr : F.remoteOf c with
    | true =>
      refine returns_of_checked hy hr (hobject ▸ hread hr) fun o ho => htag o (hversions ▸ ho)
    | false =>
      exact .after (LoneRun.refl.act (.localOnly hy hr)) (returns_of_finishing (goto_pc _))

/-! ## The whole call -/

/-- The call takes the lock and reads the revision. -/
theorem gotRevision_of_start (hpc : w.pc c = none) (hlock : w.lock (F.hostOf c) = none) :
    ∃ y, LoneRun F c w y ∧ y.pc c = some (.gotRevision 3 (F.revision w.db)) ∧
      y.witnesses F c = w.witnesses F c ∧ y.versions = w.versions ∧ y.db = w.db := by
  have hstart : LoneRun F c w _ :=
    ⟨_, Run.refl.snoc (.start c hpc), fun e he => by rw [List.mem_singleton.mp he]; rfl⟩
  have hlocked := hstart.act (.locked (goto_pc _) hlock)
  exact ⟨_, hlocked.act (.revisionRead (n := 3) (goto_pc _)), goto_pc _, rfl, rfl, rfl⟩

theorem returns_of_gotRevision {n R : Nat} {etag : Bytes → String}
    (h : x.pc c = some (.gotRevision n R))
    (htag : x.TagFor (revisionContents R) (etag (revisionContents R))) :
    Returns F c x (verifyAndAdvance etag (F.remoteOf c) R (F.pristine x.db) (x.witnesses F c)) := by
  have hfile : (x.witnesses F c).file = x.file (F.hostOf c) := rfl
  unfold verifyAndAdvance
  rw [hfile]
  cases hL : readRevision (x.file (F.hostOf c)) with
  | error e =>
    cases readRevision_error hL
    exact .finish (.localFailed h)
  | ok L =>
    refine .after (LoneRun.refl.act (.localRead h hL)) ?_
    cases hr : F.remoteOf c with
    | false =>
      have hremote := LoneRun.refl.act (.noRemote (F := F) (goto_pc (x := x) (.gotLocal n R L)) hr)
      have hret := returns_of_gotRemote (F := F) (goto_pc (x := x.goto c (.gotLocal n R L)) (c := c)
        (.gotRemote n R L none)) (fun hr' => by rw [hr] at hr'; cases hr') htag
      rw [hr] at hret
      exact .after hremote hret
    | true =>
      simp only [if_true]
      cases hseen : seenCurrent R L (x.witnesses F c).seen with
      | true => exact .finish (.skipped (goto_pc _) hr hseen)
      | false =>
        have hasked := LoneRun.refl.act
          (.notSkipped (F := F) (goto_pc (x := x) (.gotLocal n R L)) hr hseen)
        have hobject : (x.witnesses F c).object = x.object := rfl
        rw [hobject]
        refine .after hasked ?_
        cases hread : readRemote x.object with
        | error e =>
          cases readRemote_error hread
          exact .finish (.remoteFailed (goto_pc _))
        | ok r =>
          have hret := returns_of_gotRemote (F := F)
            (goto_pc (x := (x.goto c (.gotLocal n R L)).goto c (.needRemote n R L)) (c := c)
              (.gotRemote n R L r)) (fun _ => hread) htag
          rw [hr] at hret
          exact .after (LoneRun.refl.act (.remoteRead (goto_pc _) hread)) hret

/-- A call of the machine that runs alone is `verifyAndAdvance`. -/
theorem lone_call {etag : Bytes → String} (hpc : w.pc c = none)
    (hlock : w.lock (F.hostOf c) = none)
    (htag : w.TagFor (revisionContents (F.revision w.db))
      (etag (revisionContents (F.revision w.db)))) :
    Returns F c w (verifyAndAdvance etag (F.remoteOf c) (F.revision w.db) (F.pristine w.db)
      (w.witnesses F c)) := by
  obtain ⟨x, hrun, hx, hws, hversions, hdb⟩ := gotRevision_of_start (F := F) hpc hlock
  rw [← hws, ← hdb]
  rw [← hdb] at hx htag
  exact .after hrun (returns_of_gotRevision hx fun o ho => htag o (hversions ▸ ho))

end BloomRelay.Restore
