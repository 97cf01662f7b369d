import BloomRelay.Store.Proofs.LifecycleProofs

/-!
# The revision of a challenge set

The stored values of an installation change only together with the revision, until the installation is
retired, and only a reconciliation raises the ready revision. What else a step changes about the row
of an installation is in its label.
-/

namespace BloomRelay.Store

open Protocol

variable {i : Uuid} {v v' : View} {c : Change} {r : Installation}

/-- The revision of the challenge set. -/
def View.revision (v : View) : Nat := (v.challenge.map (·.revision)).getD 0

/-- The stored values, as a worker publishes them. -/
def View.members (v : View) : List String :=
  (v.values.map (·.txtValue)).mergeSort fun a b => decide (a ≤ b)

/-- The revision that was last observed. -/
def View.ready (v : View) : Option Nat := v.challenge.bind (·.readyRevision)

/-! ## One step -/

theorem View.revision_challengeStateOr (v : View) (i : Uuid) :
    (challengeStateOr i v.challenge).revision = v.revision := by
  unfold challengeStateOr View.revision
  cases v.challenge <;> rfl

theorem View.ready_challengeStateOr (v : View) (i : Uuid) :
    (challengeStateOr i v.challenge).readyRevision = v.ready := by
  unfold challengeStateOr View.ready
  cases v.challenge <;> rfl

theorem View.revision_bump (v : View) :
    ((v.challenge.map ChallengeState.bump).map (·.revision)).getD 0 =
      if v.challenge = none then 0 else v.revision + 1 := by
  unfold View.revision
  cases v.challenge <;> rfl

/-- The revision never falls. -/
theorem LifeStep.revision_le (h : LifeStep i v c v') : v.revision ≤ v'.revision := by
  cases h with
  | refreshed r txt expiresAt hrow hstate hlive =>
    show v.revision ≤ (challengeStateOr i v.challenge).revision
    rw [v.revision_challengeStateOr]
  | valueAdded r now x o hrow =>
    show v.revision ≤ (challengeStateOr i v.challenge).revision + 1
    rw [v.revision_challengeStateOr]
    exact Nat.le_succ _
  | valuesLapsed now o hlapsed ho =>
    show v.revision ≤ ((v.challenge.map ChallengeState.bump).map (·.revision)).getD 0
    rw [v.revision_bump]
    by_cases hnone : v.challenge = none
    · simp [View.revision, hnone]
    · rw [if_neg hnone]
      exact Nat.le_succ _
  | reconciled s hs =>
    show v.revision ≤ s.revision
    simp [View.revision, hs]
  | _ => exact Nat.le_refl _

/-- Only a reconciliation changes the ready revision. -/
theorem LifeStep.ready_eq (h : LifeStep i v c v') (hc : c ≠ .reconciled) : v'.ready = v.ready := by
  cases h with
  | refreshed r txt expiresAt hrow hstate hlive => exact v.ready_challengeStateOr i
  | valueAdded r now x o hrow => exact v.ready_challengeStateOr i
  | valuesLapsed now o hlapsed ho =>
    show (v.challenge.map ChallengeState.bump).bind (·.readyRevision) = v.ready
    unfold View.ready
    cases v.challenge <;> rfl
  | reconciled s hs => exact absurd rfl hc
  | _ => rfl

/-- A revision that was ready stays so until the next one. -/
theorem LifeStep.ready_stays (h : LifeStep i v c v') (hready : v.ready = some v.revision)
    (hrevision : v'.revision = v.revision) : v'.ready = some v'.revision := by
  by_cases hc : c = .reconciled
  · subst hc
    cases h
    rfl
  · rw [h.ready_eq hc, hrevision]
    exact hready

/-- An installation is retired and moved only by a step that says so. -/
theorem LifeStep.unretired (h : LifeStep i v c v') (hc : c ≠ .retired) (hr : v.row = some r)
    (hstate : r.state ≠ .retired) :
    ∃ r', v'.row = some r' ∧ r'.state ≠ .retired ∧ r'.hostname = r.hostname ∧
      (c ≠ .relocated → r'.placement = r.placement) := by
  cases h with
  | allocated r' o hrow =>
    rw [hrow] at hr
    cases hr
  | issued r' now x hrow | renewed r' now old x hrow | acmeBound r' uri o hrow | claimed r' l hrow =>
    obtain rfl : r' = r := Option.some.inj (hrow.symm.trans hr)
    exact ⟨_, rfl, hstate, rfl, fun _ => rfl⟩
  | relocated r' placement o hrow =>
    obtain rfl : r' = r := Option.some.inj (hrow.symm.trans hr)
    exact ⟨_, rfl, hstate, rfl, fun hmoved => absurd rfl hmoved⟩
  | dnsReady r' hrow hpending hacme =>
    obtain rfl : r' = r := Option.some.inj (hrow.symm.trans hr)
    exact ⟨_, rfl, nofun, rfl, fun _ => rfl⟩
  | retired => exact absurd rfl hc
  | expired => exact absurd rfl hc
  | _ => exact ⟨r, hr, hstate, rfl, fun _ => rfl⟩

theorem LifeStep.retired_of_change (h : LifeStep i v .retired v') :
    ∃ r, v'.row = some r ∧ r.state = .retired := by
  cases h with
  | retired r now o o' hrow => exact ⟨_, rfl, rfl⟩
  | expired r now o o' hrow => exact ⟨_, rfl, rfl⟩

/-- An account is bound only by a step that says so. -/
theorem LifeStep.account (h : LifeStep i v c v') (hr : v.row = some r) :
    ∃ r', v'.row = some r' ∧ (r'.acmeAccountUri = r.acmeAccountUri ∨
      ∃ uri, c = .bound uri ∧ r'.acmeAccountUri = some uri) := by
  cases h with
  | allocated r' o hrow =>
    rw [hrow] at hr
    cases hr
  | issued r' now x hrow | renewed r' now old x hrow | claimed r' l hrow | relocated r' placement o hrow
  | dnsReady r' hrow | retired r' now o o' hrow | expired r' now o o' hrow =>
    obtain rfl : r' = r := Option.some.inj (hrow.symm.trans hr)
    exact ⟨_, rfl, .inl rfl⟩
  | acmeBound r' uri o hrow => exact ⟨_, rfl, .inr ⟨uri, rfl, rfl⟩⟩
  | _ => exact ⟨r, hr, .inl rfl⟩

/-! ## What every life keeps -/

/-- Stored values have a revision, only an installation has one, and no revision is ready before it
is reached. -/
structure Challenged (v : View) : Prop where
  state : v.values ≠ [] → v.challenge ≠ none
  owner : v.challenge ≠ none → v.row ≠ none
  ready_le : ∀ n, v.ready = some n → n ≤ v.revision

theorem Challenged.migrated (i : Uuid) : Challenged (Db.migrated.view i) := by
  refine ⟨?_, ?_, ?_⟩
  · intro hvalues
    exact absurd rfl hvalues
  · intro hstate
    exact absurd rfl hstate
  · intro n hn
    cases hn

theorem Challenged.state_step (h : Challenged v) (hs : LifeStep i v c v') :
    v'.values ≠ [] → v'.challenge ≠ none := by
  cases hs with
  | retired =>
    intro hvalues
    exact absurd rfl hvalues
  | refreshed | valueAdded | reconciled => exact fun _ => nofun
  | valuesLapsed now o hlapsed ho =>
    intro hvalues
    have hbefore : v.values ≠ [] := by
      intro hnil
      simp [hnil] at hvalues
    simpa using h.state hbefore
  | _ => exact h.state

theorem Challenged.owner_step (h : Challenged v) (hs : LifeStep i v c v') :
    v'.challenge ≠ none → v'.row ≠ none := by
  cases hs with
  | same | leaseRenewed | jobRecorded => exact h.owner
  | refreshed r _ _ hrow | valueAdded r _ _ _ hrow =>
    intro _ hnone
    rw [hrow] at hnone
    cases hnone
  | valuesLapsed now o hlapsed ho =>
    intro hstate
    exact h.owner (by simpa using hstate)
  | reconciled s hs =>
    intro _
    exact h.owner (by rw [hs]; nofun)
  | _ => exact fun _ => nofun

theorem Challenged.step (h : Challenged v) (hs : LifeStep i v c v') : Challenged v' := by
  refine ⟨h.state_step hs, h.owner_step hs, ?_⟩
  by_cases hc : c = .reconciled
  · subst hc
    cases hs with
    | reconciled s hchallenge =>
      intro n hn
      have hready : some s.revision = some n := hn
      have hrevision : n = s.revision := (Option.some.inj hready).symm
      exact hrevision ▸ Nat.le_refl _
  · intro n hn
    rw [hs.ready_eq hc] at hn
    exact (h.ready_le n hn).trans hs.revision_le

theorem Challenged.run {tr : List (Event View Change)} (h : LifeRun i tr v) : Challenged v :=
  h.state_invariant Challenged (.migrated i) fun _ _ _ hv hs => hv.step hs

/-- The stored values change only together with the revision, or when the installation is retired. -/
theorem LifeStep.members_eq (h : LifeStep i v c v') (hv : Challenged v) (hc : c ≠ .retired)
    (hrevision : v'.revision = v.revision) : v'.members = v.members := by
  cases h with
  | retired => exact absurd rfl hc
  | refreshed r txt expiresAt hrow hstate hlive =>
    unfold View.members
    rw [List.map_map]
    congr 1
    refine List.map_congr_left fun x _ => ?_
    by_cases hx : x.txtValue = txt
    · simp [hx]
    · simp [hx]
  | valueAdded r now x o hrow =>
    have hbump : (challengeStateOr i v.challenge).revision + 1 = v.revision := hrevision
    rw [v.revision_challengeStateOr] at hbump
    omega
  | valuesLapsed now o hlapsed ho =>
    have hbump : ((v.challenge.map ChallengeState.bump).map (·.revision)).getD 0 = v.revision :=
      hrevision
    obtain ⟨x, hx, -⟩ := hlapsed
    rw [v.revision_bump, if_neg (hv.state (List.ne_nil_of_mem hx))] at hbump
    omega
  | _ => rfl

end BloomRelay.Store
