import BloomRelay.Store.Proofs.ChallengeSetProofs

/-!
# What is to be published

The identity that a worker publishes for an installation and the revision of its challenge set. A step
that changes one of them queues a job of its own, and whatever a job is about is there when it is
processed.
-/

namespace BloomRelay.Store

open Protocol

variable {i : Uuid} {v v' : View} {c : Change} {r : Installation}

/-- The hostname, the account and the placement to publish. -/
def View.identity (v : View) : Option (String × String × String) :=
  match v.row with
  | none => none
  | some r =>
    if r.state = .retired then none
    else r.acmeAccountUri.map fun uri => (r.hostname, uri, r.placement)

theorem View.identity_of_row {uri : String} (hr : v.row = some r) (hstate : r.state ≠ .retired)
    (huri : r.acmeAccountUri = some uri) : v.identity = some (r.hostname, uri, r.placement) := by
  simp [View.identity, hr, hstate, huri]

/-- What an unretired installation without an identity lacks is an account. -/
theorem View.isRetired_of_identity (hid : v.identity = none) (hr : v.row = some r)
    (huri : r.acmeAccountUri ≠ none) : v.isRetired = true := by
  rw [View.isRetired_of_row hr]
  by_contra hstate
  obtain ⟨uri, huri⟩ := Option.ne_none_iff_exists'.mp huri
  rw [View.identity_of_row hr (by simpa using hstate) huri] at hid
  cases hid

/-- A step that changes the identity retires the installation or queues a publication. -/
theorem LifeStep.identity_change (h : LifeStep i v c v') :
    v'.identity = v.identity ∨ c = .retired ∧ v'.identity = none ∨
      ∃ o, NewJob i .publishName o ∧ v'.jobs = v.jobs ++ [o] := by
  cases h with
  | allocated r o _ _ _ _ _ ho => exact .inr (.inr ⟨o, ho, rfl⟩)
  | acmeBound r uri o hrow hstate ho => exact .inr (.inr ⟨o, ho, rfl⟩)
  | relocated r placement o hrow hstate hplace ho => exact .inr (.inr ⟨o, ho, rfl⟩)
  | retired | expired => exact .inr (.inl ⟨rfl, rfl⟩)
  | issued r _ _ hrow | renewed r _ _ _ hrow | claimed r _ hrow =>
    refine .inl ?_
    unfold View.identity
    rw [hrow]
    rfl
  | dnsReady r hrow hstate =>
    refine .inl ?_
    simp [View.identity, hrow, hstate]
  | _ => exact .inl rfl

/-- A step that changes the revision queues a reconciliation. -/
theorem LifeStep.revision_change (h : LifeStep i v c v') :
    v'.revision = v.revision ∨ ∃ o, NewJob i .reconcileTxt o ∧ v'.jobs = v.jobs ++ [o] := by
  cases h with
  | refreshed => exact .inl (v.revision_challengeStateOr i)
  | valueAdded r now x o _ _ _ _ _ _ _ ho => exact .inr ⟨o, ho, rfl⟩
  | valuesLapsed now o _ ho => exact .inr ⟨o, ho, rfl⟩
  | reconciled s hs =>
    refine .inl ?_
    simp [View.revision, hs]
  | _ => exact .inl rfl

/-! ## Installations with an account -/

/-- An installation gets ready, and gets challenge values, only with an account. -/
structure Accounted (v : View) : Prop where
  ready : ∀ r, v.row = some r → r.state = .dnsReady → r.acmeAccountUri ≠ none
  challenge : v.challenge ≠ none → ∃ r, v.row = some r ∧ r.acmeAccountUri ≠ none

namespace Accounted

theorem migrated (i : Uuid) : Accounted (Db.migrated.view i) := by
  constructor
  · intro r hr
    cases hr
  · intro hstate
    exact absurd rfl hstate

theorem account_stays (h : LifeStep i v c v') (hr : ∃ r, v.row = some r ∧ r.acmeAccountUri ≠ none) :
    ∃ r, v'.row = some r ∧ r.acmeAccountUri ≠ none := by
  obtain ⟨r, hr, huri⟩ := hr
  obtain ⟨r', hr', heq | ⟨uri, -, heq⟩⟩ := h.account hr
  · exact ⟨r', hr', heq ▸ huri⟩
  · exact ⟨r', hr', by rw [heq]; exact Option.some_ne_none _⟩

theorem ready_step (h : Accounted v) (hs : LifeStep i v c v') :
    ∀ r, v'.row = some r → r.state = .dnsReady → r.acmeAccountUri ≠ none := by
  cases hs with
  | allocated r₀ o hrow hid hstate =>
    rintro r ⟨⟩ hready
    rw [hstate] at hready
    cases hready
  | issued r₀ now x hrow | renewed r₀ now old x hrow | claimed r₀ l hrow
  | relocated r₀ placement o hrow =>
    rintro r ⟨⟩ hready
    exact h.ready r₀ hrow hready
  | acmeBound r₀ uri o hrow =>
    rintro r ⟨⟩ hready
    exact Option.some_ne_none _
  | dnsReady r₀ hrow hstate hacme =>
    rintro r ⟨⟩ hready
    exact hacme
  | retired r₀ now o o' hrow | expired r₀ now o o' hrow =>
    rintro r ⟨⟩ hready
    cases hready
  | _ => exact h.ready

theorem challenge_step (h : Accounted v) (hs : LifeStep i v c v') :
    v'.challenge ≠ none → ∃ r, v'.row = some r ∧ r.acmeAccountUri ≠ none := by
  intro hstate
  have hold : v.challenge ≠ none ∨ ∃ r, v.row = some r ∧ r.state = .dnsReady := by
    cases hs with
    | refreshed r txt expiresAt hrow hready => exact .inr ⟨r, hrow, hready⟩
    | valueAdded r now x o hrow hready => exact .inr ⟨r, hrow, hready⟩
    | valuesLapsed => exact .inl (by simpa using hstate)
    | reconciled s hs => exact .inl (by rw [hs]; exact Option.some_ne_none _)
    | _ => exact .inl hstate
  refine account_stays hs ?_
  rcases hold with hchallenge | ⟨r, hr, hready⟩
  · exact h.challenge hchallenge
  · exact ⟨r, hr, h.ready r hr hready⟩

theorem run {tr : List (Event View Change)} (h : LifeRun i tr v) : Accounted v :=
  h.state_invariant Accounted (migrated i) fun _ _ _ hv hs =>
    ⟨hv.ready_step hs, hv.challenge_step hs⟩

end Accounted

/-! ## What a job is about -/

section Jobs

variable {sha256 : Bytes → Bytes32} {db : Db} {tr : List (Event Db Call)} {o : OutboxRow}

theorem queued_pos (ho : o ∈ db.outbox) : 0 < (db.view o.installationId).queued o.kind := by
  refine List.countP_pos_iff.mpr ⟨o, ?_, by simp⟩
  exact List.mem_filter.mpr ⟨ho, by simp⟩

/-- A reconciliation is about a set that was changed, of an installation with an account. -/
theorem reconciled_set (h : StoreRun sha256 tr db) (ho : o ∈ db.outbox) (hkind : o.kind = .reconcileTxt) :
    0 < (db.view o.installationId).revision ∧
      ∃ r, (db.view o.installationId).row = some r ∧ r.acmeAccountUri ≠ none := by
  have hlife := life_run h o.installationId
  have hpos := queued_pos ho
  rw [hkind, (ChallengeSet.run hlife).counted] at hpos
  refine ⟨hpos, (Accounted.run hlife).challenge fun hnone => ?_⟩
  simp [View.revision, hnone] at hpos

/-- A removal is about a retired installation. -/
theorem retired_of_removal (h : StoreRun sha256 tr db) (ho : o ∈ db.outbox)
    (hkind : o.kind.isRemoval = true) : (db.view o.installationId).isRetired = true := by
  have hpos := queued_pos ho
  rw [(Retiring.run (life_run h o.installationId)).removals o.kind hkind] at hpos
  by_contra hret
  rw [if_neg hret] at hpos
  cases hpos

end Jobs

end BloomRelay.Store
