import BloomRelay.Store.Proofs.LifecycleProofs

/-!
# Lease fencing

A lease belongs to a ready installation, names the gateway of its placement, and is newer than
anything that was to end it: every tunnel credential and every earlier claim. The invariant is proved
over the lives of one installation and carried to the database by `life_run`.
-/

namespace BloomRelay.Store

open Protocol

variable {i : Uuid} {v v' : View} {c : Change}

/-! ## Generations -/

/-- The generation of the installation, zero before it is allocated. -/
def View.generation (v : View) : Nat := (v.row.map (·.generation)).getD 0

theorem View.generation_of_row {r : Installation} (h : v.row = some r) :
    v.generation = r.generation := by
  simp [View.generation, h]

theorem LifeStep.generation_le (h : LifeStep i v c v') : v.generation ≤ v'.generation := by
  cases h with
  | same | leaseRenewed | valuesLapsed | reconciled | jobRecorded => exact le_rfl
  | allocated r o hrow => simp [View.generation, hrow]
  | issued r _ c hrow | renewed r _ _ c hrow | claimed r l hrow =>
    simp [View.generation, hrow, Installation.bump]
  | acmeBound r _ o hrow | dnsReady r hrow | relocated r _ o hrow | retired r _ o o' hrow
  | expired r _ o o' hrow | refreshed r _ _ hrow | valueAdded r _ x o hrow =>
    simp [View.generation, hrow, Installation.retire]

/-- A generation that is handed out is the next one, and the installation takes it over. -/
theorem LifeStep.generation_eq {g : Nat} (h : LifeStep i v c v') (hg : c.generation? = some g) :
    g = v.generation + 1 ∧ v'.generation = g := by
  cases h with
  | issued r _ c hrow _ _ hgen | renewed r _ _ c hrow _ _ _ _ _ _ hgen =>
    cases hg
    simp [View.generation, hrow, hgen, Installation.bump]
  | claimed r l hrow _ _ _ hgen =>
    cases hg
    simp [View.generation, hrow, hgen, Installation.bump]
  | same | allocated | acmeBound | dnsReady | leaseRenewed | relocated | retired | expired | refreshed
  | valueAdded | valuesLapsed | reconciled | jobRecorded => cases hg

/-! ## The invariant -/

/-- What ties lease, credentials and installation together. -/
structure Fenced (v : View) : Prop where
  credential : ∀ c ∈ v.credentials, ∃ r, v.row = some r ∧ c.generation ≤ r.generation
  lease : ∀ l, v.lease = some l → ∃ r, v.row = some r ∧ r.state = .dnsReady ∧
    l.gatewayId = r.placement ∧ l.generation ≤ r.generation
  newer : ∀ l, v.lease = some l → ∀ c ∈ v.credentials, c.scope = .tunnel →
    c.generation < l.generation

namespace Fenced

theorem migrated (i : Uuid) : Fenced (Db.migrated.view i) := by
  constructor
  · intro c hc
    cases hc
  · intro l hl
    cases hl
  · intro l hl
    cases hl

theorem credential_le (h : Fenced v) {r : Installation} (hrow : v.row = some r) :
    ∀ c ∈ v.credentials, c.generation ≤ r.generation := by
  intro c hc
  obtain ⟨r', hr', hle⟩ := h.credential c hc
  rw [hrow] at hr'
  cases hr'
  exact hle

theorem lease_row (h : Fenced v) {r : Installation} (hrow : v.row = some r) {l : TunnelLease}
    (hl : v.lease = some l) :
    r.state = .dnsReady ∧ l.gatewayId = r.placement ∧ l.generation ≤ r.generation := by
  obtain ⟨r', hr', hlease⟩ := h.lease l hl
  rw [hrow] at hr'
  cases hr'
  exact hlease

/-- An installation that is not ready has no lease. -/
theorem lease_none (h : Fenced v) {r : Installation} (hrow : v.row = some r)
    (hstate : r.state ≠ .dnsReady) : v.lease = none := by
  cases hl : v.lease with
  | none => rfl
  | some l => exact absurd (h.lease_row hrow hl).1 hstate

/-- An update of the row that keeps what a lease depends on. -/
theorem setRow (h : Fenced v) {r r' : Installation} (hrow : v.row = some r)
    (hgen : r.generation ≤ r'.generation)
    (hkeep : v.lease ≠ none → r'.state = r.state ∧ r'.placement = r.placement) :
    Fenced { v with row := some r' } := by
  constructor
  · intro c hc
    exact ⟨r', rfl, (h.credential_le hrow c hc).trans hgen⟩
  · intro l hl
    obtain ⟨hstate, hplace, hle⟩ := h.lease_row hrow hl
    obtain ⟨hs, hp⟩ := hkeep (by rw [show v.lease = some l from hl]; simp)
    exact ⟨r', rfl, hs.trans hstate, hplace.trans hp.symm, hle.trans hgen⟩
  · exact h.newer

/-- Revoking credentials and adding one with the next generation. -/
theorem rotated (h : Fenced v) {r : Installation} (hrow : v.row = some r) {now : Time}
    {p : Credential → Bool} {c : Credential} (hgen : c.generation = r.generation + 1) :
    Fenced { v with
      row := some r.bump
      credentials := revokeIn now p v.credentials ++ [c]
      lease := leaseAfterRotation c.scope v.lease } := by
  constructor
  · intro x hx
    refine ⟨r.bump, rfl, ?_⟩
    show x.generation ≤ r.generation + 1
    rcases List.mem_append.mp hx with hx | hx
    · obtain ⟨y, hy, -, hyg⟩ := exists_of_mem_revokeIn hx
      have := h.credential_le hrow y hy
      omega
    · rw [List.mem_singleton.mp hx]
      omega
  · intro l hl
    have hl' : leaseAfterRotation c.scope v.lease = some l := hl
    unfold leaseAfterRotation at hl'
    split at hl'
    · cases hl'
    · obtain ⟨hstate, hplace, hle⟩ := h.lease_row hrow hl'
      exact ⟨r.bump, rfl, hstate, hplace, Nat.le_succ_of_le hle⟩
  · intro l hl x hx hxs
    have hl' : leaseAfterRotation c.scope v.lease = some l := hl
    unfold leaseAfterRotation at hl'
    split at hl'
    · cases hl'
    · rename_i hscope
      rcases List.mem_append.mp hx with hx | hx
      · obtain ⟨y, hy, hys, hyg⟩ := exists_of_mem_revokeIn hx
        rw [hyg]
        exact h.newer l hl' y hy (hys.symm.trans hxs)
      · rw [List.mem_singleton.mp hx] at hxs
        exact absurd hxs hscope

/-- Every step keeps the invariant. -/
theorem step (h : Fenced v) (hs : LifeStep i v c v') : Fenced v' := by
  cases hs with
  | same => exact h
  | allocated r o hrow =>
    -- Nothing is stored about an installation before it is allocated.
    constructor
    · intro c hc
      obtain ⟨r', hr', -⟩ := h.credential c hc
      rw [hrow] at hr'
      cases hr'
    · intro l hl
      obtain ⟨r', hr', -⟩ := h.lease l hl
      rw [hrow] at hr'
      cases hr'
    · exact h.newer
  | issued r now c hrow _ _ hgen => exact h.rotated hrow hgen
  | renewed r now _ c hrow _ _ _ _ _ _ hgen => exact h.rotated hrow hgen
  | acmeBound r uri o hrow =>
    have h' : Fenced { v with row := some { r with acmeAccountUri := some uri } } :=
      h.setRow hrow le_rfl fun _ => ⟨rfl, rfl⟩
    exact ⟨h'.credential, h'.lease, h'.newer⟩
  | dnsReady r hrow hstate =>
    refine h.setRow hrow le_rfl fun hl => absurd (h.lease_none hrow ?_) hl
    rw [hstate]
    simp
  | claimed r l hrow hstate _ hgateway hgen =>
    constructor
    · intro c hc
      exact ⟨r.bump, rfl, Nat.le_succ_of_le (h.credential_le hrow c hc)⟩
    · intro l' hl'
      cases hl'
      exact ⟨r.bump, rfl, hstate, hgateway, hgen.le⟩
    · intro l' hl' c hc _
      cases hl'
      have := h.credential_le hrow c hc
      omega
  | leaseRenewed l expiresAt hlease =>
    constructor
    · exact h.credential
    · intro l' hl'
      cases hl'
      exact h.lease l hlease
    · intro l' hl'
      cases hl'
      exact h.newer l hlease
  | relocated r placement o hrow =>
    constructor
    · intro c hc
      exact ⟨_, rfl, Nat.le_succ_of_le (h.credential_le hrow c hc)⟩
    · intro l hl
      cases hl
    · intro l hl
      cases hl
  | retired r now o o' hrow =>
    constructor
    · intro c hc
      exact ⟨_, rfl, Nat.le_succ_of_le (h.credential_le hrow c hc)⟩
    · intro l hl
      cases hl
    · intro l hl
      cases hl
  | expired r now o o' hrow hstate =>
    have hnone : v.lease = none := h.lease_none hrow (by rw [hstate]; simp)
    have h' : Fenced { v with row := some (r.retire now) } :=
      h.setRow hrow (Nat.le_succ _) fun hl => absurd hnone hl
    exact ⟨h'.credential, h'.lease, h'.newer⟩
  | refreshed | valueAdded | valuesLapsed | reconciled | jobRecorded =>
    exact ⟨h.credential, h.lease, h.newer⟩

theorem run {tr : List (Event View Change)} (h : LifeRun i tr v) : Fenced v :=
  h.state_invariant Fenced (migrated i) fun _ _ _ => step

end Fenced

/-! ## What ends a lease -/

/-- The changes after which every earlier lease is void. -/
def Change.fences : Change → Bool
  | .claimed _ | .issued .tunnel _ | .renewed .tunnel _ | .relocated | .retired => true
  | _ => false

/-- Where the lease after a step comes from: there is none, the step claimed it, or it was there
before a step that fences nothing. -/
theorem LifeStep.lease_cases (hv : Fenced v) (h : LifeStep i v c v') :
    v'.lease = none ∨
    (∃ l, v'.lease = some l ∧ c = .claimed l.generation ∧ l.generation = v.generation + 1) ∨
    (∃ l l', c.fences = false ∧ v.lease = some l ∧ v'.lease = some l' ∧
      l'.generation = l.generation) := by
  have hkeep : c.fences = false → v'.lease = v.lease → v'.lease = none ∨
      (∃ l, v'.lease = some l ∧ c = .claimed l.generation ∧ l.generation = v.generation + 1) ∨
      (∃ l l', c.fences = false ∧ v.lease = some l ∧ v'.lease = some l' ∧
        l'.generation = l.generation) := by
    intro hc hl
    cases hv' : v'.lease with
    | none => exact .inl rfl
    | some l => exact .inr (.inr ⟨l, l, hc, hl.symm.trans hv', rfl, rfl⟩)
  cases h with
  | same | allocated | acmeBound | dnsReady | refreshed | valueAdded | valuesLapsed | reconciled
  | jobRecorded => exact hkeep rfl rfl
  | issued r now c hrow | renewed r now _ c hrow =>
    cases hs : c.scope with
    | tunnel => exact .inl (by simp [leaseAfterRotation])
    | dnsChallenge =>
      rw [hs] at hkeep
      exact hkeep rfl (by simp [leaseAfterRotation])
  | claimed r l hrow _ _ _ hgen =>
    exact .inr (.inl ⟨l, rfl, rfl, by rw [View.generation_of_row hrow]; exact hgen⟩)
  | leaseRenewed l expiresAt hlease => exact .inr (.inr ⟨l, _, rfl, hlease, rfl, rfl⟩)
  | relocated | retired => exact .inl rfl
  | expired r now o o' hrow hstate =>
    exact .inl (hv.lease_none hrow (by rw [hstate]; simp))

/-- A lease that is there after a fencing step is newer than the installation was before it. -/
theorem LifeStep.lease_newer (hv : Fenced v) (h : LifeStep i v c v') (hc : c.fences = true)
    {l : TunnelLease} (hl : v'.lease = some l) : v.generation < l.generation := by
  rcases h.lease_cases hv with hnone | ⟨l', hl', -, hgen⟩ | ⟨_, _, hno, _⟩
  · rw [hnone] at hl
    cases hl
  · rw [hl'] at hl
    cases hl
    omega
  · rw [hc] at hno
    cases hno

/-- And so is every lease in every later state. -/
theorem lease_newer_of_run {tr : List (Event View Change)} {g : Nat} (hv : Fenced v)
    (hgen : g ≤ v.generation) (hl : ∀ l, v.lease = some l → g < l.generation)
    (h : Run (LifeStep i) v tr v') : ∀ l, v'.lease = some l → g < l.generation := by
  have hinv := h.state_invariant
    (fun w => Fenced w ∧ g ≤ w.generation ∧ ∀ l, w.lease = some l → g < l.generation)
    ⟨hv, hgen, hl⟩ ?_
  · exact hinv.2.2
  · rintro w c w' ⟨hw, hg, hlw⟩ hs
    refine ⟨hw.step hs, hg.trans hs.generation_le, fun l hl => ?_⟩
    rcases hs.lease_cases hw with hnone | ⟨l', hl', -, hnew⟩ | ⟨l₀, l', -, hl₀, hl', heq⟩
    · rw [hnone] at hl
      cases hl
    · rw [hl'] at hl
      cases hl
      omega
    · rw [hl'] at hl
      cases hl
      rw [heq]
      exact hlw l₀ hl₀

/-! ## The generations handed out -/

/-- The generations claims, issues and renewals returned, the latest first. -/
def handedOut (tr : List (Event View Change)) : List Nat := tr.filterMap (·.label.generation?)

theorem handedOut_run {tr : List (Event View Change)} (h : LifeRun i tr v) :
    (∀ g ∈ handedOut tr, g ≤ v.generation) ∧ (handedOut tr).Pairwise (· > ·) := by
  refine h.invariant
    (fun tr v => (∀ g ∈ handedOut tr, g ≤ v.generation) ∧ (handedOut tr).Pairwise (· > ·))
    ⟨by simp [handedOut], List.Pairwise.nil⟩ ?_
  rintro tr w c w' - ⟨hle, hpair⟩ hs
  cases hg : c.generation? with
  | none =>
    have heq : handedOut (⟨w, c, w'⟩ :: tr) = handedOut tr := by simp [handedOut, hg]
    rw [heq]
    exact ⟨fun g hmem => (hle g hmem).trans hs.generation_le, hpair⟩
  | some g =>
    have heq : handedOut (⟨w, c, w'⟩ :: tr) = g :: handedOut tr := by simp [handedOut, hg]
    obtain ⟨hnext, hnow⟩ := hs.generation_eq hg
    rw [heq, hnow]
    refine ⟨fun g' hmem => ?_, List.Pairwise.cons (fun g' hmem => ?_) hpair⟩
    · rcases List.mem_cons.mp hmem with rfl | hmem
      · exact le_rfl
      · have := hle g' hmem
        omega
    · have := hle g' hmem
      omega

/-- Whoever was handed a generation is allocated, and at least that far. -/
theorem handedOut_row {tr : List (Event View Change)} (h : LifeRun i tr v) :
    ∀ g ∈ handedOut tr, ∃ r, v.row = some r ∧ g ≤ r.generation := by
  intro g hg
  have hle := (handedOut_run h).1 g hg
  have hpos : 0 < g := by
    obtain ⟨e, he, hlabel⟩ := List.mem_filterMap.mp hg
    have := (LifeStep.generation_eq (h.step_of_mem he) hlabel).1
    omega
  cases hrow : v.row with
  | none =>
    simp only [View.generation, hrow, Option.map_none, Option.getD_none] at hle
    omega
  | some r => exact ⟨r, rfl, by rw [← View.generation_of_row hrow]; exact hle⟩

/-- The lease is the latest claim, and later than every tunnel credential handed out. -/
structure LatestClaim (tr : List (Event View Change)) (l : TunnelLease) : Prop where
  claimed : ∃ e ∈ tr, e.label = .claimed l.generation
  claims : ∀ e ∈ tr, ∀ g, e.label = .claimed g → g ≤ l.generation
  rotations : ∀ e ∈ tr, ∀ g, e.label = .issued .tunnel g ∨ e.label = .renewed .tunnel g →
    g < l.generation

theorem latestClaim_run {tr : List (Event View Change)} (h : LifeRun i tr v) :
    ∀ l, v.lease = some l → LatestClaim tr l := by
  refine h.invariant (fun tr v => ∀ l, v.lease = some l → LatestClaim tr l) ?_ ?_
  · intro l hl
    cases hl
  · intro tr w c w' hp ih hs l hl
    have hbound := (handedOut_run hp).1
    rcases hs.lease_cases (Fenced.run hp) with hnone | ⟨l', hl', rfl, hgen⟩ | ⟨l₀, l', hno, hl₀, hl', heq⟩
    · rw [hnone] at hl
      cases hl
    · -- A claim: everything handed out before is at most the generation before it.
      rw [hl'] at hl
      cases hl
      have hle : ∀ e ∈ tr, ∀ g, e.label.generation? = some g → g ≤ w.generation := by
        intro e he g hg
        exact hbound g (List.mem_filterMap.mpr ⟨e, he, hg⟩)
      refine ⟨⟨_, List.mem_cons_self, rfl⟩, fun e he g hg => ?_, fun e he g hg => ?_⟩
      · rcases List.mem_cons.mp he with rfl | he
        · cases hg
          exact le_rfl
        · have := hle e he g (by rw [hg]; rfl)
          omega
      · rcases List.mem_cons.mp he with rfl | he
        · rcases hg with hg | hg <;> cases hg
        · have := hle e he g (by rcases hg with hg | hg <;> (rw [hg]; rfl))
          omega
    · rw [hl'] at hl
      cases hl
      obtain ⟨⟨e₀, he₀, hclaim⟩, hclaims, hrot⟩ := ih l₀ hl₀
      refine ⟨⟨e₀, List.mem_cons_of_mem _ he₀, by rw [heq]; exact hclaim⟩, fun e he g hg => ?_,
        fun e he g hg => ?_⟩
      · rcases List.mem_cons.mp he with rfl | he
        · subst hg
          cases hno
        · rw [heq]
          exact hclaims e he g hg
      · rcases List.mem_cons.mp he with rfl | he
        · rcases hg with hg | hg <;> (subst hg; cases hno)
        · rw [heq]
          exact hrot e he g hg

/-! ## In the database -/

section Database

variable {sha256 : Bytes → Bytes32} {db : Db} {tr : List (Event Db Call)}

/-- The lease of a reachable database, and what it is newer than. -/
theorem lease_of_run (h : StoreRun sha256 tr db) {l : TunnelLease}
    (hl : db.tunnelLeases.find? i = some l) :
    (∃ r, db.installations.find? i = some r ∧ r.state = .dnsReady ∧ l.gatewayId = r.placement ∧
      l.generation ≤ r.generation) ∧
    (∀ c ∈ db.credentials.rows, c.installationId = i → c.scope = .tunnel →
      c.generation < l.generation) ∧
    LatestClaim (tr.map (lifeOf sha256 i)) l := by
  have hrun := life_run h i
  have hinv := Fenced.run hrun
  refine ⟨hinv.lease l hl, fun c hc hci hcs => ?_, latestClaim_run hrun l hl⟩
  exact hinv.newer l hl c (List.mem_filter.mpr ⟨hc, by simpa using hci⟩) hcs

/-- After a fencing call no generation from before it is current any more. -/
theorem not_current_of_fenced {later earlier : List (Event Db Call)} {e : Event Db Call}
    (h : StoreRun sha256 (later ++ e :: earlier) db)
    (he : (e.label.change sha256 e.src i).fences = true) {r : Installation} {g : Nat}
    (hr : e.src.installations.find? i = some r) (hg : g ≤ r.generation) (now : Time)
    (gatewayId : String) : tunnelIsCurrent db now i gatewayId g = false := by
  obtain ⟨hbefore, hstep, hafter⟩ := h.split
  -- The generation fits the statement's signed parameter.
  have hg63 : g < 2 ^ 63 := hg.trans_lt (generation_lt_of_inRange (inRange_run hbefore) hr)
  have hrow : (e.src.view i).generation = r.generation := View.generation_of_row hr
  have hv := Fenced.run (life_run hbefore i)
  have hlife : LifeStep i (e.src.view i) (e.label.change sha256 e.src i) (e.dst.view i) := by
    rw [show e.dst = _ from hstep]
    exact life_step e.label e.src i
  have hrest : Run (LifeStep i) (e.dst.view i) (later.map (lifeOf sha256 i)) (db.view i) := by
    refine hafter.simulate (fun db => db.view i) (fun db call => call.change sha256 db i) ?_
    rintro db call _ rfl
    exact life_step call db i
  have hnewer := lease_newer_of_run (hv.step hlife) (g := g)
    ((hg.trans hrow.ge).trans hlife.generation_le)
    (fun l hl => by
      have := hlife.lease_newer hv he hl
      omega) hrest
  by_contra hcur
  obtain ⟨l, hl, -, hgen, -⟩ := tunnelIsCurrent_iff.mp (Bool.eq_true_of_not_eq_false hcur)
  rw [i64OfU64_of_lt hg63] at hgen
  have := hnewer l hl
  omega

theorem renewTunnel_of_not_current {now : Time} {gatewayId : String} {g : Nat}
    (h : tunnelIsCurrent db now i gatewayId g = false) :
    (renewTunnel db now i gatewayId g).1 = false := by
  simp [renewTunnel, h]

/-- **Lease fencing.** In every reachable database a lease belongs to a ready installation and to the
gateway of its placement; its generation is the largest a claim returned, at most the installation's,
and above that of every tunnel credential, stored or handed out. Once a claim, a rotation of the tunnel
credential, a move or a retirement has committed, no generation from before it is current or can be
renewed, in any later state. The generations handed out increase in commit order. -/
theorem lease_fencing (h : StoreRun sha256 tr db) (i : Uuid) :
    (∀ l, db.tunnelLeases.find? i = some l →
      (∃ r, db.installations.find? i = some r ∧ r.state = .dnsReady ∧ l.gatewayId = r.placement ∧
        l.generation ≤ r.generation) ∧
      (∀ c ∈ db.credentials.rows, c.installationId = i → c.scope = .tunnel →
        c.generation < l.generation) ∧
      LatestClaim (tr.map (lifeOf sha256 i)) l) ∧
    (∀ later e earlier, tr = later ++ e :: earlier →
      (e.label.change sha256 e.src i).fences = true →
      ∀ r g, e.src.installations.find? i = some r → g ≤ r.generation →
      ∀ now gatewayId, tunnelIsCurrent db now i gatewayId g = false ∧
        (renewTunnel db now i gatewayId g).1 = false) ∧
    (∀ g ∈ handedOut (tr.map (lifeOf sha256 i)), ∃ r, db.installations.find? i = some r ∧
      g ≤ r.generation) ∧
    (handedOut (tr.map (lifeOf sha256 i))).Pairwise (· > ·) := by
  have hrun := life_run h i
  refine ⟨fun l hl => lease_of_run h hl, ?_, fun g hg => ?_, (handedOut_run hrun).2⟩
  · rintro later e earlier rfl he r g hr hg now gatewayId
    have hcur := not_current_of_fenced h he hr hg now gatewayId
    exact ⟨hcur, renewTunnel_of_not_current hcur⟩
  · exact handedOut_row hrun g hg

/-- An installation is allocated, bound to an account, ready and claimed. The latest call first. -/
def claimedCalls : List Call :=
  [⟨.default, 30, .claimTunnel 7 "edge-1" 30⟩,
    ⟨.default, 20, .markDnsReady 7⟩,
    ⟨.default, 10, .registerAcmeAccount 7 "https://acme-v02.api.letsencrypt.org/acme/acct/1"⟩,
    ⟨.default, 0, .allocate 1 5 "edge-1" 7 9⟩]

theorem lease_fencing_claimed :
    ∃ r, (runOf (fun _ => 0) claimedCalls).2.installations.find? 7 = some r ∧
      r.state = .dnsReady ∧ "edge-1" = r.placement ∧ 2 ≤ r.generation :=
  ((lease_fencing (storeRun_runOf (fun _ => 0) claimedCalls) 7).1
    ⟨7, 2, "edge-1", 30000030⟩ (by decide +kernel)).1

end Database

end BloomRelay.Store
