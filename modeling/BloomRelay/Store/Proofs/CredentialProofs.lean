import BloomRelay.Store.Proofs.FencingProofs

/-!
# At most one usable bearer per scope

An issue revokes every live credential of its scope, a renewal only the one it names. Both leave the
new row as the only live one, because a live row is always the newest of its scope: the row a renewal
names is the only one it has to revoke.
-/

namespace BloomRelay.Store

open Protocol

variable {i : Uuid} {v v' : View} {c : Change}

/-- A live credential is the newest of its scope. -/
def NewestLive (v : View) : Prop :=
  ∀ c ∈ v.credentials, c.revokedAt = none →
    ∀ n ∈ v.credentials, n.scope = c.scope → n.generation ≤ c.generation

/-- A rotation whose revocation reaches every live row of the scope. -/
theorem NewestLive.rotated (h : NewestLive v) (hf : Fenced v) {r : Installation}
    (hrow : v.row = some r) {now : Time} {p : Credential → Bool} {c : Credential}
    (hgen : c.generation = r.generation + 1)
    (hp : ∀ y ∈ v.credentials, y.revokedAt = none → y.scope = c.scope → p y = true)
    {row : Option Installation} {lease : Option TunnelLease} :
    NewestLive { v with row, credentials := revokeIn now p v.credentials ++ [c], lease } := by
  have hle : ∀ n ∈ revokeIn now p v.credentials ++ [c], n.generation ≤ c.generation := by
    intro n hn
    rcases List.mem_append.mp hn with hn | hn
    · obtain ⟨y, hy, -, hyg⟩ := exists_of_mem_revokeIn hn
      have := hf.credential_le hrow y hy
      omega
    · rw [List.mem_singleton.mp hn]
  intro x hx hlive n hn hscope
  rcases List.mem_append.mp hx with hx | hx
  · obtain ⟨hxv, hnot⟩ := live_of_mem_revokeIn hx hlive
    rcases List.mem_append.mp hn with hn | hn
    · obtain ⟨y, hy, hys, hyg⟩ := exists_of_mem_revokeIn hn
      rw [hyg]
      exact h x hxv hlive y hy (hys.symm.trans hscope)
    · -- A live row left alone is of the other scope.
      rw [List.mem_singleton.mp hn] at hscope
      rw [hp x hxv hlive hscope.symm] at hnot
      cases hnot
  · rw [List.mem_singleton.mp hx]
    exact hle n hn

theorem NewestLive.step (h : NewestLive v) (hf : Fenced v) (hs : LifeStep i v c v') :
    NewestLive v' := by
  cases hs with
  | issued r now c hrow _ _ hgen =>
    refine h.rotated hf hrow hgen fun y _ hlive hscope => ?_
    simp [hlive, hscope]
  | renewed r now old c hrow _ hold hscope holdlive hnewest _ hgen =>
    refine h.rotated hf hrow hgen fun y hy hlive hys => ?_
    -- Two live rows of one scope are each the newest, so a live row has the generation named.
    have hge := h y hy hlive old hold (hscope.trans hys.symm)
    have hle := hnewest y hy (hys.trans hscope.symm)
    simp [hys, le_antisymm hle hge]
  | same | allocated | acmeBound | dnsReady | claimed | leaseRenewed | relocated | retired | expired
  | refreshed | valueAdded | valuesLapsed | reconciled | jobRecorded => exact h

theorem NewestLive.run {tr : List (Event View Change)} (h : LifeRun i tr v) : NewestLive v := by
  refine h.invariant (fun _ v => NewestLive v) ?_ fun _ _ _ _ hp hi hs => hi.step (Fenced.run hp) hs
  intro c hc
  cases hc

/-! ## In the database -/

/-- The newest credential of an installation and scope, and the only one that is not revoked. -/
structure OnlyUsable (db : Db) (id : Uuid) (scope : BearerScope) (c : Credential) : Prop where
  mem : c ∈ db.credentials.rows
  owner : c.installationId = id
  scope_eq : c.scope = scope
  live : c.revokedAt = none
  newest : ∀ n ∈ db.credentials.rows, n.installationId = id → n.scope = scope →
    n.generation ≤ c.generation
  only : ∀ n ∈ db.credentials.rows, n.installationId = id → n.scope = scope → n.revokedAt = none →
    n = c

section Database

variable {sha256 : Bytes → Bytes32} {db : Db} {tr : List (Event Db Call)}

/-- Every live row of a reachable database is the only usable one of its installation and scope. -/
theorem onlyUsable_of_run (h : StoreRun sha256 tr db) {c : Credential}
    (hc : c ∈ db.credentials.rows) (hlive : c.revokedAt = none) :
    OnlyUsable db c.installationId c.scope c := by
  have hnewest : ∀ c ∈ db.credentials.rows, c.revokedAt = none → ∀ n ∈ db.credentials.rows,
      n.installationId = c.installationId → n.scope = c.scope → n.generation ≤ c.generation := by
    intro c hc hlive n hn hni hns
    refine NewestLive.run (life_run h c.installationId) c ?_ hlive n ?_ hns
    · exact List.mem_filter.mpr ⟨hc, by simp⟩
    · exact List.mem_filter.mpr ⟨hn, by simpa using hni⟩
  refine ⟨hc, rfl, rfl, hlive, hnewest c hc hlive, fun n hn hni hns hnl => ?_⟩
  -- Each is at most the other, and generations are part of the key.
  have hle := hnewest c hc hlive n hn hni hns
  have hge := hnewest n hn hnl c hc hni.symm hns.symm
  refine db.credentials.key_inj hn hc ?_
  simp [hni, hns, le_antisymm hle hge]

theorem credential_le_installation (h : StoreRun sha256 tr db) {c : Credential}
    (hc : c ∈ db.credentials.rows) :
    ∃ r, db.installations.find? c.installationId = some r ∧ c.generation ≤ r.generation :=
  (Fenced.run (life_run h c.installationId)).credential c (List.mem_filter.mpr ⟨hc, by simp⟩)

/-- The rows a bearer matches: of the installation and scope, live, unexpired, with its hash. -/
theorem newestGeneration_matching {now : Time} {id : Uuid} {scope : BearerScope} {bearer : String}
    {g : Nat} (h : newestGeneration (matchingCredentials sha256 db now id scope bearer) = some g) :
    ∃ c ∈ db.credentials.rows, c.installationId = id ∧ c.scope = scope ∧
      c.tokenHash = sha256 (utf8 bearer) ∧ c.revokedAt = none ∧ now < c.expiresAt ∧
      c.generation = g := by
  obtain ⟨c, hc, hg⟩ := List.mem_map.mp (List.max?_mem h)
  obtain ⟨hmem, hsel⟩ := List.mem_filter.mp hc
  simp only [decide_eq_true_eq] at hsel
  obtain ⟨hid, hscope, hhash, hlive, hexp⟩ := hsel
  exact ⟨c, hmem, hid, hscope, hhash, hlive, hexp, hg⟩

theorem authenticateBearer_eq_some {now : Time} {id : Uuid} {scope bearer : String} {g : Nat}
    (h : authenticateBearer sha256 db now id scope bearer = some g) :
    ∃ s r, BearerScope.parse? scope = some s ∧ db.installations.find? id = some r ∧
      r.state = .dnsReady ∧
      newestGeneration (matchingCredentials sha256 db now id s bearer) = some g := by
  unfold authenticateBearer at h
  split at h
  · cases h
  · split at h
    · cases h
    · rename_i s hs
      split at h
      · cases h
      · rename_i r hr
        split at h
        · rename_i hstate
          exact ⟨s, r, hs, hr, hstate, h⟩
        · cases h

theorem authenticateBearerWithState_eq_some {now : Time} {id : Uuid} {scope bearer : String}
    {g : Nat} {state : AllocationState}
    (h : authenticateBearerWithState sha256 db now id scope bearer = some (g, state)) :
    ∃ s, BearerScope.parse? scope = some s ∧
      newestGeneration (matchingCredentials sha256 db now id s bearer) = some g := by
  unfold authenticateBearerWithState at h
  split at h
  · cases h
  · split at h
    · cases h
    · rename_i s hs
      split at h
      · cases h
      · obtain ⟨g', hg', heq⟩ := Option.map_eq_some_iff.mp h
        cases heq
        exact ⟨s, hs, hg'⟩

/-- What a match proves in a reachable database. -/
theorem onlyUsable_of_matching (h : StoreRun sha256 tr db) {now : Time} {id : Uuid}
    {scope : BearerScope} {bearer : String} {g : Nat}
    (hg : newestGeneration (matchingCredentials sha256 db now id scope bearer) = some g) :
    ∃ c, OnlyUsable db id scope c ∧ c.generation = g ∧ c.tokenHash = sha256 (utf8 bearer) ∧
      now < c.expiresAt := by
  obtain ⟨c, hc, rfl, rfl, hhash, hlive, hexp, hgen⟩ := newestGeneration_matching hg
  exact ⟨c, onlyUsable_of_run h hc hlive, hgen, hhash, hexp⟩

/-- **At most one usable bearer per scope.** In every reachable database a live credential is the
newest of its installation and scope and the only live one, and no credential is ahead of its
installation. A bearer authenticates only as that row and before its expiry; it renews, unless the
call repeats a recorded operation, only as that row, for a ready installation and within the grace. -/
theorem one_usable_bearer (h : StoreRun sha256 tr db) :
    (∀ c ∈ db.credentials.rows, c.revokedAt = none →
      OnlyUsable db c.installationId c.scope c) ∧
    (∀ c ∈ db.credentials.rows, ∃ r, db.installations.find? c.installationId = some r ∧
      c.generation ≤ r.generation) ∧
    (∀ now id scope bearer g, authenticateBearer sha256 db now id scope bearer = some g →
      ∃ s c, BearerScope.parse? scope = some s ∧ OnlyUsable db id s c ∧ c.generation = g ∧
        c.tokenHash = sha256 (utf8 bearer) ∧ now < c.expiresAt) ∧
    (∀ now id scope bearer g state,
      authenticateBearerWithState sha256 db now id scope bearer = some (g, state) →
      ∃ s c, BearerScope.parse? scope = some s ∧ OnlyUsable db id s c ∧ c.generation = g ∧
        c.tokenHash = sha256 (utf8 bearer) ∧ now < c.expiresAt) ∧
    (∀ store now id operationId scope generation token newTokenHash receipt db',
      renewBearer sha256 store db now id operationId scope generation token newTokenHash =
        .ok (receipt, db') →
      db.operations.find? operationId = none →
      ∃ s c r, BearerScope.parse? scope = some s ∧ OnlyUsable db id s c ∧
        c.tokenHash = sha256 (utf8 token) ∧ db.installations.find? id = some r ∧
        r.state = .dnsReady ∧
        now < c.expiresAt + seconds store.credentialWindows.renewalGrace) := by
  refine ⟨fun c hc hlive => onlyUsable_of_run h hc hlive,
    fun c hc => credential_le_installation h hc, ?_, ?_, ?_⟩
  · intro now id scope bearer g hauth
    obtain ⟨s, -, hs, -, -, hg⟩ := authenticateBearer_eq_some hauth
    obtain ⟨c, hc⟩ := onlyUsable_of_matching h hg
    exact ⟨s, c, hs, hc⟩
  · intro now id scope bearer g state hauth
    obtain ⟨s, hs, hg⟩ := authenticateBearerWithState_eq_some hauth
    obtain ⟨c, hc⟩ := onlyUsable_of_matching h hg
    exact ⟨s, c, hs, hc⟩
  · intro store now id operationId scope generation token newTokenHash receipt db' hrenew hnew
    obtain ⟨s, hs, -, ⟨hold, -⟩ | ⟨-, htx⟩⟩ := renewBearer_ok hrenew
    · exact absurd hnew hold
    · obtain ⟨-, c, -, hcur, hhash, -⟩ := renewBearerTx_ok htx
      obtain ⟨r, hr, hstate, hmem, rfl, rfl, -, hlive, hgrace, -⟩ := renewableCredential_eq_some hcur
      exact ⟨c.scope, c, r, hs, onlyUsable_of_run h hmem hlive, hhash, hr, hstate, hgrace⟩

/-- The claimed installation is issued a tunnel bearer for an hour. -/
def issuedCalls : List Call := ⟨.default, 40, .issueBearer 7 2 "tunnel" 0 3600⟩ :: claimedCalls

theorem one_usable_bearer_issued :
    ∃ s c, BearerScope.parse? "tunnel" = some s ∧
      OnlyUsable (runOf (fun _ => 0) issuedCalls).2 7 s c ∧ c.generation = 3 ∧
      c.tokenHash = 0 ∧ 50 < c.expiresAt :=
  (one_usable_bearer (storeRun_runOf (fun _ => 0) issuedCalls)).2.2.1 50 7 "tunnel"
    "0123456789abcdef0123456789abcdef0123456789abcdef" 3 (by decide +kernel)

end Database

/-! ## Rotations -/

/-- The change replaces the bearer of a scope. -/
def rotates (scope : BearerScope) : Change → Bool
  | .issued s _ | .renewed s _ => s = scope
  | _ => false

/-- Only a rotation in its scope revokes a credential. -/
theorem kept_of_lifeStep {i : Uuid} {v v' : View} {change : Change} {c : Credential} (h : LifeStep i v change v')
    (hrot : rotates c.scope change = false) (hc : c ∈ v.credentials) : c ∈ v'.credentials := by
  have hkept : ∀ (now : Time) (p : Credential → Bool) (new : Credential),
      decide (new.scope = c.scope) = false → (p c = true → c.scope = new.scope) →
      c ∈ revokeIn now p v.credentials ++ [new] := by
    intro now p new hne hp
    have hpc : p c = false := by
      by_contra hpc
      rw [hp (eq_true_of_ne_false hpc)] at hne
      exact absurd hne (by simp)
    refine List.mem_append_left _ (List.mem_map.mpr ⟨c, hc, ?_⟩)
    rw [hpc]
    rfl
  cases h with
  | issued r now new => exact hkept now _ new hrot fun hp => (of_decide_eq_true hp).1
  | renewed r now old new => exact hkept now _ new hrot fun hp => (of_decide_eq_true hp).1
  | _ => exact hc

end BloomRelay.Store
