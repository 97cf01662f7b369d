import BloomRelay.Gateway.Proofs.RoutingProofs

/-!
# The bearer behind a lease

A `POST /v1/tunnel` checks its bearer in one store call and claims the lease in another. `claim_tunnel`
does not look at the credential again, so a rotation that commits between the two leaves a session with
a lease and a revoked bearer. Without such a rotation, and before the credential expires, every lease
is granted to a live bearer.
-/

namespace BloomRelay.Routing

open Protocol Store

variable {cfg : Config} {g g' : Gateway} {l : Action} {tr : List GatewayEvent}

/-- A credential of the request's bearer that is not revoked. -/
def LiveBearer (sha256 : Bytes → Bytes32) (db : Db) (q : TunnelRequest) (c : Credential) : Prop :=
  c ∈ db.credentials.rows ∧ c.installationId = q.id ∧ c.scope = .tunnel ∧
    c.tokenHash = sha256 (utf8 q.token) ∧ c.revokedAt = none

/-- The step claims a lease for request `r`, in a transaction that starts at `now`. -/
def Grants (e : GatewayEvent) (r : Nat) (q : TunnelRequest) (now : Time) : Prop :=
  e.label = .post r (.claim now) ∧ e.src.posts r = some (.claim q) ∧
    ∃ generation, e.dst.posts r = some (.register q generation)

/-- No tunnel bearer is rotated while a request of its installation stands between the check of its
bearer and its claim, and a request claims before its bearer expires. -/
def Unraced (cfg : Config) (e : GatewayEvent) : Prop :=
  (∀ call r q, e.label = .store call → e.src.posts r = some (.claim q) →
    rotates .tunnel (call.change cfg.sha256 e.src.db q.id) = false) ∧
  ∀ r q now, e.label = .post r (.claim now) → e.src.posts r = some (.claim q) →
    ∀ c ∈ e.src.db.credentials.rows, c.installationId = q.id → c.scope = .tunnel →
      c.tokenHash = cfg.sha256 (utf8 q.token) → now < c.expiresAt

/-! ## Live credentials stay -/

theorem LiveBearer.after {db : Db} {q : TunnelRequest} {c : Credential} {call : Call}
    (h : LiveBearer cfg.sha256 db q c)
    (hrot : rotates .tunnel (call.change cfg.sha256 db q.id) = false) :
    LiveBearer cfg.sha256 (call.after cfg.sha256 db) q c := by
  obtain ⟨hmem, hid, hscope, hhash, hlive⟩ := h
  have hview : c ∈ (db.view q.id).credentials :=
    List.mem_filter.2 ⟨hmem, decide_eq_true hid⟩
  have hafter := kept_of_lifeStep (life_step call db q.id) (hscope ▸ hrot) hview
  exact ⟨(List.mem_filter.1 hafter).1, hid, hscope, hhash, hlive⟩

theorem liveBearer_of_authenticate {db : Db} {q : TunnelRequest} {now : Time}
    (h : (authenticateBearer cfg.sha256 db now q.id "tunnel" q.token).isSome = true) :
    ∃ c, LiveBearer cfg.sha256 db q c := by
  obtain ⟨generation, hauth⟩ := Option.isSome_iff_exists.1 h
  obtain ⟨scope, r, hscope, -, -, hnewest⟩ := authenticateBearer_eq_some hauth
  obtain rfl : scope = .tunnel := (Option.some.inj hscope).symm
  obtain ⟨c, hmem, hid, hscope, hhash, hlive, -, -⟩ := newestGeneration_matching hnewest
  exact ⟨c, hmem, hid, hscope, hhash, hlive⟩

/-! ## Every request that may claim -/

/-- Only issuing and renewing bearers rotates them. -/
theorem rotates_change {call : Call} {db : Db} {i : Uuid}
    (hissue : ∀ id op scope hash validity, call.op ≠ .issueBearer id op scope hash validity)
    (hrenew : ∀ id op scope generation token hash,
      call.op ≠ .renewBearer id op scope generation token hash) :
    rotates .tunnel (call.change cfg.sha256 db i) = false := by
  have hby := call_changedBy cfg.sha256 call db i
  generalize call.change cfg.sha256 db i = change at hby ⊢
  generalize hop : call.op = op at hby
  cases hby with
  | issued => exact absurd hop (hissue _ _ _ _ _)
  | renewed => exact absurd hop (hrenew _ _ _ _ _ _)
  | _ => rfl

/-- The bearer of every request that may claim is live. -/
def SessionInv (cfg : Config) (g : Gateway) : Prop :=
  ∀ r q, g.posts r = some (.claim q) → ∃ c, LiveBearer cfg.sha256 g.db q c

theorem SessionInv.step (h : SessionInv cfg g) (hs : GatewayStep cfg g l g')
    (hfree : Unraced cfg ⟨g, l, g'⟩) : SessionInv cfg g' := by
  have hm : Moves cfg g g' l := moves_of_step hs
  intro r q hpc
  rcases hm.posts r q hpc with hpc₀ | ⟨now, -, hdb, hauth⟩
  · obtain ⟨c, hc⟩ := h r q hpc₀
    rcases hm.dbStep with hdb | ⟨call, hdb, hcall⟩
    · exact ⟨c, hdb ▸ hc⟩
    · have hrot : rotates .tunnel (call.change cfg.sha256 g.db q.id) = false := by
        rcases hcall with hl | ⟨now, q', rfl⟩ | ⟨now, tunnel, rfl⟩
        · exact hfree.1 call r q hl hpc₀
        · exact rotates_change nofun nofun
        · exact rotates_change nofun nofun
      exact ⟨c, hdb ▸ hc.after hrot⟩
  · rw [hdb]
    exact liveBearer_of_authenticate hauth

theorem sessionInv_of_run {db : Db} (h : Run (GatewayStep cfg) (Gateway.start db) tr g)
    (hfree : ∀ e ∈ tr, Unraced cfg e) : SessionInv cfg g := by
  induction h with
  | refl =>
    intro r q hpc
    cases hpc
  | snoc _ hs ih =>
    have hbefore := ih fun e he => hfree e (List.mem_cons_of_mem _ he)
    exact hbefore.step hs (hfree _ List.mem_cons_self)

/-- In every run in which no tunnel bearer is rotated under a request, and no request claims after its
bearer expired, every lease is granted to a bearer that is live at that moment. -/
theorem lease_for_live_bearer {db : Db} (h : Run (GatewayStep cfg) (Gateway.start db) tr g)
    (hfree : ∀ e ∈ tr, Unraced cfg e) {e : GatewayEvent} (he : e ∈ tr) {r : Nat} {q : TunnelRequest}
    {now : Time} (hgrants : Grants e r q now) :
    matchingCredentials cfg.sha256 e.src.db now q.id .tunnel q.token ≠ [] := by
  obtain ⟨later, earlier, rfl⟩ := List.append_of_mem he
  obtain ⟨hbefore, -, -⟩ := h.split
  have hinv : SessionInv cfg e.src := by
    refine sessionInv_of_run hbefore fun e' he' => hfree e' ?_
    exact List.mem_append_right _ (List.mem_cons_of_mem _ he')
  obtain ⟨hl, hpc, -⟩ := hgrants
  obtain ⟨c, hmem, hid, hscope, hhash, hlive⟩ := hinv r q hpc
  have hexp : now < c.expiresAt := (hfree e he).2 r q now hl hpc c hmem hid hscope hhash
  refine List.ne_nil_of_mem (a := c) (List.mem_filter.2 ⟨hmem, ?_⟩)
  simp only [hid, hscope, hhash, hlive, hexp, and_self, decide_true]

/-! ## A request with and without a race -/

/-- A hash under which the two bearers below differ. -/
def bearerHash (bytes : Bytes) : Bytes32 :=
  BitVec.ofNat 256 (bytes.foldl (fun n b => 256 * n + b.toNat) 0)

def sessionConfig : Config := { edgeConfig with sha256 := bearerHash }

def firstBearer : String := "0123456789abcdef0123456789abcdef0123456789abcdef"

def secondBearer : String := "fedcba9876543210fedcba9876543210fedcba9876543210"

def issueCall (now : Time) (operationId : Uuid) (bearer : String) : Call :=
  ⟨.default, now, .issueBearer 7 operationId "tunnel" (bearerHash (utf8 bearer)) 3600⟩

/-- The claimed installation holds the first bearer. -/
def sessionDb : Db := (runOf bearerHash (issueCall 40 2 firstBearer :: claimedCalls)).2

def sessionRequest : TunnelRequest := ⟨7, edgeHost, firstBearer⟩

/-- A request with the first bearer gets as far as its claim. -/
def checkedActions : List Action :=
  [.postArrives 0 edgeHeaders, .post 0 .hostname, .post 0 (.authenticate 50)]

/-- Without a rotation the lease goes to a live bearer. -/
theorem lease_for_live_bearer_granted :
    ∃ tr g e, Run (GatewayStep sessionConfig) (Gateway.start sessionDb) (e :: tr) g ∧
      Grants e 0 sessionRequest 60 ∧
      matchingCredentials bearerHash e.src.db 60 7 .tunnel firstBearer ≠ [] := by
  have hplay : ((Run.play (Gateway.step sessionConfig) (Gateway.start sessionDb)
      checkedActions).map fun g =>
      (g.posts 0, g.db.credentials.rows.all fun c => 60 < c.expiresAt,
        (g.step sessionConfig (.post 0 (.claim 60))).map fun g' => g'.posts 0)) =
      some (some (.claim sessionRequest), true, some (some (.register sessionRequest 4))) := by
    decide +kernel
  obtain ⟨g, hg, heq⟩ := Option.map_eq_some_iff.1 hplay
  obtain ⟨hpc, hrest⟩ := Prod.mk.inj heq
  obtain ⟨hexp, hclaim⟩ := Prod.mk.inj hrest
  obtain ⟨g', hstep, hg'⟩ := Option.map_eq_some_iff.1 hclaim
  obtain ⟨tr, hrun, hlabels⟩ := Run.of_play hg
  refine ⟨tr, g', ⟨g, _, g'⟩, hrun.snoc hstep, ⟨rfl, hpc, 4, hg'⟩, ?_⟩
  refine lease_for_live_bearer (hrun.snoc hstep) ?_ List.mem_cons_self ⟨rfl, hpc, 4, hg'⟩
  intro e he
  rcases List.mem_cons.1 he with rfl | he
  · refine ⟨fun call r q hl => (by cases hl), ?_⟩
    rintro r q now hl - c hc - - -
    cases hl
    exact of_decide_eq_true (List.all_eq_true.1 hexp c hc)
  · have hlabel := hlabels e he
    refine ⟨fun call r q hl => ?_, fun r q now hl => ?_⟩
    · rw [hl] at hlabel
      simp [checkedActions] at hlabel
    · rw [hl] at hlabel
      simp [checkedActions] at hlabel

/-- The administrator issues the second bearer between the check and the claim; the request still gets
its lease, for a bearer that no live credential matches. -/
theorem lease_for_revoked_bearer :
    ∃ tr g e, Run (GatewayStep sessionConfig) (Gateway.start sessionDb) (e :: tr) g ∧
      Grants e 0 sessionRequest 60 ∧
      g.db.tunnelLeases.find? 7 = some ⟨7, 5, "edge-1", 45000060⟩ ∧
      matchingCredentials bearerHash e.src.db 60 7 .tunnel firstBearer = [] := by
  have hplay : ((Run.play (Gateway.step sessionConfig) (Gateway.start sessionDb)
      (checkedActions ++ [.store (issueCall 55 3 secondBearer)])).map fun g =>
      (g.posts 0, matchingCredentials bearerHash g.db 60 7 .tunnel firstBearer,
        (g.step sessionConfig (.post 0 (.claim 60))).map fun g' =>
          (g'.posts 0, g'.db.tunnelLeases.find? 7))) =
      some (some (.claim sessionRequest), [], some (some (.register sessionRequest 5),
        some ⟨7, 5, "edge-1", 45000060⟩)) := by
    decide +kernel
  obtain ⟨g, hg, heq⟩ := Option.map_eq_some_iff.1 hplay
  obtain ⟨hpc, hrest⟩ := Prod.mk.inj heq
  obtain ⟨hrevoked, hclaim⟩ := Prod.mk.inj hrest
  obtain ⟨g', hstep, hg'⟩ := Option.map_eq_some_iff.1 hclaim
  obtain ⟨hregister, hlease⟩ := Prod.mk.inj hg'
  obtain ⟨tr, hrun, -⟩ := Run.of_play hg
  exact ⟨tr, g', ⟨g, _, g'⟩, hrun.snoc hstep, ⟨rfl, hpc, 5, hregister⟩, hlease, hrevoked⟩

end BloomRelay.Routing
