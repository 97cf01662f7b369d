import BloomRelay.Gateway.Connection
import BloomRelay.Gateway.Proofs.RoutingProofs

/-!
# Installations on one connection

What the requests of one installation do to the tunnels of the others. A registration displaces only the
tunnel of its own host, and hosts are not shared. But a claim that the store refuses ends the connection,
and so does a response that cannot be sent; with it goes every lifecycle that the connection spawned.
-/

namespace BloomRelay.Routing

open Protocol Store

variable {cfg : Config} {s s' : Connection} {a : ConnectionAction} {g g' : Gateway} {l : Action}
  {db : Db} {tr : List (Event Connection ConnectionAction)}

/-! ## What a step does -/

/-- The steps of a connection. -/
inductive ConnectionMoves (cfg : Config) (s : Connection) : ConnectionAction → Connection → Prop where
  | acceptPost (r : Nat) (headers : Headers) (g : Gateway)
      (h : GatewayStep cfg s.gateway (.postArrives r headers) g) :
      ConnectionMoves cfg s (.acceptPost r headers) ({ s with gateway := g }.settle (.post r))
  | acceptConnect (c : Nat) (headers : Headers) (authority : Option String) (g : Gateway)
      (h : GatewayStep cfg s.gateway (.connectArrives c headers authority) g) :
      ConnectionMoves cfg s (.acceptConnect c headers authority)
        ({ s with gateway := g }.settle (.connect c))
  | notFound : ConnectionMoves cfg s .notFound s
  | post (r : Nat) (a : PostAction) (g : Gateway) (hserving : s.serving = some (.post r))
      (h : GatewayStep cfg s.gateway (.post r a) g) :
      ConnectionMoves cfg s (.post a)
        ({ s with
          gateway := g
          spawned := (Connection.registers s.gateway r a).toList ++ s.spawned
          cancelled := (Connection.displaces s.gateway (.post r a)).toList ++ s.cancelled }.settle
            (.post r))
  | connect (c : Nat) (a : ConnectAction) (g : Gateway) (hserving : s.serving = some (.connect c))
      (h : GatewayStep cfg s.gateway (.connect c a) g) :
      ConnectionMoves cfg s (.connect a) ({ s with gateway := g }.settle (.connect c))
  | unsentPost (r : Nat) (g : Gateway) (hserving : s.serving = some (.post r))
      (h : GatewayStep cfg s.gateway (.post r .close) g) :
      ConnectionMoves cfg s .unsent ({ s with gateway := g }.settle (.post r))
  | unsentConnect (c : Nat) (g : Gateway) (hserving : s.serving = some (.connect c))
      (h : GatewayStep cfg s.gateway (.connect c .close) g) :
      ConnectionMoves cfg s .unsent ({ s with gateway := g }.settle (.connect c))
  | unsent (hserving : s.serving = none) : ConnectionMoves cfg s .unsent { s with ended := true }
  | other (l : Action) (g : Gateway) (h : GatewayStep cfg s.gateway l g) :
      ConnectionMoves cfg s (.other l)
        { s with
          gateway := g
          cancelled := (Connection.displaces s.gateway l).toList ++ s.cancelled }
  | deadline : ConnectionMoves cfg s .deadline { s with ended := true }
  | disconnect : ConnectionMoves cfg s .disconnect { s with ended := true }

theorem connectionMoves_of_step (h : ConnectionStep cfg s a s') : ConnectionMoves cfg s a s' := by
  unfold ConnectionStep Connection.step at h
  cases a with
  | acceptPost r headers =>
    simp only at h
    split_ifs at h
    obtain ⟨g, hg, rfl⟩ := Option.map_eq_some_iff.mp h
    exact .acceptPost r headers g hg
  | acceptConnect c headers authority =>
    simp only at h
    split_ifs at h
    obtain ⟨g, hg, rfl⟩ := Option.map_eq_some_iff.mp h
    exact .acceptConnect c headers authority g hg
  | notFound =>
    simp only at h
    split_ifs at h
    cases h
    exact .notFound
  | post a =>
    simp only at h
    split at h
    · rename_i r hserving
      obtain ⟨g, hg, rfl⟩ := Option.map_eq_some_iff.mp h
      exact .post r a g hserving hg
    · cases h
  | connect a =>
    simp only at h
    split at h
    · rename_i c hserving
      obtain ⟨g, hg, rfl⟩ := Option.map_eq_some_iff.mp h
      exact .connect c a g hserving hg
    · cases h
  | unsent =>
    simp only at h
    split at h
    · rename_i r hserving
      obtain ⟨g, hg, rfl⟩ := Option.map_eq_some_iff.mp h
      exact .unsentPost r g hserving hg
    · rename_i c hserving
      obtain ⟨g, hg, rfl⟩ := Option.map_eq_some_iff.mp h
      exact .unsentConnect c g hserving hg
    · rename_i hserving
      split_ifs at h
      cases h
      exact .unsent hserving
  | other l =>
    simp only at h
    split_ifs at h
    obtain ⟨g, hg, rfl⟩ := Option.map_eq_some_iff.mp h
    exact .other l g hg
  | deadline =>
    simp only at h
    split_ifs at h
    cases h
    exact .deadline
  | disconnect =>
    simp only at h
    split_ifs at h
    cases h
    exact .disconnect

@[simp] theorem settle_spawned (s : Connection) (q : ControlRequest) :
    (s.settle q).spawned = s.spawned := by
  unfold Connection.settle
  split <;> rfl

@[simp] theorem settle_cancelled (s : Connection) (q : ControlRequest) :
    (s.settle q).cancelled = s.cancelled := by
  unfold Connection.settle
  split <;> rfl

@[simp] theorem settle_connection (s : Connection) (q : ControlRequest) :
    (s.settle q).gateway = s.gateway := by
  unfold Connection.settle
  split <;> rfl

/-- A request ends the connection only by ending in an error. -/
theorem settle_ended {q : ControlRequest} (h : Connection.answered s.gateway q ≠ some .closed) :
    (s.settle q).ended = s.ended := by
  unfold Connection.settle
  split
  · rename_i status hstatus
    have hopen : status ≠ .closed := by
      rintro rfl
      exact h hstatus
    simp [hopen]
  · rfl

/-- Below every step is at most one section of the gateway. -/
theorem ConnectionMoves.gateway_step (h : ConnectionMoves cfg s a s') :
    s'.gateway = s.gateway ∨ ∃ l, GatewayStep cfg s.gateway l s'.gateway := by
  cases h with
  | notFound | unsent | deadline | disconnect => exact .inl rfl
  | other l g h => exact .inr ⟨l, h⟩
  | acceptPost _ _ _ h | acceptConnect _ _ _ _ h | post _ _ _ _ h | connect _ _ _ _ h
  | unsentPost _ _ _ h | unsentConnect _ _ _ h =>
    rw [settle_connection]
    exact .inr ⟨_, h⟩

theorem owned_of_connectionRun {calls : List (Event Db Call)} (hdb : StoreRun cfg.sha256 calls db)
    (h : ConnectionRun cfg db tr s) : Owned cfg s.gateway := by
  refine h.state_invariant (fun s => Owned cfg s.gateway) (.start hdb) ?_
  intro s a s' ho hs
  rcases (connectionMoves_of_step hs).gateway_step with heq | ⟨l, hl⟩
  · rw [heq]
    exact ho
  · exact ho.step hl

/-! ## Which requests end the connection -/

/-- The store gives the installation to this gateway, and the counters that a claim advances have
room. -/
structure Placed (cfg : Config) (db : Db) (i : Uuid) : Prop where
  row : ∃ row, db.installations.find? i = some row ∧ row.state = .dnsReady ∧
    row.placement = cfg.gatewayId ∧ row.generation + 1 < 2 ^ 63
  fence : db.restoreFence + 1 < 2 ^ 63

instance (cfg : Config) (db : Db) (i : Uuid) : Decidable (Placed cfg db i) :=
  decidable_of_iff ((db.installations.find? i).any (fun row => row.state = .dnsReady ∧
      row.placement = cfg.gatewayId ∧ row.generation + 1 < 2 ^ 63) = true ∧
    db.restoreFence + 1 < 2 ^ 63) <| by
    simp only [Option.any_eq_true, decide_eq_true_eq]
    exact ⟨fun h => ⟨h.1, h.2⟩, fun h => ⟨h.row, h.fence⟩⟩

theorem Placed.claim {q : TunnelRequest} (h : Placed cfg db q.id) (now : Time)
    (hid : cfg.gatewayId.isEmpty = false) (hin : db.inRange = true) :
    ∃ generation db', (claimCall cfg now q).exec cfg.sha256 db = .ok (.generation generation, db') := by
  obtain ⟨row, hrow, hstate, hplacement, hgen⟩ := h.row
  have httl : (5 : Int) ≤ 45 ∧ (45 : Int) ≤ 60 := by decide
  obtain ⟨generation, db', hclaim, hin'⟩ :=
    exists_claimTunnel now hin hrow hstate hplacement hid httl hgen h.fence
  refine ⟨generation, db', ?_⟩
  simp [Call.exec, claimCall, StoreOp.transact, answer, hclaim, hin']

theorem answered_setPost (g : Gateway) (r : Nat) (pc : PostPc) :
    Connection.answered (g.setPost r pc) (.post r) =
      match pc with
      | .done status => some status
      | _ => none := by
  simp only [Connection.answered, Gateway.setPost, Function.update_self]
  cases pc <;> rfl

/-- A `POST /v1/tunnel` ends the connection only with a claim that the store refuses. -/
theorem PostMoves.answered {r : Nat} {a : PostAction} (h : PostMoves cfg g r a g') (hclose : a ≠ .close)
    (hclaim : ∀ now q, a = .claim now → g.posts r = some (.claim q) →
      ∃ generation db', (claimCall cfg now q).exec cfg.sha256 g.db = .ok (.generation generation, db')) :
    Connection.answered g' (.post r) ≠ some .closed := by
  cases h with
  | hostname | authenticate | claim | register =>
    rw [answered_setPost]
    exact nofun
  | refused a status hok hopen =>
    rw [answered_setPost]
    rintro ⟨⟩
    exact hopen rfl
  | claimFailed q now hpc hfail =>
    obtain ⟨generation, db', hexec⟩ := hclaim now q rfl hpc
    exact absurd hexec (hfail generation db')
  | close => exact absurd rfl hclose

theorem answered_arrived {r : Nat} {headers : Headers}
    (h : GatewayStep cfg g (.postArrives r headers) g') :
    Connection.answered g' (.post r) ≠ some .closed := by
  simp only [GatewayStep, Gateway.step] at h
  split_ifs at h
  split at h
  · cases h
    rw [answered_setPost]
    simp
  · cases h
    rw [answered_setPost]
    simp

theorem answered_connect_iff {c : Nat} {status : Status} :
    Connection.answered g (.connect c) = some status ↔ g.connects c = some (.done status) := by
  simp only [Connection.answered]
  split
  · rename_i status' hpc
    simp [hpc]
  · rename_i hpc
    simp only [reduceCtorEq, false_iff]
    exact hpc status

/-- A `CONNECT` does not end the connection. -/
theorem connectStep_answered {c : Nat} {a : ConnectAction} (h : connectStep cfg g c a = some g')
    (hclose : a ≠ .close) : Connection.answered g' (.connect c) ≠ some .closed := by
  rw [Ne, answered_connect_iff]
  intro hpc
  rcases connectStep_cases h with
    ⟨pc₀, pc', -, hnext, -, hconnects, -⟩ | ⟨x, key, t, -, -, -, -, -, hg⟩
  · rw [hconnects, Function.update_self, Option.some.injEq] at hpc
    subst hpc
    cases hnext with
    | close => exact hclose rfl
  · rw [hg, setConnect_connects, if_pos rfl] at hpc
    cases hpc

theorem answered_attached {c : Nat} {headers : Headers} {authority : Option String}
    (h : GatewayStep cfg g (.connectArrives c headers authority) g') :
    Connection.answered g' (.connect c) ≠ some .closed := by
  rw [Ne, answered_connect_iff]
  intro hpc
  simp only [GatewayStep, Gateway.step] at h
  split_ifs at h
  split at h
  all_goals
    cases h
    rw [setConnect_connects, if_pos rfl] at hpc
    cases hpc

/-! ## Whose tunnels a request touches -/

theorem registers_eq_some {r : Nat} {a : PostAction} {x : String × Tunnel}
    (h : Connection.registers g r a = some x) :
    ∃ q generation, g.posts r = some (.register q generation) ∧ x.1 = q.host := by
  unfold Connection.registers at h
  split at h
  · split at h
    · rename_i q generation hpc
      split_ifs at h
      cases h
      exact ⟨q, generation, hpc, rfl⟩
    · cases h
  · cases h

theorem displaces_eq_some {r : Nat} {a : PostAction} {x : String × Tunnel}
    (h : Connection.displaces g (.post r a) = some x) :
    ∃ q generation, g.posts r = some (.register q generation) ∧ x.1 = q.host := by
  simp only [Connection.displaces] at h
  obtain ⟨y, hreg, h⟩ := Option.bind_eq_some_iff.mp h
  obtain ⟨t, -, rfl⟩ := Option.map_eq_some_iff.mp h
  obtain ⟨q, generation, hpc, hhost⟩ := registers_eq_some hreg
  exact ⟨q, generation, hpc, hhost⟩

theorem requester_of_register {r : Nat} {q : TunnelRequest} {generation : Nat}
    (hserving : s.serving = some (.post r)) (hpc : s.gateway.posts r = some (.register q generation)) :
    s.requester = some q.id := by
  simp [Connection.requester, hserving, hpc]

/-- A tunnel of another installation is under another host than the one a request registers. -/
theorem host_ne_of_requester {r : Nat} {host : String} {t : Tunnel} (ho : Owned cfg s.gateway)
    (hserving : s.serving = some (.post r)) (hne : s.requester ≠ some t.id)
    (ht : s.gateway.tunnels host = some t) {q : TunnelRequest} {generation : Nat}
    (hpc : s.gateway.posts r = some (.register q generation)) : host ≠ q.host := by
  rintro rfl
  rw [requester_of_register hserving hpc, ho.displaced hpc ht] at hne
  exact hne rfl

/-! ## Isolation -/

/-- The step belongs to the handling of a request. -/
def ConnectionAction.handles : ConnectionAction → Bool
  | .other _ | .deadline | .disconnect => false
  | _ => true

/-- The database answers the queries of the request. -/
def QueriesAnswered (e : Event Connection ConnectionAction) : Prop :=
  e.label ≠ .post .close ∧ e.label ≠ .connect .close

/-- The response to the request can be sent: the peer has not reset its stream. -/
def ResponseSent (e : Event Connection ConnectionAction) : Prop := e.label ≠ .unsent

/-- A request that claims is of an installation that the store gives to this gateway. -/
def ClaimsPlaced (cfg : Config) (e : Event Connection ConnectionAction) : Prop :=
  ∀ now r q, e.label = .post (.claim now) → e.src.serving = some (.post r) →
    e.src.gateway.posts r = some (.claim q) → Placed cfg e.src.gateway.db q.id

/-- What the handling of a request leaves as it is: the connection, and the tunnels of every other
installation. -/
structure Isolated (e : Event Connection ConnectionAction) : Prop where
  ended : e.dst.ended = e.src.ended
  others : ∀ host t, e.src.requester ≠ some t.id → e.src.Live host t → e.dst.Live host t

/-- A request that touches no tunnel and does not end the connection. -/
theorem isolated_of_settle {q : ControlRequest} (htunnels : g.tunnels = s.gateway.tunnels)
    (hopen : Connection.answered g q ≠ some .closed) :
    Isolated ⟨s, a, ({ s with gateway := g } : Connection).settle q⟩ := by
  have hended : (({ s with gateway := g } : Connection).settle q).ended = s.ended := settle_ended hopen
  refine ⟨hended, ?_⟩
  rintro host t - ⟨htunnel, hcancelled, hspawned⟩
  simp only [Connection.Live, settle_connection, settle_cancelled, settle_spawned, hended, htunnels]
  exact ⟨htunnel, hcancelled, hspawned⟩

theorem isolated_of_step (ho : Owned cfg s.gateway) (hid : cfg.gatewayId.isEmpty = false)
    (hm : ConnectionMoves cfg s a s') (hhandles : a.handles = true)
    (hqueries : QueriesAnswered ⟨s, a, s'⟩) (hsent : ResponseSent ⟨s, a, s'⟩)
    (hplaced : ClaimsPlaced cfg ⟨s, a, s'⟩) : Isolated ⟨s, a, s'⟩ := by
  cases hm with
  | acceptPost r headers g h =>
    cases tunnelsStep_of_step h with
    | same htunnels => exact isolated_of_settle htunnels (answered_arrived h)
  | acceptConnect c headers authority g h =>
    cases tunnelsStep_of_step h with
    | same htunnels => exact isolated_of_settle htunnels (answered_attached h)
  | notFound => exact ⟨rfl, fun _ _ _ hlive => hlive⟩
  | connect c act g hserving h =>
    have hclose : act ≠ .close := fun heq => hqueries.2 (by rw [heq])
    exact isolated_of_settle (connectStep_tunnels h).1 (connectStep_answered h hclose)
  | post r act g hserving h =>
    have hpost : PostMoves cfg s.gateway r act g := postMoves_of_step h
    have hclose : act ≠ .close := fun heq => hqueries.1 (by rw [heq])
    obtain ⟨calls, hstore⟩ := ho.store
    have hopen : Connection.answered g (.post r) ≠ some .closed := by
      refine hpost.answered hclose fun now q hact hpc => ?_
      subst hact
      exact (hplaced now r q rfl hserving hpc).claim now hid (inRange_run hstore)
    have hended := settle_ended (s := { s with
      gateway := g
      spawned := (Connection.registers s.gateway r act).toList ++ s.spawned
      cancelled := (Connection.displaces s.gateway (.post r act)).toList ++ s.cancelled }) hopen
    refine ⟨hended, ?_⟩
    rintro host t hne ⟨htunnel, hcancelled, hspawned⟩
    have hother : ∀ {q generation}, s.gateway.posts r = some (.register q generation) →
        host ≠ q.host := host_ne_of_requester ho hserving hne htunnel
    have hregisters : (host, t) ∉ (Connection.registers s.gateway r act).toList := by
      intro hmem
      obtain ⟨q, generation, hpc, hhost⟩ := registers_eq_some (Option.mem_toList.mp hmem)
      exact hother hpc hhost
    have hdisplaces : (host, t) ∉ (Connection.displaces s.gateway (.post r act)).toList := by
      intro hmem
      obtain ⟨q, generation, hpc, hhost⟩ := displaces_eq_some (Option.mem_toList.mp hmem)
      exact hother hpc hhost
    have hstays : g.tunnels host = some t := by
      cases hpost.tunnels with
      | same htunnels =>
        rw [htunnels]
        exact htunnel
      | register hpc htunnels =>
        rw [htunnels, Function.update_of_ne (hother hpc)]
        exact htunnel
    simp only [Connection.Live, settle_connection, settle_cancelled, settle_spawned, hended,
      List.mem_append, not_or]
    exact ⟨hstays, ⟨hdisplaces, hcancelled⟩, fun h => ⟨hregisters, hspawned h⟩⟩
  | unsentPost | unsentConnect | unsent => exact absurd rfl hsent
  | other | deadline | disconnect => cases hhandles

/-- With the database reachable, in every run in which every claim is of an installation that is placed
at this gateway and every response is sent: the handling of a request never ends the connection, and
leaves the tunnels of every other installation registered and uncancelled. Only the deadline of
unauthenticated connections and the peer end the connection. -/
theorem requests_isolated {calls : List (Event Db Call)} (hdb : StoreRun cfg.sha256 calls db)
    (hid : cfg.gatewayId.isEmpty = false) (h : ConnectionRun cfg db tr s)
    (hqueries : ∀ e ∈ tr, QueriesAnswered e) (hsent : ∀ e ∈ tr, ResponseSent e)
    (hplaced : ∀ e ∈ tr, ClaimsPlaced cfg e) :
    (∀ e ∈ tr, e.label.handles = true → Isolated e) ∧
      (s.ended = true → ∃ e ∈ tr, e.label = .deadline ∨ e.label = .disconnect) := by
  induction h with
  | refl =>
    refine ⟨fun e he => absurd he List.not_mem_nil, ?_⟩
    rintro ⟨⟩
  | @snoc tr s s' a hrun hs ih =>
    have hm : ConnectionMoves cfg s a s' := connectionMoves_of_step hs
    obtain ⟨hearlier, hends⟩ := ih (fun e he => hqueries e (List.mem_cons_of_mem _ he))
      (fun e he => hsent e (List.mem_cons_of_mem _ he)) fun e he => hplaced e (List.mem_cons_of_mem _ he)
    have hlast : a.handles = true → Isolated ⟨s, a, s'⟩ := fun hhandles =>
      isolated_of_step (owned_of_connectionRun hdb hrun) hid hm hhandles
        (hqueries _ List.mem_cons_self) (hsent _ List.mem_cons_self) (hplaced _ List.mem_cons_self)
    constructor
    · intro e he hhandles
      rcases List.mem_cons.mp he with rfl | he
      · exact hlast hhandles
      · exact hearlier e he hhandles
    · intro hended
      by_cases hends' : a = .deadline ∨ a = .disconnect
      · exact ⟨_, List.mem_cons_self, hends'⟩
      · have hbefore : s.ended = true := by
          by_cases hhandles : a.handles = true
          · rw [← (hlast hhandles).ended]
            exact hended
          · cases hm with
            | other => exact hended
            | deadline => exact absurd (.inl rfl) hends'
            | disconnect => exact absurd (.inr rfl) hends'
            | _ => exact absurd rfl hhandles
        obtain ⟨e, he, hlabel⟩ := hends hbefore
        exact ⟨e, List.mem_cons_of_mem _ he, hlabel⟩

/-! ## Two installations on one connection -/

/-- Both installations are ready at `edge-1` and have a tunnel bearer. The latest call first. -/
def sharedCalls : List Call :=
  [⟨.default, 36, .issueBearer 8 12 "tunnel" 0 3600⟩,
    ⟨.default, 35, .markDnsReady 8⟩,
    ⟨.default, 34, .registerAcmeAccount 8 "https://acme-v02.api.letsencrypt.org/acme/acct/2"⟩,
    ⟨.default, 33, .allocate 11 6 "edge-1" 8 10⟩] ++ issuedCalls

def sharedDb : Db := (runOf (fun _ => 0) sharedCalls).2

def sharedConfig : Config :=
  ⟨fun _ => 0, fun v => if v = "00000000-0000-0000-0000-000000000008" then some 8 else some 7, .default,
    "edge-1"⟩

def secondHost : String := allocatedHostname 10

def secondHeaders : Headers
  | "x-bloom-installation" => some "00000000-0000-0000-0000-000000000008"
  | "x-bloom-hostname" => some secondHost
  | name => edgeHeaders name

/-- Installation 8 registers its tunnel, then installation 7 authenticates on the same connection. -/
def sharedActions : List ConnectionAction :=
  [.acceptPost 0 secondHeaders, .post .hostname, .post (.authenticate 50), .post (.claim 60),
    .post .register, .acceptPost 1 edgeHeaders, .post .hostname, .post (.authenticate 70)]

/-- Then installation 7 is relocated. -/
def relocatedActions : List ConnectionAction :=
  sharedActions ++ [.other (.store ⟨.default, 75, .relocate 7 20 "edge-2"⟩)]

/-- What the conditions of isolation ask of a step. -/
def stepAllowed (cfg : Config) (s : Connection) : ConnectionAction → Bool
  | .post .close | .connect .close | .unsent => false
  | .post (.claim _) => match s.serving with
    | some (.post r) => match s.gateway.posts r with
      | some (.claim q) => Placed cfg s.gateway.db q.id
      | _ => true
    | _ => true
  | _ => true

theorem conditions_of_allowed {e : Event Connection ConnectionAction}
    (h : stepAllowed cfg e.src e.label = true) :
    QueriesAnswered e ∧ ResponseSent e ∧ ClaimsPlaced cfg e := by
  refine ⟨⟨fun hl => ?_, fun hl => ?_⟩, fun hl => ?_, fun now r q hl hserving hpc => ?_⟩
  · rw [hl] at h
    cases h
  · rw [hl] at h
    cases h
  · rw [hl] at h
    cases h
  · rw [hl] at h
    simpa [stepAllowed, hserving, hpc] using h

theorem requests_isolated_shared :
    ∃ tr s, ConnectionRun sharedConfig sharedDb tr s ∧
      (∀ e ∈ tr, QueriesAnswered e ∧ ResponseSent e ∧ ClaimsPlaced sharedConfig e) ∧
      s.gateway.tunnels secondHost = some ⟨8, 3⟩ ∧ s.gateway.tunnels edgeHost = some ⟨7, 4⟩ ∧
      s.ended = false ∧ ∀ e ∈ tr, e.label.handles = true → Isolated e := by
  have hplay : (Run.play (fun s a => if stepAllowed sharedConfig s a then s.step sharedConfig a else none)
      (.start sharedDb) (sharedActions ++ [.post (.claim 80), .post .register])).map (fun s =>
        (s.gateway.tunnels secondHost, s.gateway.tunnels edgeHost, s.ended)) =
      some (some ⟨8, 3⟩, some ⟨7, 4⟩, false) := by decide +kernel
  obtain ⟨s, hs, heq⟩ := Option.map_eq_some_iff.mp hplay
  obtain ⟨hsecond, heq⟩ := Prod.mk.inj heq
  obtain ⟨hfirst, hended⟩ := Prod.mk.inj heq
  obtain ⟨tr, hrun, hchecked⟩ := Run.of_play_checked hs
  have hallowed : ∀ e ∈ tr, QueriesAnswered e ∧ ResponseSent e ∧ ClaimsPlaced sharedConfig e :=
    fun e he => conditions_of_allowed (hchecked e he)
  have hdb : StoreRun sharedConfig.sha256 (runOf (fun _ => 0) sharedCalls).1 sharedDb :=
    storeRun_runOf (fun _ => 0) sharedCalls
  have hid : sharedConfig.gatewayId.isEmpty = false := by decide
  exact ⟨tr, s, hrun, hallowed, hsecond, hfirst, hended,
    (requests_isolated hdb hid hrun (fun e he => (hallowed e he).1) (fun e he => (hallowed e he).2.1)
      fun e he => (hallowed e he).2.2).1⟩

/-- After a run that meets all the conditions, the step `last` of a request of installation 7 ends the
connection, and the tunnel of installation 8 with it. -/
def EndsConnection (last : ConnectionAction) : Prop :=
  ∃ tr s s' s'', ConnectionRun sharedConfig sharedDb tr s ∧
    (∀ e ∈ tr, QueriesAnswered e ∧ ResponseSent e ∧ ClaimsPlaced sharedConfig e) ∧
    ConnectionStep sharedConfig s last s' ∧ s.requester = some 7 ∧
    s.Live secondHost ⟨8, 3⟩ ∧ s.ended = false ∧ s'.ended = true ∧ ¬ s'.Live secondHost ⟨8, 3⟩ ∧
    ConnectionStep sharedConfig s' (.other (.exit secondHost ⟨8, 3⟩)) s'' ∧
    s''.gateway.tunnels secondHost = none

theorem endsConnection_of_play (actions : List ConnectionAction) {last : ConnectionAction}
    (h : (Run.play (fun s a => if stepAllowed sharedConfig s a then s.step sharedConfig a else none)
      (.start sharedDb) actions).any (fun s => s.requester = some 7 ∧
        s.gateway.tunnels secondHost = some ⟨8, 3⟩ ∧ s.ended = false ∧ s.cancelled = [] ∧
        (s.step sharedConfig last).any (fun s' =>
          s'.ended = true ∧ s'.spawned = [(secondHost, ⟨8, 3⟩)] ∧
            (s'.step sharedConfig (.other (.exit secondHost ⟨8, 3⟩))).any (fun s'' =>
              s''.gateway.tunnels secondHost = none))) = true) : EndsConnection last := by
  obtain ⟨s, hs, hfacts⟩ := (Option.any_eq_true _ _).mp h
  obtain ⟨hrequester, htunnel, hopen, hcancelled, hlast⟩ := of_decide_eq_true hfacts
  obtain ⟨s', hs', hfacts⟩ := (Option.any_eq_true _ _).mp hlast
  obtain ⟨hended, hspawned, hexit⟩ := of_decide_eq_true hfacts
  obtain ⟨s'', hs'', hgone⟩ := (Option.any_eq_true _ _).mp hexit
  obtain ⟨tr, hrun, hchecked⟩ := Run.of_play_checked hs
  refine ⟨tr, s, s', s'', hrun, fun e he => conditions_of_allowed (hchecked e he), hs', hrequester,
    ⟨htunnel, ?_, ?_⟩, hopen, hended, ?_, hs'', of_decide_eq_true hgone⟩
  · rw [hcancelled]
    exact List.not_mem_nil
  · rw [hopen]
    exact nofun
  · rintro ⟨-, -, hlive⟩
    have hnot := hlive hended
    rw [hspawned] at hnot
    exact hnot List.mem_cons_self

/-- Installation 7 is relocated between its authentication and its claim: the store answers the claim with
a conflict, and the connection ends. It also ends if installation 7 resets its stream before the response
is sent. -/
theorem request_ends_connection : EndsConnection (.post (.claim 80)) ∧ EndsConnection .unsent :=
  ⟨endsConnection_of_play relocatedActions (by decide +kernel),
    endsConnection_of_play sharedActions (by decide +kernel)⟩

end BloomRelay.Routing
