import BloomRelay.Gateway.Proofs.TicketProofs
import BloomRelay.Gateway.Proofs.TunnelProofs
import BloomRelay.Store.Proofs.CredentialProofs

/-!
# Where a `CONNECT` stream goes

What a `CONNECT` has gone through when it hands its stream to a browser connection, for any
interleaving of the tasks of a gateway with each other and with the store.
-/

namespace BloomRelay.Routing

open Protocol Store

variable {cfg : Config} {g g' : Gateway} {l : Action} {tr : List GatewayEvent} {c : Nat} {a : Attach}
  {t : Ticket}

/-! ## The evidence behind a program counter -/

/-- The store binds the hostname the `CONNECT` names to its installation. -/
def Binds (db : Db) (a : Attach) : Prop :=
  ∃ row, db.installations.find? a.id = some row ∧ row.hostname = a.host

/-- The bearer of `CONNECT` `c` authenticated for its installation in scope `tunnel`. -/
def Authenticated (cfg : Config) (c : Nat) (a : Attach) : List GatewayEvent → Prop :=
  Happened fun e _ => ∃ now, e.label = .connect c (.authenticate now) ∧
    e.src.connects c = some (.authenticate a) ∧
    (authenticateBearer cfg.sha256 e.src.db now a.id "tunnel" a.token).isSome = true

/-- `CONNECT` `c` took ticket `t` out of the table before its deadline. -/
def Took (c : Nat) (a : Attach) (t : Ticket) : List GatewayEvent → Prop :=
  Happened fun e _ => ∃ key, e.label = .connect c .ticket ∧ a.ticket = some key ∧
    e.src.tickets key = some t ∧ e.dst.tickets key = none ∧ e.src.instant < t.deadline

/-- After that the tunnel of the host was the one the `CONNECT` names. -/
def OwnedAfter (c : Nat) (a : Attach) (t : Ticket) : List GatewayEvent → Prop :=
  Happened fun e earlier => e.label = .connect c .owner ∧
    e.src.registered a.host a.id a.generation = true ∧ Took c a t earlier

/-- And after that the lease of this gateway was current. -/
def CurrentAfter (cfg : Config) (c : Nat) (a : Attach) (t : Ticket) : List GatewayEvent → Prop :=
  Happened fun e earlier => ∃ now, e.label = .connect c (.recheck now) ∧
    tunnelIsCurrent e.src.db now a.id cfg.gatewayId a.generation = true ∧ OwnedAfter c a t earlier

/-- The ticket is one for this `CONNECT`, and its browser connection asked for the ticket's host. -/
structure Suits (g : Gateway) (a : Attach) (t : Ticket) : Prop where
  host : t.host = a.host
  authority : a.authority = some a.host
  id : t.id = a.id
  generation : t.generation = a.generation
  sni : ∃ stage, g.browsers t.browser = some ⟨a.host, stage⟩

/-- What is known of a `CONNECT` at its program counter. -/
def Evidence (cfg : Config) (tr : List GatewayEvent) (g : Gateway) (c : Nat) : ConnectPc → Prop
  | .hostname _ | .done _ => True
  | .authenticate a => Binds g.db a
  | .registered a | .current a | .ticket a => Binds g.db a ∧ Authenticated cfg c a tr
  | .owner a t => Binds g.db a ∧ Authenticated cfg c a tr ∧ Suits g a t ∧ Took c a t tr
  | .recheck a t => Binds g.db a ∧ Authenticated cfg c a tr ∧ Suits g a t ∧ OwnedAfter c a t tr
  | .handover a t => Binds g.db a ∧ Authenticated cfg c a tr ∧ Suits g a t ∧ CurrentAfter cfg c a t tr

/-! ## It is kept -/

theorem Binds.dbStep {db db' : Db} (h : Binds db a) (hs : DbStep cfg l db db') : Binds db' a :=
  Names.dbStep h hs

theorem Suits.mono (h : Suits g a t)
    (hb : ∀ b host stage, g.browsers b = some ⟨host, stage⟩ →
      ∃ stage', g'.browsers b = some ⟨host, stage'⟩) : Suits g' a t := by
  obtain ⟨stage, hstage⟩ := h.sni
  exact ⟨h.host, h.authority, h.id, h.generation, hb _ _ _ hstage⟩

/-- What a step leaves as it was: hostnames of installations and of browser connections. -/
structure Keeps (cfg : Config) (l : Action) (g g' : Gateway) : Prop where
  db : DbStep cfg l g.db g'.db
  browsers : ∀ b host stage, g.browsers b = some ⟨host, stage⟩ →
    ∃ stage', g'.browsers b = some ⟨host, stage'⟩

theorem browsers_update {b : Nat} {host : String} {stage' : BrowserStage}
    (hb : ∀ x, g.browsers b = some x → x.host = host)
    (h : g'.browsers = Function.update g.browsers b (some ⟨host, stage'⟩)) :
    ∀ b host stage, g.browsers b = some ⟨host, stage⟩ →
      ∃ stage', g'.browsers b = some ⟨host, stage'⟩ := by
  intro b₁ host₁ stage₁ h₁
  rw [h]
  by_cases hb₁ : b₁ = b
  · subst hb₁
    have hhost : host₁ = host := hb _ h₁
    exact ⟨stage', by rw [Function.update_self, hhost]⟩
  · exact ⟨stage₁, by rw [Function.update_of_ne hb₁, h₁]⟩

theorem keeps_of_moves (h : Moves cfg g g' l) : Keeps cfg l g g' := by
  refine ⟨h.dbStep, ?_⟩
  cases h with
  | quiet _ hl hdb hposts hconnects htickets hbrowsers hdelivered =>
    exact fun b host stage hb => ⟨stage, hbrowsers ▸ hb⟩
  | connectArrives c headers authority pc hnew hpc hg => exact fun b host stage hb => ⟨stage, hg ▸ hb⟩
  | connect c a pc pc' hpc hnext hdb hconnects htickets hbrowsers hposts hdelivered =>
    exact fun b host stage hb => ⟨stage, hbrowsers ▸ hb⟩
  | take c a key t hpc hkey hticket hmatches hg => exact fun b host stage hb => ⟨stage, hg ▸ hb⟩
  | browserArrives b host hnew hg =>
    subst hg
    refine browsers_update (b := b) (fun x hx => ?_) rfl
    rw [hnew] at hx
    cases hx
  | browser b a host stage stage' hb hearly hdb hconnects htickets hbrowsers hposts hdelivered =>
    refine browsers_update (fun x hx => ?_) hbrowsers
    rw [hb] at hx
    exact congrArg Browser.host (Option.some.inj hx).symm
  | insert b a host tunnel deadline key hb hg =>
    subst hg
    refine browsers_update (b := b) (fun x hx => ?_) rfl
    rw [hb] at hx
    exact congrArg Browser.host (Option.some.inj hx).symm

theorem Evidence.keep {pc : ConnectPc} {e : GatewayEvent} (h : Evidence cfg tr g c pc)
    (hk : Keeps cfg l g g') : Evidence cfg (e :: tr) g' c pc := by
  cases pc with
  | hostname | done => trivial
  | authenticate a => exact Binds.dbStep h hk.db
  | registered a | current a | ticket a => exact ⟨h.1.dbStep hk.db, h.2.cons⟩
  | owner a t | recheck a t | handover a t =>
    exact ⟨h.1.dbStep hk.db, h.2.1.cons, h.2.2.1.mono hk.browsers, h.2.2.2.cons⟩

/-! ## It is gathered -/

/-- The tickets of the table carry the host their browser connection asked for. -/
def TableInv (g : Gateway) : Prop :=
  ∀ key t, g.tickets key = some t → ∃ stage, g.browsers t.browser = some ⟨t.host, stage⟩

theorem TableInv.step (h : TableInv g) (hm : Moves cfg g g' l) : TableInv g' := by
  have hk : Keeps cfg l g g' := keeps_of_moves hm
  -- a ticket that was there before is still good
  have hold : (∀ key t, g'.tickets key = some t → g.tickets key = some t) → TableInv g' := by
    intro hsub key t ht
    obtain ⟨stage, hstage⟩ := h key t (hsub key t ht)
    exact hk.browsers _ _ _ hstage
  cases hm with
  | quiet _ hl hdb hposts hconnects htickets hbrowsers hdelivered =>
    exact hold fun _ _ ht => htickets ▸ ht
  | connectArrives c headers authority pc hnew hpc hg =>
    subst hg
    exact hold fun _ _ ht => ht
  | connect c a pc pc' hpc hnext hdb hconnects htickets hbrowsers hposts hdelivered =>
    exact hold fun _ _ ht => htickets ▸ ht
  | take c a key t hpc hkey hticket hmatches hg =>
    subst hg
    exact hold update_none_sub
  | browserArrives b host hnew hg =>
    subst hg
    exact hold fun _ _ ht => ht
  | browser b a host stage stage' hb hearly hdb hconnects htickets hbrowsers hposts hdelivered =>
    exact hold htickets
  | insert b a host tunnel deadline key hb hg =>
    intro key' t ht
    by_cases hkey : key' = key
    · have ht' : t = ⟨host, tunnel.id, tunnel.generation, deadline, b⟩ := by
        subst hg hkey
        simpa [Gateway.setBrowser, Gateway.setTicket, eq_comm] using ht
      subst ht' hg
      exact ⟨.opening key, by simp [Gateway.setBrowser]⟩
    · have ht' : g.tickets key' = some t := by
        subst hg
        simpa [Gateway.setBrowser, Gateway.setTicket, Function.update_of_ne hkey] using ht
      obtain ⟨stage, hstage⟩ := h key' t ht'
      exact hk.browsers _ _ _ hstage

theorem suits_of_matches (h : ticketClaimMatches t a.id a.host a.generation a.authority g.instant = true)
    (hsni : ∃ stage, g.browsers t.browser = some ⟨t.host, stage⟩) :
    Suits g a t ∧ g.instant < t.deadline := by
  simp only [ticketClaimMatches, ticketOwnerMatches, decide_eq_true_eq] at h
  obtain ⟨hdeadline, hauthority, hhost, hid, hgeneration⟩ := h
  exact ⟨⟨hhost.symm, hhost ▸ hauthority, hid.symm, hgeneration.symm, hhost ▸ hsni⟩, hdeadline⟩

/-- What a `CONNECT` knows after a section that takes no ticket. -/
theorem ConnectNext.evidence {pc pc' : ConnectPc} {action : ConnectAction}
    (hnext : ConnectNext cfg g pc action pc') (hpc : g.connects c = some pc)
    (h : Evidence cfg tr g c pc) (hk : Keeps cfg l g g') :
    Evidence cfg (⟨g, .connect c action, g'⟩ :: tr) g' c pc' := by
  have hkept := h.keep (e := ⟨g, .connect c action, g'⟩) hk
  cases hnext with
  | hostname a hhost => exact (names_of_hostname hhost).dbStep hk.db
  | authenticate a now hauth => exact ⟨hkept, .now ⟨now, rfl, hpc, hauth⟩⟩
  | registered | current => exact hkept
  | owner a t howns => exact ⟨hkept.1, hkept.2.1, hkept.2.2.1, .now ⟨rfl, howns, h.2.2.2⟩⟩
  | recheck a t now hcurrent =>
    exact ⟨hkept.1, hkept.2.1, hkept.2.2.1, .now ⟨now, rfl, hcurrent, h.2.2.2⟩⟩
  | handover | unauthorized | gone | close => trivial

structure RoutingInv (cfg : Config) (tr : List GatewayEvent) (g : Gateway) : Prop where
  table : TableInv g
  connects : ∀ c pc, g.connects c = some pc → Evidence cfg tr g c pc

theorem RoutingInv.step (h : RoutingInv cfg tr g) (hs : GatewayStep cfg g l g') :
    RoutingInv cfg (⟨g, l, g'⟩ :: tr) g' := by
  have hm : Moves cfg g g' l := moves_of_step hs
  have hk : Keeps cfg l g g' := keeps_of_moves hm
  have hkept : ∀ c pc, g.connects c = some pc → Evidence cfg (⟨g, l, g'⟩ :: tr) g' c pc :=
    fun c pc hpc => (h.connects c pc hpc).keep hk
  refine ⟨h.table.step hm, ?_⟩
  intro c pc hpc
  cases hm.came hpc with
  | stayed hpc₀ => exact hkept _ _ hpc₀
  | arrived hnew hpc₀ => rcases hpc₀ with ⟨a, rfl⟩ | rfl <;> trivial
  | moved hl hpc₀ hnext =>
    subst hl
    exact hnext.evidence hpc₀ (h.connects _ _ hpc₀) hk
  | @took a key t hl hpc₀ hkey hticket hmatches htickets =>
    obtain ⟨hbinds, hauth⟩ := hkept _ _ hpc₀
    obtain ⟨hsuits, hdeadline⟩ := suits_of_matches hmatches (h.table key t hticket)
    have hgone : g'.tickets key = none := by rw [htickets, Function.update_self]
    exact ⟨hbinds, hauth, hsuits.mono hk.browsers, .now ⟨key, hl, hkey, hticket, hgone, hdeadline⟩⟩

theorem routingInv_of_run {db : Db} (h : Run (GatewayStep cfg) (Gateway.start db) tr g) :
    RoutingInv cfg tr g := by
  refine h.invariant (RoutingInv cfg) ⟨?_, ?_⟩ fun _ _ _ _ _ hinv hs => hinv.step hs
  · intro key t ht
    cases ht
  · intro c pc hpc
    cases hpc

/-! ## A `CONNECT` that is turned away -/

/-- The `CONNECT` has not got past its look at the tickets, or was turned away before it. -/
def ConnectPc.untouched : ConnectPc → Bool
  | .hostname _ | .authenticate _ | .registered _ | .current _ | .ticket _ => true
  | .done status => status = .unauthorized
  | _ => false

theorem ConnectNext.untouched {pc pc' : ConnectPc} {action : ConnectAction}
    (h : ConnectNext cfg g pc action pc') (hpc' : pc'.untouched = true) : pc.untouched = true := by
  cases h with
  | unauthorized pc _ hauth => cases pc <;> first | rfl | cases hauth
  | owner | recheck | handover | gone | close => cases hpc'
  | _ => rfl

/-- A step of `CONNECT` `c` that takes the ticket it names out of the table. -/
def Takes (e : GatewayEvent) (c : Nat) (a : Attach) : Prop :=
  ∃ key t, e.src.connects c = some (.ticket a) ∧ a.ticket = some key ∧ e.src.tickets key = some t ∧
    ticketClaimMatches t a.id a.host a.generation a.authority e.src.instant = true ∧
    e.dst.tickets = Function.update e.src.tickets key none ∧ e.dst.connects c = some (.owner a t)

/-- A `CONNECT` changes the tickets only by taking the one it names. -/
theorem takes_of_tickets_ne {action : ConnectAction} (hm : Moves cfg g g' (.connect c action))
    (hne : g'.tickets ≠ g.tickets) : ∃ a, Takes ⟨g, .connect c action, g'⟩ c a := by
  cases hm with
  | quiet _ hl _ _ _ _ _ _ => exact absurd rfl (hl c action)
  | connect _ _ pc pc' hpc hnext hdb hconnects htickets hbrowsers hposts hdelivered =>
    exact absurd htickets hne
  | take _ a key t hpc hkey hticket hmatches hg =>
    refine ⟨a, key, t, hpc, hkey, hticket, hmatches, by rw [hg]; rfl, ?_⟩
    rw [hg, setConnect_connects, if_pos rfl]

/-- `CONNECT` `c` is past its look at the tickets. -/
def Touched (g : Gateway) (c : Nat) : Prop := ∃ pc, g.connects c = some pc ∧ pc.untouched = false

theorem Touched.step (h : Touched g c) (hm : Moves cfg g g' l) : Touched g' c := by
  obtain ⟨pc, hpc, htouched⟩ := h
  obtain ⟨pc', hpc'⟩ := hm.stays hpc
  refine ⟨pc', hpc', ?_⟩
  cases hm.came hpc' with
  | stayed hpc₀ =>
    rw [hpc, Option.some.injEq] at hpc₀
    exact hpc₀ ▸ htouched
  | arrived hnew _ =>
    rw [hpc] at hnew
    cases hnew
  | moved hl hpc₀ hnext =>
    rw [hpc, Option.some.injEq] at hpc₀
    subst hpc₀
    by_contra hpc''
    rw [hnext.untouched (eq_true_of_ne_false hpc'')] at htouched
    cases htouched
  | took => rfl

/-- A `CONNECT` that changed the tickets stays past its look at them. -/
theorem touched_of_run {db : Db} (h : Run (GatewayStep cfg) (Gateway.start db) tr g) :
    ∀ e ∈ tr, ∀ c action, e.label = .connect c action → e.dst.tickets ≠ e.src.tickets →
      Touched g c := by
  refine h.invariant (fun tr g => ∀ e ∈ tr, ∀ c action, e.label = .connect c action →
    e.dst.tickets ≠ e.src.tickets → Touched g c) (fun _ he => absurd he List.not_mem_nil) ?_
  intro tr g l g' _ hinv hs e he c action hl hne
  have hm : Moves cfg g g' l := moves_of_step hs
  rcases List.mem_cons.1 he with rfl | he
  · obtain rfl : l = .connect c action := hl
    obtain ⟨a, key, t, -, -, -, -, -, hpc⟩ := takes_of_tickets_ne hm hne
    exact ⟨_, hpc, rfl⟩
  · exact (hinv e he c action hl hne).step hm

/-! ## The main result -/

/-- Whatever reaches a browser connection was sent to it by a handover. -/
theorem handsTo_of_delivered {b : Nat} (hm : Moves cfg g g' l) (hne : g'.delivered b ≠ g.delivered b) :
    HandsTo ⟨g, l, g'⟩ b := by
  cases hm with
  | quiet _ hl hdb hposts hconnects htickets hbrowsers hdelivered =>
    exact absurd (congrFun hdelivered b) hne
  | connectArrives c headers authority pc hnew hpc hg => exact absurd (by rw [hg]; rfl) hne
  | connect c action pc pc' hpc hnext hdb hconnects htickets hbrowsers hposts hdelivered =>
    obtain ⟨rfl, a, t, rfl, hb⟩ := hdelivered b hne
    exact ⟨c, a, t, rfl, hpc, hb⟩
  | take c a key t hpc hkey hticket hmatches hg => exact absurd (by rw [hg]; rfl) hne
  | browserArrives b host hnew hg => exact absurd (by rw [hg]; rfl) hne
  | browser b a host stage stage' hb hearly hdb hconnects htickets hbrowsers hposts hdelivered =>
    exact absurd (congrFun hdelivered _) hne
  | insert b a host tunnel deadline key hb hg => exact absurd (by rw [hg]; rfl) hne

/-- What stands behind the handover of the stream of `CONNECT` `c` against ticket `t`. -/
structure Routed (cfg : Config) (earlier : List GatewayEvent) (g : Gateway) (c : Nat) (a : Attach)
    (t : Ticket) : Prop where
  binds : Binds g.db a
  authenticated : Authenticated cfg c a earlier
  suits : Suits g a t
  current : CurrentAfter cfg c a t earlier

/-- Routing safety, for every run of a gateway: every handover is backed by `Routed`, a browser
connection gets one stream at most and its ticket is taken once at most, only an authenticated
`CONNECT` takes a ticket, and one that was turned away has not touched the tickets. -/
theorem routing_safe {db : Db} (h : Run (GatewayStep cfg) (Gateway.start db) tr g) :
    (∀ later e earlier, tr = later ++ e :: earlier → ∀ c a t, e.label = .connect c .handover →
      e.src.connects c = some (.handover a t) → Routed cfg earlier e.src c a t) ∧
    (∀ e ∈ tr, ∀ b, e.dst.delivered b ≠ e.src.delivered b → HandsTo e b) ∧
    (tr.Pairwise fun e e' => ∀ b, HandsTo e b → ¬ HandsTo e' b) ∧
    (tr.Pairwise fun e e' => ∀ b, TakesFrom e b → ¬ TakesFrom e' b) ∧
    (∀ later e earlier, tr = later ++ e :: earlier → ∀ c action, e.label = .connect c action →
      e.dst.tickets ≠ e.src.tickets → ∃ a, Takes e c a ∧ Authenticated cfg c a earlier) ∧
    ∀ c, g.connects c = some (.done .unauthorized) →
      ∀ e ∈ tr, ∀ action, e.label = .connect c action → e.dst.tickets = e.src.tickets := by
  have hinv : TicketInv tr g := ticketInv_of_run h
  refine ⟨?_, ?_, hinv.handed_once, hinv.taken_once, ?_, ?_⟩
  · rintro later e earlier rfl c a t - hpc
    obtain ⟨hbefore, -, -⟩ := h.split
    obtain ⟨hbinds, hauth, hsuits, hcurrent⟩ := (routingInv_of_run hbefore).connects c _ hpc
    exact ⟨hbinds, hauth, hsuits, hcurrent⟩
  · intro e he b hne
    exact handsTo_of_delivered (moves_of_step (h.step_of_mem he)) hne
  · rintro later ⟨src, l, dst⟩ earlier rfl c action rfl hne
    obtain ⟨hbefore, hstep, -⟩ := h.split
    obtain ⟨a, key, t, hpc, htakes⟩ := takes_of_tickets_ne (moves_of_step hstep) hne
    have hevidence := (routingInv_of_run hbefore).connects c _ hpc
    exact ⟨a, ⟨key, t, hpc, htakes⟩, hevidence.2⟩
  · intro c hpc e he action hl
    by_contra hne
    obtain ⟨pc, hpc', htouched⟩ := touched_of_run h e he c action hl hne
    rw [hpc, Option.some.injEq] at hpc'
    subst hpc'
    cases htouched

/-! ## A routed connection -/

/-- A gateway for one installation. -/
def edgeConfig : Config := ⟨fun _ => 0, fun _ => some 7, .default, "edge-1"⟩

def edgeHost : String := "aaaaaaaaaaaaaaaaaaaaaaaabe.relay.bloom.directory"

def edgeHeaders : Headers
  | "x-bloom-version" => some "1"
  | "x-bloom-installation" => some "00000000-0000-0000-0000-000000000007"
  | "x-bloom-hostname" => some edgeHost
  | "x-bloom-generation" => some "4"
  | "authorization" => some "Bearer 0123456789abcdef0123456789abcdef0123456789abcdef"
  | "x-bloom-ticket" => some "t"
  | _ => none

/-- The installation registers its tunnel, a browser connects, and a `CONNECT` for its ticket gets as
far as the handover. -/
def routedActions : List Action :=
  [.postArrives 0 edgeHeaders, .post 0 .hostname, .post 0 (.authenticate 50), .post 0 (.claim 60),
    .post 0 .register,
    .browserArrives 0 edgeHost, .browser 0 .lookup, .browser 0 (.current 70),
    .browser 0 (.insert "t"), .browser 0 (.opened true),
    .connectArrives 0 edgeHeaders (some edgeHost), .connect 0 .hostname,
    .connect 0 (.authenticate 80), .connect 0 .registered, .connect 0 (.current 90),
    .connect 0 .ticket, .connect 0 .owner, .connect 0 (.recheck 95)]

def routedAttach : Attach :=
  ⟨7, edgeHost, 4, "0123456789abcdef0123456789abcdef0123456789abcdef", some edgeHost, some "t"⟩

def routedTicket : Ticket := ⟨edgeHost, 7, 4, setupTime, 0⟩

theorem routing_safe_routed :
    ∃ earlier g, Run (GatewayStep edgeConfig) (Gateway.start (runOf (fun _ => 0) issuedCalls).2)
      earlier g ∧ (∃ g', GatewayStep edgeConfig g (.connect 0 .handover) g' ∧
        g'.delivered 0 = some 0) ∧
      Routed edgeConfig earlier g 0 routedAttach routedTicket := by
  have hplay : ((Run.play (Gateway.step edgeConfig)
      (Gateway.start (runOf (fun _ => 0) issuedCalls).2) routedActions).map fun g =>
        (g.connects 0, (g.step edgeConfig (.connect 0 .handover)).map fun g' => g'.delivered 0)) =
      some (some (.handover routedAttach routedTicket), some (some 0)) := by decide +kernel
  obtain ⟨g, hg, heq⟩ := Option.map_eq_some_iff.1 hplay
  obtain ⟨hpc, hdelivered⟩ := Prod.mk.inj heq
  obtain ⟨g', hstep, hg'⟩ := Option.map_eq_some_iff.1 hdelivered
  obtain ⟨earlier, hrun, -⟩ := Run.of_play hg
  have hroute := (routing_safe (hrun.snoc hstep)).1 [] _ earlier rfl
  exact ⟨earlier, g, hrun, ⟨g', hstep, hg'⟩, hroute 0 routedAttach routedTicket rfl hpc⟩

end BloomRelay.Routing
