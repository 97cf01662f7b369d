import BloomRelay.Gateway.Admission
import BloomRelay.Gateway.Proofs.RoutingProofs

/-!
# How many streams an installation has

The permits belong to a tunnel, so a tunnel never has more streams than permits; but an installation
that reconnects gets a new tunnel while the streams of the old one go on.
-/

namespace BloomRelay.Routing

open Protocol Store

variable {cfg : Config} {s s' : Admission} {g g' : Gateway} {a : AdmissionAction} {l : Action}
  {b b' : Nat} {i : Uuid} {db : Db} {tr : List (Event Admission AdmissionAction)}

/-! ## The gateway below -/

theorem settle_gateway (s : Admission) (b : Nat) : (s.settle b).gateway = s.gateway := by
  unfold Admission.settle
  split <;> rfl

/-- What a step does: a section of the gateway, or a permit taken. A connection that gets no permit is
dropped. -/
inductive AdmissionMoves (cfg : Config) (s : Admission) : AdmissionAction → Admission → Prop where
  | arrives (b : Nat) (host : String) (slots : Permits Nat Unit) (g : Gateway)
      (hslots : s.slots.acquire? gatewayStreams b () = some slots)
      (h : GatewayStep cfg s.gateway (.browserArrives b host) g) :
      AdmissionMoves cfg s (.gateway (.browserArrives b host))
        { s with gateway := g, slots := slots }
  | browser (a : AdmissionAction) (b : Nat) (act : BrowserAction) (g : Gateway)
      (hpermit : ∀ now, act = .current now → s.streams.holds b = true)
      (h : GatewayStep cfg s.gateway (.browser b act) g) :
      AdmissionMoves cfg s a ({ s with gateway := g }.settle b)
  | other (l : Action) (g : Gateway) (hbrowsers : g.browsers = s.gateway.browsers)
      (h : GatewayStep cfg s.gateway l g) :
      AdmissionMoves cfg s (.gateway l) { s with gateway := g }
  | acquire (b : Nat) (host : String) (tunnel : Tunnel) (streams : Permits Nat Tunnel)
      (hb : s.gateway.browsers b = some ⟨host, .current tunnel⟩)
      (h : s.streams.acquire? maxInstallationStreams b tunnel = some streams) :
      AdmissionMoves cfg s (.acquire b) { s with streams := streams }

theorem admissionMoves_of_step (h : AdmissionStep cfg s a s') : AdmissionMoves cfg s a s' := by
  cases a with
  | acquire b =>
    simp only [AdmissionStep, Admission.step] at h
    split at h
    · rename_i host tunnel hb
      split_ifs at h
      split at h
      · rename_i streams hstreams
        cases h
        exact .acquire b host tunnel streams hb hstreams
      · cases h
        refine .browser (.acquire b) b .drop _ (by simp) ?_
        simp [GatewayStep, Gateway.step, browserStep, hb]
    · cases h
  | gateway l =>
    cases l with
    | browserArrives b host =>
      obtain ⟨slots, hslots, h⟩ := Option.bind_eq_some_iff.mp h
      obtain ⟨g, hg, rfl⟩ := Option.map_eq_some_iff.mp h
      exact .arrives b host slots g hslots hg
    | browser b act =>
      simp only [AdmissionStep, Admission.step, Admission.browserSection] at h
      split_ifs at h with hpermit
      obtain ⟨g, hg, rfl⟩ := Option.map_eq_some_iff.mp h
      refine .browser _ b act g ?_ hg
      rintro now rfl
      exact hpermit
    | _ =>
      simp only [AdmissionStep, Admission.step, Option.map_eq_some_iff] at h
      obtain ⟨g, hg, rfl⟩ := h
      exact .other _ g (browsers_eq_of_step hg (by simp) (by simp)) hg

/-- Every step is a section of the gateway or leaves it as it is. -/
theorem AdmissionMoves.gateway_step (h : AdmissionMoves cfg s a s') :
    s'.gateway = s.gateway ∨ ∃ l, GatewayStep cfg s.gateway l s'.gateway := by
  cases h with
  | arrives b host slots g hslots h => exact .inr ⟨_, h⟩
  | browser a b act g hpermit h =>
    rw [settle_gateway]
    exact .inr ⟨_, h⟩
  | other l g hbrowsers h => exact .inr ⟨_, h⟩
  | acquire => exact .inl rfl

/-- Below every run is a run of the gateway. -/
theorem gatewayRun_of_run (h : AdmissionRun cfg db tr s) :
    ∃ tr', Run (GatewayStep cfg) (Gateway.start db) tr' s.gateway := by
  refine h.state_invariant
    (fun s => ∃ tr', Run (GatewayStep cfg) (Gateway.start db) tr' s.gateway) ⟨[], .refl⟩ ?_
  rintro s a s' ⟨tr', hrun⟩ hs
  rcases (admissionMoves_of_step hs).gateway_step with heq | ⟨l, hl⟩
  · exact ⟨tr', heq ▸ hrun⟩
  · exact ⟨_, hrun.snoc hl⟩

/-! ## Who holds a permit -/

/-- The lease was checked for the connection, and it has not ended. -/
def BrowserStage.accepted : BrowserStage → Bool
  | .lookup | .current _ | .failed => false
  | _ => true

theorem BrowserNext.accepted {host : String} {stage stage' : BrowserStage} {act : BrowserAction}
    (h : BrowserNext cfg g host stage act stage') (hacc : stage'.accepted = true) :
    (∃ now, act = .current now) ∨ stage.accepted = true := by
  cases h with
  | current tunnel now => exact .inl ⟨now, rfl⟩
  | insert | opened | bridging => exact .inr rfl
  | closing stage _ _ _ hlistening => cases stage <;> first | exact .inr rfl | cases hlistening
  | found | failed => cases hacc

/-- A permit is of a tunnel of the connection's host, and every connection whose lease was checked has
one. -/
structure Permitted (s : Admission) : Prop where
  held : ∀ b t, (b, t) ∈ s.streams.held →
    ∃ host stage, s.gateway.browsers b = some ⟨host, stage⟩ ∧ Names s.gateway.db t.id host
  accepted : ∀ b host stage, s.gateway.browsers b = some ⟨host, stage⟩ → stage.accepted = true →
    s.streams.holds b = true

theorem Permitted.settle (h : Permitted s) (b : Nat) : Permitted (s.settle b) := by
  unfold Admission.settle
  split_ifs with hfailed
  · refine ⟨fun b' t hheld => h.held b' t (Permits.mem_release.mp hheld).1, ?_⟩
    intro b' host stage hb hacc
    have hne : b' ≠ b := by
      rintro rfl
      rw [hb] at hfailed
      have hstage : stage = .failed := of_decide_eq_true hfailed
      rw [hstage] at hacc
      cases hacc
    exact Permits.holds_release_of_ne hne (h.accepted b' host stage hb hacc)
  · exact h

/-- A section of the gateway that accepts no connection without a permit. -/
theorem Permitted.section (h : Permitted s) (hs : GatewayStep cfg s.gateway l g)
    (haccepted : ∀ b host stage, g.browsers b = some ⟨host, stage⟩ → stage.accepted = true →
      s.streams.holds b = true) (slots : Permits Nat Unit) :
    Permitted { s with gateway := g, slots := slots } := by
  have hk : Keeps cfg l s.gateway g := keeps_of_moves (moves_of_step hs)
  refine ⟨fun b t hheld => ?_, haccepted⟩
  obtain ⟨host, stage, hb, hnames⟩ := h.held b t hheld
  obtain ⟨stage', hb'⟩ := hk.browsers b host stage hb
  exact ⟨host, stage', hb', hnames.dbStep hk.db⟩

theorem Permitted.step (h : Permitted s) (ho : Owned cfg s.gateway) (hm : AdmissionMoves cfg s a s') :
    Permitted s' := by
  cases hm with
  | arrives b host slots g hslots hs =>
    refine h.section hs ?_ slots
    intro b' host' stage hb hacc
    cases browserCame_of_step hs hb with
    | stayed hb₀ => exact h.accepted b' host' stage hb₀ hacc
    | arrived => cases hacc
    | moved hl => cases hl
  | browser a b act g hpermit hs =>
    refine (h.section hs ?_ s.slots).settle b
    intro b' host stage hb hacc
    cases browserCame_of_step hs hb with
    | stayed hb₀ => exact h.accepted b' host stage hb₀ hacc
    | arrived => cases hacc
    | @moved stage₀ _ act' hl hb₀ hnext =>
      cases hl
      rcases hnext.accepted hacc with ⟨now, hnow⟩ | hacc₀
      · exact hpermit now hnow
      · exact h.accepted b host stage₀ hb₀ hacc₀
  | other l g hbrowsers hs =>
    exact h.section hs (fun b host stage hb => h.accepted b host stage (hbrowsers ▸ hb)) s.slots
  | acquire b host tunnel streams hb hacquire =>
    obtain ⟨-, -, hheld⟩ := Permits.acquire?_eq_some hacquire
    have hmem : ∀ x, x ∈ streams.held ↔ x = (b, tunnel) ∨ x ∈ s.streams.held := by simp [hheld]
    constructor
    · intro b' t hx
      rcases (hmem _).mp hx with heq | hx
      · cases heq
        exact ⟨host, _, hb, ho.browsers b host tunnel hb⟩
      · exact h.held b' t hx
    · intro b' host' stage hb' hacc
      obtain ⟨t, ht⟩ := Permits.holds_iff.mp (h.accepted b' host' stage hb' hacc)
      exact Permits.holds_iff.mpr ⟨t, (hmem _).mpr (.inr ht)⟩

/-- What holds in every state of a run on a database that the store wrote. -/
theorem permitted_of_run {calls : List (Event Db Call)} (hdb : StoreRun cfg.sha256 calls db)
    (h : AdmissionRun cfg db tr s) : Owned cfg s.gateway ∧ Permitted s := by
  refine h.state_invariant (fun s => Owned cfg s.gateway ∧ Permitted s) ⟨.start hdb, ?_⟩ ?_
  · refine ⟨fun b t hheld => absurd hheld List.not_mem_nil, fun b host stage hb => ?_⟩
    cases hb
  · rintro s a s' ⟨ho, hp⟩ hs
    have hm : AdmissionMoves cfg s a s' := admissionMoves_of_step hs
    refine ⟨?_, hp.step ho hm⟩
    rcases hm.gateway_step with heq | ⟨l, hl⟩
    · rw [heq]
      exact ho
    · exact ho.step hl

/-! ## The bound -/

/-- Connection `b` of installation `i` has an installation permit or is being bridged. -/
def Admission.Occupies (s : Admission) (i : Uuid) (b : Nat) : Prop :=
  (∃ t, (b, t) ∈ s.streams.held ∧ t.id = i) ∨
    ∃ host stream, s.gateway.browsers b = some ⟨host, .bridging stream⟩ ∧ Names s.gateway.db i host

/-- When a connection gets a permit of a tunnel, no connection has one of another tunnel of the same
installation: the streams of earlier generations have ended. -/
def Drained (e : Event Admission AdmissionAction) : Prop :=
  ∀ b host tunnel, e.label = .acquire b → e.src.gateway.browsers b = some ⟨host, .current tunnel⟩ →
    ∀ x ∈ e.src.streams.held, x.2.id = tunnel.id → x.2 = tunnel

theorem Permitted.occupies (h : Permitted s) (ho : Owned cfg s.gateway) (hb : s.Occupies i b) :
    ∃ t, (b, t) ∈ s.streams.held ∧ t.id = i := by
  rcases hb with hheld | ⟨host, stream, hb, hnames⟩
  · exact hheld
  · obtain ⟨t, ht⟩ := Permits.holds_iff.mp (h.accepted b host _ hb rfl)
    obtain ⟨host', stage, hb', hnames'⟩ := h.held b t ht
    rw [hb] at hb'
    cases hb'
    exact ⟨t, ht, hnames'.unique ho.names hnames⟩

theorem streamsOf_settle_le (s : Admission) (b : Nat) (i : Uuid) :
    (s.settle b).streamsOf i ≤ s.streamsOf i := by
  unfold Admission.settle
  split_ifs
  · exact Permits.count_release_le s.streams b _
  · exact le_rfl

theorem streamsOf_step (h : s.streamsOf i ≤ maxInstallationStreams) (hm : AdmissionMoves cfg s a s')
    (hd : Drained ⟨s, a, s'⟩) : s'.streamsOf i ≤ maxInstallationStreams := by
  cases hm with
  | arrives | other => exact h
  | browser => exact (streamsOf_settle_le _ _ i).trans h
  | acquire b host tunnel streams hb hacquire =>
    by_cases hi : tunnel.id = i
    · refine Permits.count_le_of_acquire hacquire (decide_eq_true hi) fun x hx hxi => ?_
      exact hd b host tunnel rfl hb x hx ((of_decide_eq_true hxi).trans hi.symm)
    · have hsame : streams.count (fun t => t.id = i) = s.streamsOf i :=
        Permits.count_eq_of_acquire hacquire (decide_eq_false hi)
      exact hsame.trans_le h

theorem streamsOf_le_of_run (h : AdmissionRun cfg db tr s) (hdrained : ∀ e ∈ tr, Drained e) :
    s.streamsOf i ≤ maxInstallationStreams := by
  induction h with
  | refl => exact Nat.zero_le _
  | snoc _ hs ih =>
    have hbefore := ih fun e he => hdrained e (List.mem_cons_of_mem _ he)
    exact streamsOf_step hbefore (admissionMoves_of_step hs) (hdrained _ List.mem_cons_self)

/-- In every run in which the streams of a tunnel have ended before a later tunnel of its installation
accepts one, an installation never has more than 128 connections that hold a permit or are being
bridged. -/
theorem installation_streams_bounded {calls : List (Event Db Call)}
    (hdb : StoreRun cfg.sha256 calls db) (h : AdmissionRun cfg db tr s)
    (hdrained : ∀ e ∈ tr, Drained e) (i : Uuid) (bs : Finset Nat) (hbs : ∀ b ∈ bs, s.Occupies i b) :
    bs.card ≤ maxInstallationStreams := by
  obtain ⟨ho, hp⟩ := permitted_of_run hdb h
  have hheld : ∀ b ∈ bs, ∃ t, (b, t) ∈ s.streams.held ∧ decide (t.id = i) = true := by
    intro b hb
    obtain ⟨t, ht, hi⟩ := hp.occupies ho (hbs b hb)
    exact ⟨t, ht, decide_eq_true hi⟩
  calc bs.card ≤ s.streamsOf i := Permits.card_le_count hheld
    _ ≤ maxInstallationStreams := streamsOf_le_of_run h hdrained

/-! ## Connections that reach their permit -/

theorem holds_eq_false {ρ : Type} {p : Permits Nat ρ} {n b : Nat} (h : ∀ x ∈ p.held, x.1 < n)
    (hb : n ≤ b) : p.holds b = false := by
  refine Bool.eq_false_iff.mpr fun hholds => ?_
  obtain ⟨r, hr⟩ := Permits.holds_iff.mp hholds
  have hlt : b < n := h _ hr
  omega

/-- Only browser connection `b` has moved. -/
structure Onward (b : Nat) (g g' : Gateway) : Prop where
  db : g'.db = g.db
  tunnels : g'.tunnels = g.tunnels
  posts : g'.posts = g.posts
  browsers : ∀ b', b' ≠ b → g'.browsers b' = g.browsers b'

theorem Onward.trans {g₁ g₂ g₃ : Gateway} (h : Onward b g₁ g₂) (h' : Onward b g₂ g₃) :
    Onward b g₁ g₃ :=
  ⟨h'.db.trans h.db, h'.tunnels.trans h.tunnels, h'.posts.trans h.posts,
    fun b' hb' => (h'.browsers b' hb').trans (h.browsers b' hb')⟩

/-- A section of a connection that does not end it. -/
theorem exists_browser_step {act : BrowserAction} {host : String} {stage : BrowserStage}
    (hstep : browserStep cfg s.gateway b act = some g) (hb : g.browsers b = some ⟨host, stage⟩)
    (hopen : stage ≠ .failed) (hpermit : s.streams.holds b = true ∨ ∀ now, act ≠ .current now) :
    AdmissionStep cfg s (.gateway (.browser b act)) ⟨g, s.slots, s.streams⟩ ∧
      Onward b s.gateway g := by
  have hm : BrowserMoves cfg s.gateway b act g := browserMoves_of_step hstep
  constructor
  · have hsettle : ({ s with gateway := g }).settle b = ⟨g, s.slots, s.streams⟩ := by
      simp [Admission.settle, hb, hopen]
    have hsection : s.browserSection cfg b act =
        (s.gateway.step cfg (.browser b act)).map fun g => { s with gateway := g }.settle b := by
      cases act with
      | current now =>
        rcases hpermit with hholds | hno
        · exact if_pos hholds
        · exact absurd rfl (hno now)
      | _ => rfl
    show s.browserSection cfg b act = _
    rw [hsection, show s.gateway.step cfg (.browser b act) = some g from hstep, Option.map_some, hsettle]
  · obtain ⟨host', stage₀, stage', -, -, hbrowsers⟩ := hm.next
    refine ⟨hm.db, hm.tunnels, hm.posts, fun b' hb' => ?_⟩
    rw [hbrowsers, Function.update_of_ne hb']

/-- A new connection for the host of a tunnel that is current and has a permit left gets as far as
waiting for its stream. -/
theorem exists_admitted {host : String} {t : Tunnel} {now : Time}
    (hhost : validateHostname host = .ok ()) (hnew : s.gateway.browsers b = none)
    (htunnel : s.gateway.tunnels host = some t)
    (hcurrent : tunnelIsCurrent s.gateway.db now t.id cfg.gatewayId t.generation = true)
    (hslot : s.slots.holds b = false) (hslots : s.slots.count (· = ()) < gatewayStreams)
    (hpermit : s.streams.holds b = false) (hpermits : s.streams.count (· = t) < maxInstallationStreams) :
    ∃ tr s', Run (AdmissionStep cfg) s tr s' ∧ Onward b s.gateway s'.gateway ∧
      s'.slots.held = (b, ()) :: s.slots.held ∧ s'.streams.held = (b, t) :: s.streams.held ∧
      ((∀ x ∈ s.streams.held, x.2.id = t.id → x.2 = t) → ∀ e ∈ tr, Drained e) := by
  obtain ⟨slots, hacquire, hslots'⟩ := Permits.exists_acquire hslot hslots
  obtain ⟨streams, hacquire', hstreams'⟩ := Permits.exists_acquire hpermit hpermits
  have hholds : streams.holds b = true := by
    refine Permits.holds_iff.mpr ⟨t, ?_⟩
    rw [hstreams']
    exact List.mem_cons_self
  have hset : ∀ (g : Gateway) stage, (g.setBrowser b host stage).browsers b = some ⟨host, stage⟩ := by
    simp [Gateway.setBrowser]
  -- it arrives
  have h₁ : AdmissionStep cfg s (.gateway (.browserArrives b host))
      ⟨s.gateway.setBrowser b host .lookup, slots, s.streams⟩ := by
    simp [AdmissionStep, Admission.step, Gateway.step, hacquire, hnew, hhost]
  have hon₁ : Onward b s.gateway (s.gateway.setBrowser b host .lookup) :=
    ⟨rfl, rfl, rfl, fun b' hb' => Function.update_of_ne hb' _ _⟩
  have hb₁ := hset s.gateway .lookup
  generalize s.gateway.setBrowser b host .lookup = g₁ at h₁ hon₁ hb₁
  -- it finds the tunnel
  have hlookup : browserStep cfg g₁ b .lookup = some (g₁.setBrowser b host (.current t)) := by
    simp [browserStep, hb₁, hon₁.tunnels, htunnel]
  have hb₂ := hset g₁ (.current t)
  obtain ⟨h₂, hon₂⟩ := exists_browser_step (s := ⟨g₁, slots, s.streams⟩) hlookup hb₂ (by simp) (.inr (by simp))
  generalize g₁.setBrowser b host (.current t) = g₂ at h₂ hon₂ hb₂
  -- it gets its permit
  have h₃ : AdmissionStep cfg ⟨g₂, slots, s.streams⟩ (.acquire b) ⟨g₂, slots, streams⟩ := by
    simp [AdmissionStep, Admission.step, hb₂, hpermit, hacquire']
  -- the lease is checked
  have hdb : g₂.db = s.gateway.db := hon₂.db.trans hon₁.db
  have hcheck : browserStep cfg g₂ b (.current now) =
      some (g₂.setBrowser b host (.insert t (g₂.instant + setupTime))) := by
    simp [browserStep, hb₂, hdb, hcurrent]
  have hb₃ := hset g₂ (.insert t (g₂.instant + setupTime))
  obtain ⟨h₄, hon₃⟩ := exists_browser_step (s := ⟨g₂, slots, streams⟩) hcheck hb₃ (by simp) (.inl hholds)
  generalize g₂.instant + setupTime = deadline at h₄ hon₃ hb₃
  generalize g₂.setBrowser b host (.insert t deadline) = g₃ at h₄ hon₃ hb₃
  -- its ticket is in the table
  have hinsert : browserStep cfg g₃ b (.insert "ticket") =
      some ((g₃.setTicket "ticket" (some ⟨host, t.id, t.generation, deadline, b⟩)).setBrowser b host
        (.opening "ticket")) := by
    simp [browserStep, hb₃]
  have hb₄ := hset (g₃.setTicket "ticket" (some ⟨host, t.id, t.generation, deadline, b⟩))
    (.opening "ticket")
  obtain ⟨h₅, hon₄⟩ := exists_browser_step (s := ⟨g₃, slots, streams⟩) hinsert hb₄ (by simp) (.inr (by simp))
  generalize (g₃.setTicket "ticket" (some ⟨host, t.id, t.generation, deadline, b⟩)).setBrowser b host
    (.opening "ticket") = g₄ at h₅ hon₄ hb₄
  -- and the client is told
  have hopened : browserStep cfg g₄ b (.opened true) = some (g₄.setBrowser b host (.waiting "ticket")) := by
    simp [browserStep, hb₄]
  obtain ⟨h₆, hon₅⟩ := exists_browser_step (s := ⟨g₄, slots, streams⟩) hopened
    (hset g₄ (.waiting "ticket")) (by simp) (.inr (by simp))
  refine ⟨_, _, (((((Run.refl.snoc h₁).snoc h₂).snoc h₃).snoc h₄).snoc h₅).snoc h₆,
    (((hon₁.trans hon₂).trans hon₃).trans hon₄).trans hon₅, hslots', hstreams', ?_⟩
  intro halone e he b' host' tunnel hl hb' x hx hxi
  simp only [List.mem_cons, List.not_mem_nil, or_false] at he
  rcases he with rfl | rfl | rfl | rfl | rfl | rfl <;> cases hl
  rw [hb₂] at hb'
  cases hb'
  exact halone x hx hxi

/-- A request of an installation whose bearer and claim the store accepts registers a tunnel. -/
theorem exists_registered {headers : Headers} {q : TunnelRequest} {r generation : Nat} {now : Time}
    {db' : Db} (hnew : s.gateway.posts r = none) (hq : tunnelRequest? cfg headers = some q)
    (hhost : Store.hostname s.gateway.db q.id = some q.host)
    (hauth : (authenticateBearer cfg.sha256 s.gateway.db now q.id "tunnel" q.token).isSome = true)
    (hclaim : (claimCall cfg now q).exec cfg.sha256 s.gateway.db = .ok (.generation generation, db'))
    (hlatest : generationCanReplace ((s.gateway.tunnels q.host).map (·.generation)) generation = true) :
    ∃ tr s', Run (AdmissionStep cfg) s tr s' ∧ s'.gateway.db = db' ∧
      s'.gateway.tunnels = Function.update s.gateway.tunnels q.host (some ⟨q.id, generation⟩) ∧
      (∀ r', r' ≠ r → s'.gateway.posts r' = s.gateway.posts r') ∧
      s'.gateway.browsers = s.gateway.browsers ∧ s'.slots = s.slots ∧ s'.streams = s.streams ∧
      ∀ e ∈ tr, Drained e := by
  let g₁ := s.gateway.setPost r (.hostname q)
  let g₂ := g₁.setPost r (.authenticate q)
  let g₃ := g₂.setPost r (.claim q)
  let g₄ := { g₃ with db := db' }.setPost r (.register q generation)
  let g₅ := ({ g₄ with lifecycles := (q.host, ⟨q.id, generation⟩) :: g₄.lifecycles }.setTunnel q.host
    (some ⟨q.id, generation⟩)).setPost r (.done .ok)
  have h₁ : AdmissionStep cfg s (.gateway (.postArrives r headers)) ⟨g₁, s.slots, s.streams⟩ := by
    simp [AdmissionStep, Admission.step, Gateway.step, hnew, hq, g₁]
  have h₂ : AdmissionStep cfg ⟨g₁, s.slots, s.streams⟩ (.gateway (.post r .hostname))
      ⟨g₂, s.slots, s.streams⟩ := by
    simp [AdmissionStep, Admission.step, Gateway.step, postStep, Gateway.setPost, hhost, g₁, g₂]
  have h₃ : AdmissionStep cfg ⟨g₂, s.slots, s.streams⟩ (.gateway (.post r (.authenticate now)))
      ⟨g₃, s.slots, s.streams⟩ := by
    simp [AdmissionStep, Admission.step, Gateway.step, postStep, Gateway.setPost, hauth, g₁, g₂, g₃]
  have h₄ : AdmissionStep cfg ⟨g₃, s.slots, s.streams⟩ (.gateway (.post r (.claim now)))
      ⟨g₄, s.slots, s.streams⟩ := by
    simp [AdmissionStep, Admission.step, Gateway.step, postStep, Gateway.setPost, hclaim, g₁, g₂, g₃, g₄]
  have h₅ : AdmissionStep cfg ⟨g₄, s.slots, s.streams⟩ (.gateway (.post r .register))
      ⟨g₅, s.slots, s.streams⟩ := by
    simp [AdmissionStep, Admission.step, Gateway.step, postStep, Gateway.setPost, hlatest, g₁, g₂, g₃,
      g₄, g₅]
  refine ⟨_, ⟨g₅, s.slots, s.streams⟩,
    ((((Run.refl.snoc h₁).snoc h₂).snoc h₃).snoc h₄).snoc h₅, rfl, rfl, ?_, rfl, rfl, rfl, ?_⟩
  · intro r' hr'
    simp [Gateway.setPost, Gateway.setTunnel, Function.update_of_ne hr', g₁, g₂, g₃, g₄, g₅]
  · intro e he b host tunnel hl
    simp only [List.mem_cons, List.not_mem_nil, or_false] at he
    rcases he with rfl | rfl | rfl | rfl | rfl <;> cases hl

/-- `n` connections of installation `i` hold a permit, `m` of them one of the tunnel that is registered
now. -/
structure Crowd (db : Db) (host : String) (t : Tunnel) (n m : Nat) (s : Admission) : Prop where
  db_eq : s.gateway.db = db
  tunnel : s.gateway.tunnels host = some t
  new : ∀ b, n ≤ b → s.gateway.browsers b = none
  slots : ∀ x ∈ s.slots.held, x.1 < n
  slots_length : s.slots.held.length = n
  permits : ∀ x ∈ s.streams.held, x.1 < n
  occupied : ∀ b < n, ∃ t', (b, t') ∈ s.streams.held ∧ t'.id = t.id
  count : s.streams.count (· = t) = m

theorem Crowd.exists_joined {host : String} {t : Tunnel} {n m : Nat} {now : Time} (h : Crowd db host t n m s)
    (hhost : validateHostname host = .ok ())
    (hcurrent : tunnelIsCurrent db now t.id cfg.gatewayId t.generation = true)
    (hn : n < gatewayStreams) (hm : m < maxInstallationStreams) :
    ∃ tr s', Run (AdmissionStep cfg) s tr s' ∧ Crowd db host t (n + 1) (m + 1) s' ∧
      s'.gateway.posts = s.gateway.posts ∧
      ((∀ x ∈ s.streams.held, x.2 = t) → (∀ x ∈ s'.streams.held, x.2 = t) ∧ ∀ e ∈ tr, Drained e) := by
  have hslots : s.slots.count (· = ()) < gatewayStreams := by
    have hle : s.slots.count (· = ()) ≤ s.slots.held.length := List.countP_le_length
    rw [h.slots_length] at hle
    omega
  obtain ⟨tr, s', hrun, ⟨hdb, htunnels, hposts, hbrowsers⟩, hslots', hstreams', hdrained⟩ :=
    exists_admitted hhost (h.new n le_rfl) h.tunnel (h.db_eq ▸ hcurrent)
      (holds_eq_false h.slots le_rfl) hslots (holds_eq_false h.permits le_rfl) (h.count ▸ hm)
  refine ⟨tr, s', hrun, ⟨hdb.trans h.db_eq, htunnels ▸ h.tunnel, ?_, ?_, ?_, ?_, ?_, ?_⟩, hposts, ?_⟩
  · intro b hb
    rw [hbrowsers b (by omega)]
    exact h.new b (by omega)
  · intro x hx
    rw [hslots'] at hx
    rcases List.mem_cons.mp hx with rfl | hx
    · exact Nat.lt_succ_self n
    · exact Nat.lt_succ_of_lt (h.slots x hx)
  · rw [hslots', List.length_cons, h.slots_length]
  · intro x hx
    rw [hstreams'] at hx
    rcases List.mem_cons.mp hx with rfl | hx
    · exact Nat.lt_succ_self n
    · exact Nat.lt_succ_of_lt (h.permits x hx)
  · intro b hb
    rw [hstreams']
    by_cases hbn : b = n
    · exact ⟨t, hbn ▸ List.mem_cons_self, rfl⟩
    · obtain ⟨t', ht', hi⟩ := h.occupied b (by omega)
      exact ⟨t', List.mem_cons_of_mem _ ht', hi⟩
  · rw [Permits.count_of_cons hstreams', h.count, if_pos (decide_eq_true rfl)]
  · intro halone
    refine ⟨fun x hx => ?_, hdrained fun x hx _ => halone x hx⟩
    rw [hstreams'] at hx
    rcases List.mem_cons.mp hx with rfl | hx
    · rfl
    · exact halone x hx

/-- As many connections as the tunnel has permits get one. -/
theorem Crowd.fill {host : String} {t : Tunnel} {now : Time} (h : Crowd db host t 0 0 s)
    (hhost : validateHostname host = .ok ())
    (hcurrent : tunnelIsCurrent db now t.id cfg.gatewayId t.generation = true) (n : Nat)
    (hn : n ≤ maxInstallationStreams) :
    ∃ tr s', Run (AdmissionStep cfg) s tr s' ∧ Crowd db host t n n s' ∧
      s'.gateway.posts = s.gateway.posts ∧ (∀ x ∈ s'.streams.held, x.2 = t) ∧ ∀ e ∈ tr, Drained e := by
  induction n with
  | zero =>
    have hempty : ∀ x ∈ s.streams.held, x.2 = t := fun x hx => absurd (h.permits x hx) (Nat.not_lt_zero _)
    exact ⟨[], s, .refl, h, rfl, hempty, fun _ he => absurd he List.not_mem_nil⟩
  | succ n ih =>
    obtain ⟨tr, s₁, hrun, hcrowd, hposts, halone, hdrained⟩ := ih (by omega)
    have hslots : n < gatewayStreams := by
      have : maxInstallationStreams ≤ gatewayStreams := by decide
      omega
    obtain ⟨tr', s₂, hrun', hcrowd', hposts', hlast⟩ := hcrowd.exists_joined hhost hcurrent hslots (by omega)
    obtain ⟨halone', hdrained'⟩ := hlast halone
    refine ⟨tr' ++ tr, s₂, hrun.trans hrun', hcrowd', hposts'.trans hposts, halone', fun e he => ?_⟩
    rcases List.mem_append.mp he with he | he
    · exact hdrained' e he
    · exact hdrained e he

/-- The installation reconnects: the permits of its earlier tunnels stay with their connections. -/
theorem Crowd.reconnect {headers : Headers} {q : TunnelRequest} {r n m generation : Nat} {t : Tunnel}
    {now : Time} {db' : Db} (h : Crowd db q.host t n m s) (hid : t.id = q.id)
    (hlatest : t.generation < generation) (hnew : s.gateway.posts r = none)
    (hq : tunnelRequest? cfg headers = some q) (hhost : Store.hostname db q.id = some q.host)
    (hauth : (authenticateBearer cfg.sha256 db now q.id "tunnel" q.token).isSome = true)
    (hclaim : (claimCall cfg now q).exec cfg.sha256 db = .ok (.generation generation, db'))
    (hfresh : ∀ x ∈ s.streams.held, x.2 = t) :
    ∃ tr s', Run (AdmissionStep cfg) s tr s' ∧ Crowd db' q.host ⟨q.id, generation⟩ n 0 s' := by
  have hcan : generationCanReplace ((s.gateway.tunnels q.host).map (·.generation)) generation = true := by
    rw [h.tunnel]
    exact decide_eq_true hlatest
  obtain ⟨tr, s', hrun, hdb', htunnels, -, hbrowsers, hslots, hstreams, -⟩ :=
    exists_registered hnew hq (h.db_eq ▸ hhost) (h.db_eq ▸ hauth) (h.db_eq ▸ hclaim) hcan
  refine ⟨tr, s', hrun, hdb', ?_, ?_, ?_, ?_, ?_, ?_, ?_⟩
  · rw [htunnels, Function.update_self]
  · rw [hbrowsers]
    exact h.new
  · rw [hslots]
    exact h.slots
  · rw [hslots]
    exact h.slots_length
  · rw [hstreams]
    exact h.permits
  · rw [hstreams]
    intro b hb
    obtain ⟨t', ht', hi⟩ := h.occupied b hb
    exact ⟨t', ht', hi.trans hid⟩
  · rw [hstreams]
    refine List.countP_eq_zero.mpr fun x hx => ?_
    rw [decide_eq_true_eq, hfresh x hx]
    rintro rfl
    exact absurd hlatest (Nat.lt_irrefl _)

theorem Crowd.occupies {host : String} {t : Tunnel} {n m : Nat} (h : Crowd db host t n m s) :
    ∀ b ∈ Finset.range n, s.Occupies t.id b := fun b hb => .inl (h.occupied b (Finset.mem_range.mp hb))

/-! ## The bound is reached, and passed after a reconnect -/

theorem exec_of_reply {sha256 : Bytes → Bytes32} {call : Call} {reply : Reply}
    (h : (call.exec sha256 db).toOption.map Prod.fst = some reply) :
    call.exec sha256 db = .ok (reply, call.after sha256 db) := by
  obtain ⟨⟨reply', db'⟩, hexec, rfl⟩ := Option.map_eq_some_iff.mp h
  cases hcall : call.exec sha256 db with
  | error e =>
    rw [hcall] at hexec
    cases hexec
  | ok x =>
    rw [hcall] at hexec
    cases hexec
    simp only [Call.after, hcall]

def edgeRequest : TunnelRequest :=
  ⟨7, edgeHost, "0123456789abcdef0123456789abcdef0123456789abcdef"⟩

/-- The database after the `n`-th claim of the installation. -/
def edgeDb : Nat → Db
  | 0 => (runOf (fun _ => 0) issuedCalls).2
  | n + 1 => (claimCall edgeConfig 60 edgeRequest).after (fun _ => 0) (edgeDb n)

theorem edgeRequest_of_headers : tunnelRequest? edgeConfig edgeHeaders = some edgeRequest := by
  decide +kernel

theorem edgeHost_valid : validateHostname edgeHost = .ok () := by decide +kernel

/-- The store accepts both requests, and the tunnel of the claim is current. -/
theorem edgeDb_accepts : ∀ n < 2, Store.hostname (edgeDb n) 7 = some edgeHost ∧
    (authenticateBearer (fun _ => 0) (edgeDb n) 60 7 "tunnel" edgeRequest.token).isSome = true ∧
    ((claimCall edgeConfig 60 edgeRequest).exec (fun _ => 0) (edgeDb n)).toOption.map Prod.fst =
      some (.generation (4 + n)) ∧
    tunnelIsCurrent (edgeDb (n + 1)) 70 7 edgeConfig.gatewayId (4 + n) = true := by
  decide +kernel

theorem exists_first_tunnel :
    ∃ tr s, AdmissionRun edgeConfig (edgeDb 0) tr s ∧ Crowd (edgeDb 1) edgeHost ⟨7, 4⟩ 0 0 s ∧
      s.gateway.posts 1 = none ∧ ∀ e ∈ tr, Drained e := by
  obtain ⟨hhost, hauth, hclaim, -⟩ := edgeDb_accepts 0 (by decide)
  obtain ⟨tr, s, hrun, hdb, htunnels, hposts, hbrowsers, hslots, hstreams, hdrained⟩ :=
    exists_registered (s := .start (edgeDb 0)) (r := 0) rfl edgeRequest_of_headers hhost hauth
      (exec_of_reply hclaim) rfl
  refine ⟨tr, s, hrun, ⟨hdb, ?_, ?_, ?_, ?_, ?_, ?_, ?_⟩, ?_, hdrained⟩
  · rw [htunnels]
    exact Function.update_self ..
  · rw [hbrowsers]
    exact fun b _ => rfl
  · rw [hslots]
    exact fun x hx => absurd hx List.not_mem_nil
  · rw [hslots]
    rfl
  · rw [hstreams]
    exact fun x hx => absurd hx List.not_mem_nil
  · exact fun b hb => absurd hb (Nat.not_lt_zero b)
  · rw [hstreams]
    rfl
  · exact hposts 1 nofun

/-- The tunnel's permits are all taken. -/
theorem exists_full_tunnel :
    ∃ tr s, AdmissionRun edgeConfig (edgeDb 0) tr s ∧ Crowd (edgeDb 1) edgeHost ⟨7, 4⟩ 128 128 s ∧
      s.gateway.posts 1 = none ∧ (∀ x ∈ s.streams.held, x.2 = ⟨7, 4⟩) ∧ ∀ e ∈ tr, Drained e := by
  obtain ⟨tr, s, hrun, hcrowd, hposts, hdrained⟩ := exists_first_tunnel
  obtain ⟨-, -, -, hcurrent⟩ := edgeDb_accepts 0 (by decide)
  obtain ⟨tr', s', hrun', hcrowd', hposts', halone, hdrained'⟩ :=
    hcrowd.fill edgeHost_valid hcurrent 128 le_rfl
  refine ⟨tr' ++ tr, s', hrun.trans hrun', hcrowd', hposts' ▸ hposts, halone, fun e he => ?_⟩
  rcases List.mem_append.mp he with he | he
  · exact hdrained' e he
  · exact hdrained e he

theorem installation_streams_bounded_full :
    ∃ tr s, AdmissionRun edgeConfig (edgeDb 0) tr s ∧ (∀ e ∈ tr, Drained e) ∧
      (∀ b ∈ Finset.range 128, s.Occupies 7 b) ∧ (Finset.range 128).card ≤ maxInstallationStreams := by
  obtain ⟨tr, s, hrun, hcrowd, -, -, hdrained⟩ := exists_full_tunnel
  have hdb : StoreRun edgeConfig.sha256 (runOf (fun _ => 0) issuedCalls).1 (edgeDb 0) :=
    storeRun_runOf (fun _ => 0) issuedCalls
  have hoccupies : ∀ b ∈ Finset.range 128, s.Occupies 7 b := hcrowd.occupies
  exact ⟨tr, s, hrun, hdrained, hoccupies,
    installation_streams_bounded hdb hrun hdrained 7 (Finset.range 128) hoccupies⟩

/-- The installation reconnects while the 128 connections of its first tunnel go on; the new tunnel has
permits of its own, so there is a 129th connection. -/
theorem installation_streams_exceeded :
    ∃ tr s, AdmissionRun edgeConfig (edgeDb 0) tr s ∧ (∀ b ∈ Finset.range 129, s.Occupies 7 b) ∧
      maxInstallationStreams < (Finset.range 129).card := by
  obtain ⟨tr, s, hrun, hcrowd, hposts, halone, -⟩ := exists_full_tunnel
  obtain ⟨hhost, hauth, hclaim, hcurrent⟩ := edgeDb_accepts 1 (by decide)
  obtain ⟨tr₁, s₁, hrun₁, hcrowd₁⟩ :=
    hcrowd.reconnect (q := edgeRequest) rfl (by decide) hposts edgeRequest_of_headers hhost hauth
      (exec_of_reply hclaim) halone
  obtain ⟨tr₂, s₂, hrun₂, hcrowd₂, -, -⟩ :=
    hcrowd₁.exists_joined edgeHost_valid hcurrent (by decide +kernel) (by decide)
  refine ⟨_, s₂, (hrun.trans hrun₁).trans hrun₂, hcrowd₂.occupies, ?_⟩
  rw [Finset.card_range]
  decide

end BloomRelay.Routing
