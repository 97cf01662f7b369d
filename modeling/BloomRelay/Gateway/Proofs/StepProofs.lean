import BloomRelay.Gateway.Machine
import BloomRelay.Store.Proofs.LifecycleProofs

/-!
# What an action of the gateway does

One inversion lemma for each kind of task. `Moves` then says for any action what became of the database,
the tickets, the `CONNECT`s and the browser connections; the invariants are proved from it.
-/

namespace BloomRelay.Routing

open Protocol Store

variable {cfg : Config} {g g' : Gateway} {c b : Nat}

/-! ## The database -/

/-- The database after at most one store call: one of another process, or a claim or renewal. -/
def DbStep (cfg : Config) (l : Action) (db db' : Db) : Prop :=
  db' = db ∨ ∃ call : Call, db' = call.after cfg.sha256 db ∧
    (l = .store call ∨ (∃ now q, call = claimCall cfg now q) ∨ ∃ now tunnel, call = renewCall cfg now tunnel)

theorem after_of_exec {sha256 : Bytes → Bytes32} {call : Call} {db db' : Db} {reply : Reply}
    (h : call.exec sha256 db = .ok (reply, db')) : call.after sha256 db = db' := by
  simp only [Call.after, h]

/-! ## `POST /v1/tunnel` -/

/-- The sections of a `POST /v1/tunnel`. -/
inductive PostMoves (cfg : Config) (g : Gateway) (r : Nat) : PostAction → Gateway → Prop where
  | hostname (q : TunnelRequest) (hpc : g.posts r = some (.hostname q))
      (h : Store.hostname g.db q.id = some q.host) :
      PostMoves cfg g r .hostname (g.setPost r (.authenticate q))
  | authenticate (q : TunnelRequest) (now : Time) (hpc : g.posts r = some (.authenticate q))
      (h : (authenticateBearer cfg.sha256 g.db now q.id "tunnel" q.token).isSome = true) :
      PostMoves cfg g r (.authenticate now) (g.setPost r (.claim q))
  /-- The request is answered with a refusal. -/
  | refused (a : PostAction) (status : Status) (hok : status ≠ .ok) (hopen : status ≠ .closed) :
      PostMoves cfg g r a (g.setPost r (.done status))
  | claim (q : TunnelRequest) (now : Time) (generation : Nat) (db : Db)
      (hpc : g.posts r = some (.claim q))
      (h : (claimCall cfg now q).exec cfg.sha256 g.db = .ok (.generation generation, db)) :
      PostMoves cfg g r (.claim now) ({ g with db := db }.setPost r (.register q generation))
  /-- The store's error ends the connection. -/
  | claimFailed (q : TunnelRequest) (now : Time) (hpc : g.posts r = some (.claim q))
      (h : ∀ generation db,
        (claimCall cfg now q).exec cfg.sha256 g.db ≠ .ok (.generation generation, db)) :
      PostMoves cfg g r (.claim now) (g.setPost r (.done .closed))
  | register (q : TunnelRequest) (generation : Nat) (hpc : g.posts r = some (.register q generation)) :
      PostMoves cfg g r .register
        (({ g with lifecycles := (q.host, ⟨q.id, generation⟩) :: g.lifecycles }.setTunnel q.host
          (some ⟨q.id, generation⟩)).setPost r (.done .ok))
  | close : PostMoves cfg g r .close (g.setPost r (.done .closed))

theorem postMoves_of_step {r : Nat} {a : PostAction} (h : postStep cfg g r a = some g') :
    PostMoves cfg g r a g' := by
  unfold postStep at h
  split at h
  · rename_i q hpc
    cases h
    split
    · exact .hostname q hpc ‹_›
    · exact .refused _ .unauthorized nofun nofun
  · rename_i q now hpc
    cases h
    split
    · exact .authenticate q now hpc ‹_›
    · exact .refused _ .unauthorized nofun nofun
  · cases h
    exact .refused _ .serviceUnavailable nofun nofun
  · rename_i q now hpc
    split at h
    · rename_i generation db hexec
      cases h
      exact .claim q now generation db hpc hexec
    · rename_i hexec
      cases h
      exact .claimFailed q now hpc hexec
  · rename_i q generation hpc
    split at h
    · cases h
      exact .register q generation hpc
    · cases h
      exact .refused _ .conflict nofun nofun
  · cases h
    exact .close
  · cases h

/-- A request that may claim after an action could claim before it, or its bearer has just been
checked. -/
def PostsStep (cfg : Config) (l : Action) (g g' : Gateway) : Prop :=
  ∀ r q, g'.posts r = some (.claim q) → g.posts r = some (.claim q) ∨
    ∃ now, l = .post r (.authenticate now) ∧ g'.db = g.db ∧
      (authenticateBearer cfg.sha256 g.db now q.id "tunnel" q.token).isSome = true

theorem postsStep_of_eq {l : Action} (h : g'.posts = g.posts) : PostsStep cfg l g g' :=
  fun _ _ hpc => .inl (h ▸ hpc)

/-- A request that moves on to anything but its claim. -/
theorem postsStep_of_update {l : Action} {r : Nat} {pc : PostPc}
    (h : g'.posts = Function.update g.posts r (some pc)) (hpc : ∀ q, pc ≠ .claim q) :
    PostsStep cfg l g g' := by
  intro r' q hpc'
  rw [h] at hpc'
  by_cases hr : r' = r
  · rw [hr, Function.update_self, Option.some.injEq] at hpc'
    exact absurd hpc' (hpc q)
  · rw [Function.update_of_ne hr] at hpc'
    exact .inl hpc'

theorem postsStep_of_authenticate {r : Nat} {q : TunnelRequest} {now : Time}
    (h : (authenticateBearer cfg.sha256 g.db now q.id "tunnel" q.token).isSome = true) :
    PostsStep cfg (.post r (.authenticate now)) g (g.setPost r (.claim q)) := by
  intro r' q' hpc'
  simp only [Gateway.setPost] at hpc'
  by_cases hr : r' = r
  · subst hr
    rw [Function.update_self, Option.some.injEq, PostPc.claim.injEq] at hpc'
    exact .inr ⟨now, rfl, rfl, hpc' ▸ h⟩
  · rw [Function.update_of_ne hr] at hpc'
    exact .inl hpc'

/-- The section writes a lease or leaves the database alone; it touches no ticket. -/
theorem postStep_frame {r : Nat} {a : PostAction} (h : postStep cfg g r a = some g') :
    DbStep cfg (.post r a) g.db g'.db ∧ PostsStep cfg (.post r a) g g' ∧ g'.connects = g.connects ∧
      g'.tickets = g.tickets ∧ g'.browsers = g.browsers ∧ g'.delivered = g.delivered := by
  cases postMoves_of_step h with
  | authenticate q now hpc hauth =>
    exact ⟨.inl rfl, postsStep_of_authenticate hauth, rfl, rfl, rfl, rfl⟩
  | claim q now generation db hpc hexec =>
    exact ⟨.inr ⟨_, (after_of_exec hexec).symm, .inr (.inl ⟨now, q, rfl⟩)⟩,
      postsStep_of_update rfl fun q => nofun, rfl, rfl, rfl, rfl⟩
  | hostname | refused | claimFailed | register | close =>
    exact ⟨.inl rfl, postsStep_of_update rfl fun q => nofun, rfl, rfl, rfl, rfl⟩

/-! ## `CONNECT` -/

/-- The `CONNECT` has not looked at the tickets yet. -/
def ConnectPc.authenticating : ConnectPc → Bool
  | .hostname _ | .authenticate _ | .registered _ | .current _ => true
  | _ => false

/-- The ticket a `CONNECT` holds. -/
def ConnectPc.held : ConnectPc → Option Ticket
  | .owner _ t | .recheck _ t | .handover _ t => some t
  | _ => none

/-- The sections of a `CONNECT` that take no ticket: what it is at, what it does, where it goes. -/
inductive ConnectNext (cfg : Config) (g : Gateway) : ConnectPc → ConnectAction → ConnectPc → Prop
    where
  | hostname (a : Attach) (h : Store.hostname g.db a.id = some a.host) :
      ConnectNext cfg g (.hostname a) .hostname (.authenticate a)
  | authenticate (a : Attach) (now : Time)
      (h : (authenticateBearer cfg.sha256 g.db now a.id "tunnel" a.token).isSome = true) :
      ConnectNext cfg g (.authenticate a) (.authenticate now) (.registered a)
  | registered (a : Attach) (h : g.registered a.host a.id a.generation = true) :
      ConnectNext cfg g (.registered a) .registered (.current a)
  | current (a : Attach) (now : Time)
      (h : tunnelIsCurrent g.db now a.id cfg.gatewayId a.generation = true) :
      ConnectNext cfg g (.current a) (.current now) (.ticket a)
  | owner (a : Attach) (t : Ticket) (h : g.registered a.host a.id a.generation = true) :
      ConnectNext cfg g (.owner a t) .owner (.recheck a t)
  | recheck (a : Attach) (t : Ticket) (now : Time)
      (h : tunnelIsCurrent g.db now a.id cfg.gatewayId a.generation = true) :
      ConnectNext cfg g (.recheck a t) (.recheck now) (.handover a t)
  | handover (a : Attach) (t : Ticket) : ConnectNext cfg g (.handover a t) .handover (.done .ok)
  | unauthorized (pc : ConnectPc) (action : ConnectAction) (h : pc.authenticating = true) :
      ConnectNext cfg g pc action (.done .unauthorized)
  | gone (pc : ConnectPc) (action : ConnectAction) (h : action ≠ .handover) :
      ConnectNext cfg g pc action (.done .gone)
  | close (pc : ConnectPc) : ConnectNext cfg g pc .close (.done .closed)

/-- A `CONNECT` takes a ticket, or moves on without one. -/
theorem connectStep_cases {a : ConnectAction} (h : connectStep cfg g c a = some g') :
    (∃ pc pc', g.connects c = some pc ∧ ConnectNext cfg g pc a pc' ∧ g'.db = g.db ∧
      g'.connects = Function.update g.connects c (some pc') ∧ g'.tickets = g.tickets ∧
      g'.browsers = g.browsers ∧ g'.posts = g.posts ∧ ∀ b, g'.delivered b ≠ g.delivered b →
        a = .handover ∧ ∃ x t, pc = .handover x t ∧ t.browser = b) ∨
    ∃ (x : Attach) (key : String) (t : Ticket), a = .ticket ∧ g.connects c = some (.ticket x) ∧
      x.ticket = some key ∧ g.tickets key = some t ∧
      ticketClaimMatches t x.id x.host x.generation x.authority g.instant = true ∧
      g' = (g.setTicket key none).setConnect c (.owner x t) := by
  unfold connectStep at h
  split at h
  · rename_i x hpc
    cases h
    refine .inl ⟨_, _, hpc, ?_, rfl, rfl, rfl, rfl, rfl, fun _ hne => absurd rfl hne⟩
    split
    · exact .hostname x ‹_›
    · exact .unauthorized _ _ rfl
  · rename_i x now hpc
    cases h
    refine .inl ⟨_, _, hpc, ?_, rfl, rfl, rfl, rfl, rfl, fun _ hne => absurd rfl hne⟩
    split
    · exact .authenticate x now ‹_›
    · exact .unauthorized _ _ rfl
  · rename_i x hpc
    cases h
    refine .inl ⟨_, _, hpc, ?_, rfl, rfl, rfl, rfl, rfl, fun _ hne => absurd rfl hne⟩
    split
    · exact .registered x ‹_›
    · exact .unauthorized _ _ rfl
  · rename_i x now hpc
    cases h
    refine .inl ⟨_, _, hpc, ?_, rfl, rfl, rfl, rfl, rfl, fun _ hne => absurd rfl hne⟩
    split
    · exact .current x now ‹_›
    · exact .unauthorized _ _ rfl
  · rename_i x hpc
    split at h
    · cases h
      exact .inl ⟨_, _, hpc, .gone _ _ nofun, rfl, rfl, rfl, rfl, rfl, fun _ hne => absurd rfl hne⟩
    · rename_i key hkey
      split at h
      · cases h
        exact .inl ⟨_, _, hpc, .gone _ _ nofun, rfl, rfl, rfl, rfl, rfl, fun _ hne => absurd rfl hne⟩
      · rename_i t ht
        split at h
        · rename_i hmatch
          cases h
          exact .inr ⟨x, key, t, rfl, hpc, hkey, ht, hmatch, rfl⟩
        · cases h
          exact .inl ⟨_, _, hpc, .gone _ _ nofun, rfl, rfl, rfl, rfl, rfl, fun _ hne => absurd rfl hne⟩
  · rename_i x t hpc
    cases h
    refine .inl ⟨_, _, hpc, ?_, rfl, rfl, rfl, rfl, rfl, fun _ hne => absurd rfl hne⟩
    split
    · exact .owner x t ‹_›
    · exact .gone _ _ nofun
  · rename_i x t now hpc
    cases h
    refine .inl ⟨_, _, hpc, ?_, rfl, rfl, rfl, rfl, rfl, fun _ hne => absurd rfl hne⟩
    split
    · exact .recheck x t now ‹_›
    · exact .gone _ _ nofun
  · rename_i x t hpc
    split at h
    · cases h
      refine .inl ⟨_, _, hpc, .handover x t, rfl, rfl, rfl, rfl, rfl, fun b hne => ⟨rfl, x, t, rfl, ?_⟩⟩
      by_contra hb
      exact hne (Function.update_of_ne (Ne.symm hb) _ _)
    · cases h
      exact .inl ⟨_, _, hpc, .handover x t, rfl, rfl, rfl, rfl, rfl, fun _ hne => absurd rfl hne⟩
  · rename_i pc hpc
    cases h
    exact .inl ⟨pc, _, hpc, .close pc, rfl, rfl, rfl, rfl, rfl, fun _ hne => absurd rfl hne⟩
  · cases h

/-! ## Browser connections -/

/-- The browser connection has not put its ticket into the table yet. -/
def BrowserStage.early : BrowserStage → Bool
  | .lookup | .current _ | .insert _ _ => true
  | _ => false

/-- A browser connection puts its ticket into the table, or moves on without adding one. -/
theorem browserStep_cases {a : BrowserAction} (h : browserStep cfg g b a = some g') :
    (∃ host stage stage', g.browsers b = some ⟨host, stage⟩ ∧
      (stage'.early = true → stage.early = true) ∧ g'.db = g.db ∧ g'.connects = g.connects ∧
      (∀ key t, g'.tickets key = some t → g.tickets key = some t) ∧
      g'.browsers = Function.update g.browsers b (some ⟨host, stage'⟩) ∧
      g'.posts = g.posts ∧ g'.delivered = g.delivered) ∨
    ∃ (host : String) (tunnel : Tunnel) (deadline : Nat) (key : String),
      g.browsers b = some ⟨host, .insert tunnel deadline⟩ ∧
      g' = (g.setTicket key (some ⟨host, tunnel.id, tunnel.generation, deadline, b⟩)).setBrowser b host
        (.opening key) := by
  unfold browserStep at h
  split at h
  · rename_i host hb
    split at h
    · cases h
      exact .inl ⟨host, _, .failed, hb, nofun, rfl, rfl, fun _ _ ht => ht, rfl, rfl, rfl⟩
    · cases h
      exact .inl ⟨host, _, _, hb, fun _ => rfl, rfl, rfl, fun _ _ ht => ht, rfl, rfl, rfl⟩
  · rename_i host tunnel now hb
    cases h
    exact .inl ⟨host, _, _, hb, fun _ => rfl, rfl, rfl, fun _ _ ht => ht, rfl, rfl, rfl⟩
  · rename_i host tunnel deadline key hb
    cases h
    exact .inr ⟨host, tunnel, deadline, key, hb, rfl⟩
  · rename_i host key sent hb
    cases h
    refine .inl ⟨host, _, _, hb, ?_, rfl, rfl, fun _ _ ht => ht, rfl, rfl, rfl⟩
    cases sent <;> exact nofun
  · rename_i host key hb
    obtain ⟨stream, -, rfl⟩ := Option.map_eq_some_iff.1 h
    exact .inl ⟨host, _, .closing key (some stream), hb, nofun, rfl, rfl, fun _ _ ht => ht, rfl, rfl, rfl⟩
  · rename_i host key hb
    split at h
    · cases h
      exact .inl ⟨host, _, .closing key none, hb, nofun, rfl, rfl, fun _ _ ht => ht, rfl, rfl, rfl⟩
    · cases h
  · rename_i host key stream hb
    cases h
    refine .inl ⟨host, _, _, hb, ?_, rfl, rfl, ?_, rfl, rfl, rfl⟩
    · cases stream <;> exact nofun
    · intro key' t ht
      by_cases hkey : key' = key
      · subst hkey
        simp [Gateway.setTicket, Gateway.setBrowser] at ht
      · simpa [Gateway.setTicket, Gateway.setBrowser, Function.update_of_ne hkey] using ht
  · rename_i host stage hb
    cases h
    exact .inl ⟨host, stage, .failed, hb, nofun, rfl, rfl, fun _ _ ht => ht, rfl, rfl, rfl⟩
  · cases h

/-! ## Every action -/

/-- What an action does to the database, the tickets, the `CONNECT`s and the browser connections. -/
inductive Moves (cfg : Config) (g g' : Gateway) : Action → Prop where
  /-- None of the tables of tasks and tickets changes. -/
  | quiet (l : Action) (hl : ∀ c a, l ≠ .connect c a) (hdb : DbStep cfg l g.db g'.db)
      (hposts : PostsStep cfg l g g') (hconnects : g'.connects = g.connects) (htickets : g'.tickets = g.tickets)
      (hbrowsers : g'.browsers = g.browsers) (hdelivered : g'.delivered = g.delivered) :
      Moves cfg g g' l
  | connectArrives (c : Nat) (headers : Headers) (authority : Option String) (pc : ConnectPc)
      (hnew : g.connects c = none) (hpc : (∃ a, pc = .hostname a) ∨ pc = .done .unauthorized)
      (hg : g' = g.setConnect c pc) : Moves cfg g g' (.connectArrives c headers authority)
  /-- A `CONNECT` moves on and takes no ticket. -/
  | connect (c : Nat) (a : ConnectAction) (pc pc' : ConnectPc) (hpc : g.connects c = some pc)
      (hnext : ConnectNext cfg g pc a pc') (hdb : g'.db = g.db)
      (hconnects : g'.connects = Function.update g.connects c (some pc'))
      (htickets : g'.tickets = g.tickets) (hbrowsers : g'.browsers = g.browsers)
      (hposts : g'.posts = g.posts)
      (hdelivered : ∀ b, g'.delivered b ≠ g.delivered b →
        a = .handover ∧ ∃ x t, pc = .handover x t ∧ t.browser = b) : Moves cfg g g' (.connect c a)
  /-- A `CONNECT` takes the ticket it names. -/
  | take (c : Nat) (a : Attach) (key : String) (t : Ticket)
      (hpc : g.connects c = some (.ticket a)) (hkey : a.ticket = some key)
      (hticket : g.tickets key = some t)
      (hmatches : ticketClaimMatches t a.id a.host a.generation a.authority g.instant = true)
      (hg : g' = (g.setTicket key none).setConnect c (.owner a t)) :
      Moves cfg g g' (.connect c .ticket)
  | browserArrives (b : Nat) (host : String) (hnew : g.browsers b = none)
      (hg : g' = g.setBrowser b host .lookup) : Moves cfg g g' (.browserArrives b host)
  /-- A browser connection moves on and adds no ticket. -/
  | browser (b : Nat) (a : BrowserAction) (host : String) (stage stage' : BrowserStage)
      (hb : g.browsers b = some ⟨host, stage⟩) (hearly : stage'.early = true → stage.early = true)
      (hdb : g'.db = g.db) (hconnects : g'.connects = g.connects)
      (htickets : ∀ key t, g'.tickets key = some t → g.tickets key = some t)
      (hbrowsers : g'.browsers = Function.update g.browsers b (some ⟨host, stage'⟩))
      (hposts : g'.posts = g.posts) (hdelivered : g'.delivered = g.delivered) :
      Moves cfg g g' (.browser b a)
  /-- A browser connection adds its ticket. -/
  | insert (b : Nat) (a : BrowserAction) (host : String) (tunnel : Tunnel) (deadline : Nat)
      (key : String) (hb : g.browsers b = some ⟨host, .insert tunnel deadline⟩)
      (hg : g' = (g.setTicket key (some ⟨host, tunnel.id, tunnel.generation, deadline, b⟩)).setBrowser b
        host (.opening key)) : Moves cfg g g' (.browser b a)

theorem moves_of_step {l : Action} (h : GatewayStep cfg g l g') : Moves cfg g g' l := by
  unfold GatewayStep at h
  cases l with
  | tick elapsed =>
    cases h
    exact .quiet _ nofun (.inl rfl) (postsStep_of_eq rfl) rfl rfl rfl rfl
  | store call =>
    cases h
    exact .quiet _ nofun (.inr ⟨call, rfl, .inl rfl⟩) (postsStep_of_eq rfl) rfl rfl rfl rfl
  | postArrives r headers =>
    simp only [Gateway.step] at h
    split at h
    · split at h
      · cases h
        exact .quiet _ nofun (.inl rfl) (postsStep_of_update rfl fun q => nofun) rfl rfl rfl rfl
      · cases h
        exact .quiet _ nofun (.inl rfl) (postsStep_of_update rfl fun q => nofun) rfl rfl rfl rfl
    · cases h
  | post r a =>
    obtain ⟨hdb, hposts, hconnects, htickets, hbrowsers, hdelivered⟩ := postStep_frame h
    exact .quiet _ nofun hdb hposts hconnects htickets hbrowsers hdelivered
  | connectArrives c headers authority =>
    simp only [Gateway.step] at h
    split at h
    · rename_i hnew
      split at h
      · cases h
        exact .connectArrives c headers authority _ hnew (.inl ⟨_, rfl⟩) rfl
      · cases h
        exact .connectArrives c headers authority _ hnew (.inr rfl) rfl
    · cases h
  | connect c a =>
    rcases connectStep_cases h with
      ⟨pc, pc', hpc, hnext, hdb, hconnects, htickets, hbrowsers, hposts, hdelivered⟩ | ⟨x, key, t, rfl, hpc, hkey, ht, hmatches, hg⟩
    · exact .connect c a pc pc' hpc hnext hdb hconnects htickets hbrowsers hposts hdelivered
    · exact .take c x key t hpc hkey ht hmatches hg
  | browserArrives b host =>
    simp only [Gateway.step] at h
    split at h
    · rename_i hnew
      cases h
      exact .browserArrives b host hnew.1 rfl
    · cases h
  | browser b a =>
    rcases browserStep_cases h with
      ⟨host, stage, stage', hb, hearly, hdb, hconnects, htickets, hbrowsers, hposts, hdelivered⟩ | ⟨host, tunnel, deadline, key, hb, hg⟩
    · exact .browser b a host stage stage' hb hearly hdb hconnects htickets hbrowsers hposts hdelivered
    · exact .insert b a host tunnel deadline key hb hg
  | heartbeat host tunnel now =>
    simp only [Gateway.step] at h
    split at h
    · cases h
      exact .quiet _ nofun (.inr ⟨_, rfl, .inr (.inr ⟨now, tunnel, rfl⟩)⟩) (postsStep_of_eq rfl) rfl rfl rfl rfl
    · cases h
  | exit host tunnel =>
    simp only [Gateway.step] at h
    split at h
    · cases h
      split
      · exact .quiet _ nofun (.inl rfl) (postsStep_of_eq rfl) rfl rfl rfl rfl
      · exact .quiet _ nofun (.inl rfl) (postsStep_of_eq rfl) rfl rfl rfl rfl
    · cases h

/-! ## One `CONNECT` -/

theorem setConnect_connects (g : Gateway) (c c' : Nat) (pc : ConnectPc) :
    (g.setConnect c pc).connects c' = if c' = c then some pc else g.connects c' := by
  by_cases hc : c' = c
  · simp [Gateway.setConnect, hc]
  · simp [Gateway.setConnect, hc]

/-- How `CONNECT` `c` came to where it is after an action. -/
inductive Came (cfg : Config) (g g' : Gateway) (l : Action) (c : Nat) : ConnectPc → Prop where
  | stayed {pc : ConnectPc} (hpc : g.connects c = some pc) : Came cfg g g' l c pc
  | arrived {pc : ConnectPc} (hnew : g.connects c = none)
      (hpc : (∃ a, pc = .hostname a) ∨ pc = .done .unauthorized) : Came cfg g g' l c pc
  | moved {pc pc' : ConnectPc} {a : ConnectAction} (hl : l = .connect c a)
      (hpc : g.connects c = some pc) (hnext : ConnectNext cfg g pc a pc') : Came cfg g g' l c pc'
  | took {a : Attach} {key : String} {t : Ticket} (hl : l = .connect c .ticket)
      (hpc : g.connects c = some (.ticket a)) (hkey : a.ticket = some key)
      (hticket : g.tickets key = some t)
      (hmatches : ticketClaimMatches t a.id a.host a.generation a.authority g.instant = true)
      (htickets : g'.tickets = Function.update g.tickets key none) : Came cfg g g' l c (.owner a t)

theorem Moves.came {l : Action} {pc : ConnectPc} (h : Moves cfg g g' l)
    (hpc : g'.connects c = some pc) : Came cfg g g' l c pc := by
  cases h with
  | quiet _ hl hdb hposts hconnects htickets hbrowsers hdelivered => exact .stayed (hconnects ▸ hpc)
  | connectArrives c' headers authority pc' hnew hpc' hg =>
    rw [hg, setConnect_connects] at hpc
    by_cases hc : c = c'
    · rw [if_pos hc, Option.some.injEq] at hpc
      exact .arrived (hc ▸ hnew) (hpc ▸ hpc')
    · rw [if_neg hc] at hpc
      exact .stayed hpc
  | connect c' a pc₀ pc' hpc₀ hnext hdb hconnects htickets hbrowsers hposts hdelivered =>
    by_cases hc : c = c'
    · subst hc
      rw [hconnects, Function.update_self, Option.some.injEq] at hpc
      exact .moved rfl hpc₀ (hpc ▸ hnext)
    · rw [hconnects, Function.update_of_ne hc] at hpc
      exact .stayed hpc
  | take c' a key t hpc₀ hkey hticket hmatches hg =>
    rw [hg, setConnect_connects] at hpc
    by_cases hc : c = c'
    · subst hc
      rw [if_pos rfl, Option.some.injEq] at hpc
      subst hpc
      exact .took rfl hpc₀ hkey hticket hmatches (by rw [hg]; rfl)
    · rw [if_neg hc] at hpc
      exact .stayed hpc
  | browserArrives b host hnew hg =>
    subst hg
    exact .stayed hpc
  | browser b a host stage stage' hb hearly hdb hconnects htickets hbrowsers hposts hdelivered =>
    exact .stayed (hconnects ▸ hpc)
  | insert b a host tunnel deadline key hb hg =>
    subst hg
    exact .stayed hpc

/-- A `CONNECT` that has arrived stays. -/
theorem Moves.stays {l : Action} {pc : ConnectPc} (h : Moves cfg g g' l)
    (hpc : g.connects c = some pc) : ∃ pc', g'.connects c = some pc' := by
  have hupdate : ∀ c' pc', g'.connects = Function.update g.connects c' (some pc') →
      ∃ pc', g'.connects c = some pc' := by
    intro c' pc' hconnects
    rw [hconnects]
    by_cases hc : c = c'
    · exact ⟨pc', by rw [hc, Function.update_self]⟩
    · exact ⟨pc, by rw [Function.update_of_ne hc, hpc]⟩
  cases h with
  | quiet _ hl hdb hposts hconnects htickets hbrowsers hdelivered => exact ⟨pc, hconnects ▸ hpc⟩
  | connectArrives c' headers authority pc' hnew hpc' hg => exact hupdate c' pc' (by rw [hg]; rfl)
  | connect c' a pc₀ pc' hpc₀ hnext hdb hconnects htickets hbrowsers hposts hdelivered =>
    exact hupdate c' pc' hconnects
  | take c' a key t hpc₀ hkey hticket hmatches hg => exact hupdate c' (.owner a t) (by rw [hg]; rfl)
  | browserArrives b host hnew hg => exact ⟨pc, hg ▸ hpc⟩
  | browser b a host stage stage' hb hearly hdb hconnects htickets hbrowsers hposts hdelivered =>
    exact ⟨pc, hconnects ▸ hpc⟩
  | insert b a host tunnel deadline key hb hg => exact ⟨pc, hg ▸ hpc⟩

/-- A request that may claim after an action. -/
theorem Moves.posts {l : Action} (h : Moves cfg g g' l) : PostsStep cfg l g g' := by
  cases h with
  | quiet _ hl hdb hposts hconnects htickets hbrowsers hdelivered => exact hposts
  | connectArrives c' headers authority pc' hnew hpc' hg => exact postsStep_of_eq (by rw [hg]; rfl)
  | connect c' a pc₀ pc' hpc₀ hnext hdb hconnects htickets hbrowsers hposts hdelivered =>
    exact postsStep_of_eq hposts
  | take c' a key t hpc₀ hkey hticket hmatches hg => exact postsStep_of_eq (by rw [hg]; rfl)
  | browserArrives b host hnew hg => exact postsStep_of_eq (by rw [hg]; rfl)
  | browser b a host stage stage' hb hearly hdb hconnects htickets hbrowsers hposts hdelivered =>
    exact postsStep_of_eq hposts
  | insert b a host tunnel deadline key hb hg => exact postsStep_of_eq (by rw [hg]; rfl)

/-- The database after an action. -/
theorem Moves.dbStep {l : Action} (h : Moves cfg g g' l) : DbStep cfg l g.db g'.db := by
  cases h with
  | quiet _ hl hdb hposts hconnects htickets hbrowsers hdelivered => exact hdb
  | connectArrives c' headers authority pc' hnew hpc' hg => exact .inl (by rw [hg]; rfl)
  | connect c' a pc₀ pc' hpc₀ hnext hdb hconnects htickets hbrowsers hposts hdelivered => exact .inl hdb
  | take c' a key t hpc₀ hkey hticket hmatches hg => exact .inl (by rw [hg]; rfl)
  | browserArrives b host hnew hg => exact .inl (by rw [hg]; rfl)
  | browser b a host stage stage' hb hearly hdb hconnects htickets hbrowsers hposts hdelivered =>
    exact .inl hdb
  | insert b a host tunnel deadline key hb hg => exact .inl (by rw [hg]; rfl)

end BloomRelay.Routing
