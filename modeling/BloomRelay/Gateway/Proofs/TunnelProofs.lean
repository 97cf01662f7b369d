import BloomRelay.Gateway.Proofs.StepProofs
import BloomRelay.Store.Proofs.RetirementProofs

/-!
# The table of tunnels

How an action changes the table of tunnels and the requests that write it. A tunnel is registered only
for the host that the store gave its installation, so no installation displaces the tunnel of another.
-/

namespace BloomRelay.Routing

open Protocol Store

variable {cfg : Config} {g g' : Gateway} {l : Action} {r : Nat}

/-! ## `POST /v1/tunnel` -/

/-- How request `r` came to where it is after an action. -/
inductive PostCame (cfg : Config) (g g' : Gateway) (l : Action) (r : Nat) : PostPc → Prop where
  | stayed {pc : PostPc} (hpc : g.posts r = some pc) : PostCame cfg g g' l r pc
  | arrived {q : TunnelRequest} (hnew : g.posts r = none) : PostCame cfg g g' l r (.hostname q)
  | named {q : TunnelRequest} (hpc : g.posts r = some (.hostname q))
      (h : Store.hostname g.db q.id = some q.host) (hdb : g'.db = g.db) :
      PostCame cfg g g' l r (.authenticate q)
  | checked {q : TunnelRequest} (hpc : g.posts r = some (.authenticate q)) :
      PostCame cfg g g' l r (.claim q)
  | claimed {q : TunnelRequest} {generation : Nat} (hpc : g.posts r = some (.claim q)) :
      PostCame cfg g g' l r (.register q generation)
  | done (status : Status) : PostCame cfg g g' l r (.done status)

theorem setPost_posts (g : Gateway) (r r' : Nat) (pc : PostPc) :
    (g.setPost r pc).posts r' = if r' = r then some pc else g.posts r' := by
  by_cases hr : r' = r
  · simp [Gateway.setPost, hr]
  · simp [Gateway.setPost, hr]

/-- A request moved on, the others are where they were. -/
theorem postCame_of_setPost {g₁ : Gateway} {r' : Nat} {pc pc' : PostPc} (hposts : g₁.posts = g.posts)
    (hcame : PostCame cfg g (g₁.setPost r' pc') l r' pc')
    (hpc : (g₁.setPost r' pc').posts r = some pc) : PostCame cfg g (g₁.setPost r' pc') l r pc := by
  rw [setPost_posts] at hpc
  by_cases hr : r = r'
  · rw [if_pos hr, Option.some.injEq] at hpc
    rw [hr, ← hpc]
    exact hcame
  · rw [if_neg hr, hposts] at hpc
    exact .stayed hpc

theorem PostMoves.came {r' : Nat} {a : PostAction} {pc : PostPc} (h : PostMoves cfg g r' a g')
    (hpc : g'.posts r = some pc) : PostCame cfg g g' l r pc := by
  cases h with
  | hostname q hpc₀ hhost => exact postCame_of_setPost rfl (.named hpc₀ hhost rfl) hpc
  | authenticate q now hpc₀ hauth => exact postCame_of_setPost rfl (.checked hpc₀) hpc
  | refused a status => exact postCame_of_setPost rfl (.done status) hpc
  | claim q now generation db hpc₀ hexec => exact postCame_of_setPost rfl (.claimed hpc₀) hpc
  | claimFailed q now hpc₀ => exact postCame_of_setPost rfl (.done .closed) hpc
  | register q generation hpc₀ => exact postCame_of_setPost rfl (.done .ok) hpc
  | close => exact postCame_of_setPost rfl (.done .closed) hpc

/-! ## The other tasks -/

theorem connectStep_tunnels {c : Nat} {a : ConnectAction} (h : connectStep cfg g c a = some g') :
    g'.tunnels = g.tunnels ∧ g'.lifecycles = g.lifecycles := by
  unfold connectStep at h
  repeat' split at h
  all_goals
    cases h
    try exact ⟨rfl, rfl⟩

/-- What a browser connection for `host` does next, and where it is then. -/
inductive BrowserNext (cfg : Config) (g : Gateway) (host : String) :
    BrowserStage → BrowserAction → BrowserStage → Prop where
  | found (tunnel : Tunnel) (h : g.tunnels host = some tunnel) :
      BrowserNext cfg g host .lookup .lookup (.current tunnel)
  | current (tunnel : Tunnel) (now : Time) (deadline : Nat)
      (h : tunnelIsCurrent g.db now tunnel.id cfg.gatewayId tunnel.generation = true) :
      BrowserNext cfg g host (.current tunnel) (.current now) (.insert tunnel deadline)
  | insert (tunnel : Tunnel) (deadline : Nat) (key : String) :
      BrowserNext cfg g host (.insert tunnel deadline) (.insert key) (.opening key)
  | opened (key : String) : BrowserNext cfg g host (.opening key) (.opened true) (.waiting key)
  | closing (stage : BrowserStage) (a : BrowserAction) (key : String) (stream : Option Nat)
      (h : stage.listening = true) : BrowserNext cfg g host stage a (.closing key stream)
  | bridging (key : String) (stream : Nat) :
      BrowserNext cfg g host (.closing key (some stream)) .remove (.bridging stream)
  | failed (stage : BrowserStage) (a : BrowserAction) : BrowserNext cfg g host stage a .failed

/-- The section moves its connection only; it writes neither the database nor the tunnels. -/
structure BrowserMoves (cfg : Config) (g : Gateway) (b : Nat) (a : BrowserAction) (g' : Gateway) :
    Prop where
  next : ∃ host stage stage', g.browsers b = some ⟨host, stage⟩ ∧
    BrowserNext cfg g host stage a stage' ∧
    g'.browsers = Function.update g.browsers b (some ⟨host, stage'⟩)
  tunnels : g'.tunnels = g.tunnels
  lifecycles : g'.lifecycles = g.lifecycles
  posts : g'.posts = g.posts
  db : g'.db = g.db

theorem browserMoves_of_step {b : Nat} {a : BrowserAction} (h : browserStep cfg g b a = some g') :
    BrowserMoves cfg g b a g' := by
  unfold browserStep at h
  split at h <;> rename_i hb
  · split at h <;> rename_i htunnel
    · cases h
      exact ⟨⟨_, _, _, hb, .failed _ _, rfl⟩, rfl, rfl, rfl, rfl⟩
    · cases h
      exact ⟨⟨_, _, _, hb, .found _ htunnel, rfl⟩, rfl, rfl, rfl, rfl⟩
  · cases h
    refine ⟨⟨_, _, _, hb, ?_, rfl⟩, rfl, rfl, rfl, rfl⟩
    split
    · exact .current _ _ _ ‹_›
    · exact .failed _ _
  · cases h
    exact ⟨⟨_, _, _, hb, .insert _ _ _, rfl⟩, rfl, rfl, rfl, rfl⟩
  · cases h
    refine ⟨⟨_, _, _, hb, ?_, rfl⟩, rfl, rfl, rfl, rfl⟩
    split
    · rename_i hsent
      rw [hsent]
      exact .opened _
    · exact .closing _ _ _ _ rfl
  · obtain ⟨stream, -, rfl⟩ := Option.map_eq_some_iff.mp h
    exact ⟨⟨_, _, _, hb, .closing _ _ _ _ rfl, rfl⟩, rfl, rfl, rfl, rfl⟩
  · split_ifs at h
    cases h
    exact ⟨⟨_, _, _, hb, .closing _ _ _ _ rfl, rfl⟩, rfl, rfl, rfl, rfl⟩
  · cases h
    refine ⟨⟨_, _, _, hb, ?_, rfl⟩, rfl, rfl, rfl, rfl⟩
    split
    · exact .bridging _ _
    · exact .failed _ _
  · cases h
    exact ⟨⟨_, _, _, hb, .failed _ _, rfl⟩, rfl, rfl, rfl, rfl⟩
  · cases h

/-! ## Every action -/

/-- What an action does to the tunnels. -/
inductive TunnelsStep (g : Gateway) : Action → Gateway → Prop where
  | same {l : Action} {g' : Gateway} (h : g'.tunnels = g.tunnels) : TunnelsStep g l g'
  | register {r : Nat} {q : TunnelRequest} {generation : Nat} {g' : Gateway}
      (hpc : g.posts r = some (.register q generation))
      (h : g'.tunnels = Function.update g.tunnels q.host (some ⟨q.id, generation⟩)) :
      TunnelsStep g (.post r .register) g'
  /-- The lifecycle of the host's tunnel ended. -/
  | exit {host : String} {tunnel : Tunnel} {g' : Gateway} (htunnel : g.tunnels host = some tunnel)
      (h : g'.tunnels = Function.update g.tunnels host none) : TunnelsStep g (.exit host tunnel) g'

theorem PostMoves.tunnels {a : PostAction} (h : PostMoves cfg g r a g') :
    TunnelsStep g (.post r a) g' := by
  cases h with
  | register q generation hpc => exact .register hpc rfl
  | _ => exact .same rfl

theorem registered_iff {host : String} {tunnel : Tunnel} :
    g.registered host tunnel.id tunnel.generation = true ↔ g.tunnels host = some tunnel := by
  unfold Gateway.registered
  cases hhost : g.tunnels host with
  | none => simp
  | some t =>
    cases t
    cases tunnel
    simp

theorem tunnelsStep_of_step (h : GatewayStep cfg g l g') : TunnelsStep g l g' := by
  unfold GatewayStep at h
  cases l with
  | tick | store =>
    cases h
    exact .same rfl
  | postArrives | connectArrives =>
    simp only [Gateway.step] at h
    split_ifs at h
    split at h <;> cases h <;> exact .same rfl
  | post r a => exact (postMoves_of_step h).tunnels
  | connect c a => exact .same (connectStep_tunnels h).1
  | browserArrives | heartbeat =>
    simp only [Gateway.step] at h
    split_ifs at h
    cases h
    exact .same rfl
  | browser b a => exact .same (browserMoves_of_step h).tunnels
  | exit host tunnel =>
    simp only [Gateway.step] at h
    split_ifs at h with hmem hreg
    · cases h
      exact .exit (registered_iff.mp hreg) rfl
    · cases h
      exact .same rfl

theorem connectStep_posts {c : Nat} {a : ConnectAction} (h : connectStep cfg g c a = some g') :
    g'.posts = g.posts := by
  rcases connectStep_cases h with
    ⟨pc, pc', hpc, hnext, hdb, hconnects, htickets, hbrowsers, hposts, hdelivered⟩ | ⟨x, key, t, -, -, -, -, -, hg⟩
  · exact hposts
  · rw [hg]
    rfl

theorem postCame_of_step {pc : PostPc} (h : GatewayStep cfg g l g') (hpc : g'.posts r = some pc) :
    PostCame cfg g g' l r pc := by
  unfold GatewayStep at h
  cases l with
  | tick | store =>
    cases h
    exact .stayed hpc
  | postArrives r' headers =>
    simp only [Gateway.step] at h
    split_ifs at h with hnew
    split at h
    · cases h
      exact postCame_of_setPost rfl (.arrived hnew) hpc
    · cases h
      exact postCame_of_setPost rfl (.done .unauthorized) hpc
  | post r' a => exact (postMoves_of_step h).came hpc
  | connectArrives =>
    simp only [Gateway.step] at h
    split_ifs at h
    split at h <;> cases h <;> exact .stayed hpc
  | connect c a => exact .stayed (connectStep_posts h ▸ hpc)
  | browserArrives | heartbeat =>
    simp only [Gateway.step] at h
    split_ifs at h
    cases h
    exact .stayed hpc
  | browser b a => exact .stayed ((browserMoves_of_step h).posts ▸ hpc)
  | exit host tunnel =>
    simp only [Gateway.step] at h
    split_ifs at h with hmem hreg
    · cases h
      exact .stayed hpc
    · cases h
      exact .stayed hpc

/-- How browser connection `b` came to where it is after an action. -/
inductive BrowserCame (cfg : Config) (g : Gateway) (l : Action) (b : Nat) (host : String) :
    BrowserStage → Prop where
  | stayed {stage : BrowserStage} (hb : g.browsers b = some ⟨host, stage⟩) :
      BrowserCame cfg g l b host stage
  | arrived (hnew : g.browsers b = none) : BrowserCame cfg g l b host .lookup
  | moved {stage stage' : BrowserStage} {a : BrowserAction} (hl : l = .browser b a)
      (hb : g.browsers b = some ⟨host, stage⟩) (hnext : BrowserNext cfg g host stage a stage') :
      BrowserCame cfg g l b host stage'

/-- Only browser connections move browser connections. -/
theorem browsers_eq_of_step (h : GatewayStep cfg g l g')
    (harrives : ∀ b host, l ≠ .browserArrives b host) (hbrowser : ∀ b a, l ≠ .browser b a) :
    g'.browsers = g.browsers := by
  cases moves_of_step h with
  | quiet _ _ _ _ _ _ hbrowsers => exact hbrowsers
  | connectArrives c headers authority pc hnew hpc hg =>
    rw [hg]
    rfl
  | connect c a pc pc' hpc hnext hdb hconnects htickets hbrowsers => exact hbrowsers
  | take c a key t hpc hkey hticket hmatches hg =>
    rw [hg]
    rfl
  | browserArrives b host => exact absurd rfl (harrives b host)
  | browser b a => exact absurd rfl (hbrowser b a)
  | insert b a => exact absurd rfl (hbrowser b a)

theorem browserCame_of_step {b : Nat} {host : String} {stage : BrowserStage}
    (h : GatewayStep cfg g l g') (hb : g'.browsers b = some ⟨host, stage⟩) :
    BrowserCame cfg g l b host stage := by
  cases l with
  | browserArrives b' host' =>
    simp only [GatewayStep, Gateway.step] at h
    split_ifs at h with hnew
    cases h
    by_cases hbb : b = b'
    · subst hbb
      simp only [Gateway.setBrowser, Function.update_self, Option.some.injEq] at hb
      cases hb
      exact .arrived hnew.1
    · simp only [Gateway.setBrowser, Function.update_of_ne hbb] at hb
      exact .stayed hb
  | browser b' a =>
    obtain ⟨host', stage₀, stage', hb₀, hnext, hbrowsers⟩ := (browserMoves_of_step h).next
    rw [hbrowsers] at hb
    by_cases hbb : b = b'
    · subst hbb
      rw [Function.update_self, Option.some.injEq] at hb
      cases hb
      exact .moved rfl hb₀ hnext
    · rw [Function.update_of_ne hbb] at hb
      exact .stayed hb
  | _ => exact .stayed (browsers_eq_of_step h (by simp) (by simp) ▸ hb)

/-! ## Who owns a host -/

/-- The store gave the host to the installation. -/
def Names (db : Db) (i : Uuid) (host : String) : Prop :=
  ∃ row, db.installations.find? i = some row ∧ row.hostname = host

theorem Names.after {sha256 : Bytes → Bytes32} {db : Db} {i : Uuid} {host : String}
    (h : Names db i host) (call : Call) : Names (call.after sha256 db) i host := by
  obtain ⟨row, hrow, hhost⟩ := h
  have hlife : LifeStep i (db.view i) (call.change sha256 db i) ((call.after sha256 db).view i) :=
    life_step call db i
  obtain ⟨row', hrow', hsame, -⟩ := hlife.named hrow
  exact ⟨row', hrow', hsame.trans hhost⟩

theorem Names.dbStep {db db' : Db} {i : Uuid} {host : String} (h : Names db i host)
    (hs : DbStep cfg l db db') : Names db' i host := by
  rcases hs with rfl | ⟨call, rfl, -⟩
  · exact h
  · exact h.after call

theorem names_of_hostname {db : Db} {i : Uuid} {host : String} (h : Store.hostname db i = some host) :
    Names db i host := by
  unfold Store.hostname at h
  obtain ⟨row, hrow, hhost⟩ := Option.map_eq_some_iff.mp h
  exact ⟨row, (Option.filter_eq_some_iff.mp hrow).1, hhost⟩

/-- A host is of one installation. -/
theorem Names.unique {db : Db} (hn : Named db) {i j : Uuid} {host : String} (hi : Names db i host)
    (hj : Names db j host) : i = j := by
  obtain ⟨row, hrow, hhost⟩ := hi
  obtain ⟨row', hrow', hhost'⟩ := hj
  obtain ⟨hmem, hkey⟩ := (Table.find?_eq_some_iff _).mp hrow
  obtain ⟨hmem', hkey'⟩ := (Table.find?_eq_some_iff _).mp hrow'
  have heq : row = row' := hn.owner hmem' hmem (hhost.trans hhost'.symm)
  exact hkey.symm.trans (heq ▸ hkey')

/-- The request of a `POST /v1/tunnel` whose host was looked up. -/
def PostPc.named? : PostPc → Option TunnelRequest
  | .authenticate q | .claim q | .register q _ => some q
  | _ => none

/-- Every host the gateway works with is the host of the installation it is used for. -/
structure Owned (cfg : Config) (g : Gateway) : Prop where
  store : ∃ calls, StoreRun cfg.sha256 calls g.db
  posts : ∀ r pc q, g.posts r = some pc → pc.named? = some q → Names g.db q.id q.host
  tunnels : ∀ host t, g.tunnels host = some t → Names g.db t.id host
  browsers : ∀ b host t, g.browsers b = some ⟨host, .current t⟩ → Names g.db t.id host

theorem DbStep.store {db db' : Db} (h : ∃ calls, StoreRun cfg.sha256 calls db)
    (hs : DbStep cfg l db db') : ∃ calls, StoreRun cfg.sha256 calls db' := by
  rcases hs with rfl | ⟨call, rfl, -⟩
  · exact h
  · obtain ⟨calls, hrun⟩ := h
    exact ⟨_, hrun.snoc rfl⟩

theorem Owned.names (h : Owned cfg g) : Named g.db := by
  obtain ⟨calls, hrun⟩ := h.store
  exact .run hrun

theorem Owned.step (h : Owned cfg g) (hs : GatewayStep cfg g l g') : Owned cfg g' := by
  have hdb : DbStep cfg l g.db g'.db := (moves_of_step hs).dbStep
  refine ⟨hdb.store h.store, ?_, ?_, ?_⟩
  · intro r pc q hpc hq
    cases postCame_of_step hs hpc with
    | stayed hpc₀ => exact (h.posts r pc q hpc₀ hq).dbStep hdb
    | arrived | done => cases hq
    | named hpc₀ hhost hsame =>
      cases hq
      rw [hsame]
      exact names_of_hostname hhost
    | checked hpc₀ =>
      cases hq
      exact (h.posts r _ q hpc₀ rfl).dbStep hdb
    | claimed hpc₀ =>
      cases hq
      exact (h.posts r _ q hpc₀ rfl).dbStep hdb
  · intro host t ht
    cases tunnelsStep_of_step hs with
    | same htunnels => exact (h.tunnels host t (htunnels ▸ ht)).dbStep hdb
    | @register r q generation _ hpc htunnels =>
      rw [htunnels] at ht
      by_cases hhost : host = q.host
      · subst hhost
        rw [Function.update_self, Option.some.injEq] at ht
        subst ht
        exact (h.posts r _ q hpc rfl).dbStep hdb
      · rw [Function.update_of_ne hhost] at ht
        exact (h.tunnels host t ht).dbStep hdb
    | @exit host' tunnel _ _ htunnels =>
      rw [htunnels] at ht
      by_cases hhost : host = host'
      · rw [hhost, Function.update_self] at ht
        cases ht
      · rw [Function.update_of_ne hhost] at ht
        exact (h.tunnels host t ht).dbStep hdb
  · intro b host t hb
    cases browserCame_of_step hs hb with
    | stayed hb₀ => exact (h.browsers b host t hb₀).dbStep hdb
    | moved _ _ hnext =>
      cases hnext with
      | found _ htunnel => exact (h.tunnels host t htunnel).dbStep hdb

theorem Owned.start {db : Db} {calls : List (Event Db Call)} (h : StoreRun cfg.sha256 calls db) :
    Owned cfg (Gateway.start db) := by
  refine ⟨⟨calls, h⟩, ?_, ?_, ?_⟩
  · intro r pc q hpc
    cases hpc
  · intro host t ht
    cases ht
  · intro b host t hb
    cases hb

/-- A request displaces the tunnel of its own installation only. -/
theorem Owned.displaced (h : Owned cfg g) {q : TunnelRequest} {generation : Nat} {t : Tunnel}
    (hpc : g.posts r = some (.register q generation)) (ht : g.tunnels q.host = some t) : t.id = q.id :=
  (h.tunnels _ _ ht).unique h.names (h.posts r _ q hpc rfl)

end BloomRelay.Routing
