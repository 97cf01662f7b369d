import BloomRelay.Gateway.Proofs.StepProofs
import BloomRelay.Lib.Exclusive

/-!
# Tickets are handed out once

A ticket is in the table, or a `CONNECT` holds it, or it is gone. The owner of a ticket is the browser
connection that waits for it, and `holder` is exclusive in every state of every run.
-/

namespace BloomRelay.Routing

open Protocol Store

/-- A step of the gateway in a run. -/
abbrev GatewayEvent := Event Gateway Action

/-- The ticket at a key of the table, or with a `CONNECT`. -/
def holder (g : Gateway) : String ⊕ Nat → Option Ticket :=
  Sum.elim g.tickets fun c => (g.connects c).bind ConnectPc.held

/-- Browser connection `b` has not put its ticket into the table yet. -/
def Gateway.early (g : Gateway) (b : Nat) : Bool := (g.browsers b).all fun x => x.stage.early

/-- The step sends a stream to browser connection `b`. -/
def HandsTo (e : GatewayEvent) (b : Nat) : Prop :=
  ∃ c a t, e.label = .connect c .handover ∧ e.src.connects c = some (.handover a t) ∧ t.browser = b

/-- The step takes the ticket of browser connection `b` out of the table. -/
def TakesFrom (e : GatewayEvent) (b : Nat) : Prop :=
  ∃ c a t, e.label = .connect c .ticket ∧ e.dst.connects c = some (.owner a t) ∧ t.browser = b

variable {cfg : Config} {g g' : Gateway} {l : Action} {tr : List GatewayEvent} {b : Nat}

/-! ## How tickets move -/

/-- Tickets are dropped, one moves to a `CONNECT`, or one is added. -/
inductive Flow (g g' : Gateway) : Prop where
  | dropped (hsub : ∀ x t, holder g' x = some t → holder g x = some t)
      (hearly : ∀ b, g'.early b = true → g.early b = true)
  | taken (key : String) (c : Nat) (t : Ticket) (hkey : holder g (.inl key) = some t)
      (hholder : holder g' =
        Function.update (Function.update (holder g) (.inl key) none) (.inr c) (some t))
      (hearly : g'.early = g.early)
  | added (key : String) (t : Ticket) (hnew : g.early t.browser = true)
      (hholder : holder g' = Function.update (holder g) (.inl key) (some t))
      (hold : g'.early t.browser = false)
      (hearly : ∀ b, g'.early b = true → g.early b = true)

theorem holder_setConnect (g : Gateway) (c : Nat) (pc : ConnectPc) :
    holder (g.setConnect c pc) = Function.update (holder g) (.inr c) pc.held := by
  unfold holder Gateway.setConnect
  rw [← Sum.elim_update_right]
  congr 1
  funext c'
  by_cases hc : c' = c
  · subst hc
    simp
  · simp [Function.update_of_ne hc]

theorem holder_setTicket (g : Gateway) (key : String) (t : Option Ticket) :
    holder (g.setTicket key t) = Function.update (holder g) (.inl key) t :=
  Sum.elim_update_left _ _ key t

theorem holder_congr (hconnects : g'.connects = g.connects) (htickets : g'.tickets = g.tickets) :
    holder g' = holder g := by
  simp only [holder, hconnects, htickets]

theorem holder_sub (hconnects : g'.connects = g.connects)
    (htickets : ∀ key t, g'.tickets key = some t → g.tickets key = some t) :
    ∀ x t, holder g' x = some t → holder g x = some t := by
  intro x t hx
  cases x with
  | inl key => exact htickets key t hx
  | inr c => simpa [holder, hconnects] using hx

/-- A `CONNECT` that takes no ticket keeps the one it holds or drops it. -/
theorem ConnectNext.held {pc pc' : ConnectPc} {a : ConnectAction} (h : ConnectNext cfg g pc a pc') :
    pc'.held = pc.held ∨ pc'.held = none := by
  cases h with
  | owner | recheck => exact .inl rfl
  | _ => exact .inr rfl

theorem early_congr (h : g'.browsers = g.browsers) : g'.early = g.early := by
  funext b
  simp only [Gateway.early, h]

theorem early_of_browsers {host : String} {stage : BrowserStage}
    (h : g'.browsers = Function.update g.browsers b (some ⟨host, stage⟩)) (b' : Nat) :
    g'.early b' = if b' = b then stage.early else g.early b' := by
  unfold Gateway.early
  rw [h]
  by_cases hb : b' = b
  · subst hb
    simp
  · simp [hb]

theorem flow_of_moves (h : Moves cfg g g' l) : Flow g g' := by
  cases h with
  | quiet _ hl hdb hposts hconnects htickets hbrowsers hdelivered =>
    refine .dropped ?_ ?_
    · intro x t hx
      rwa [holder_congr hconnects htickets] at hx
    · intro b hb
      rwa [early_congr hbrowsers] at hb
  | connectArrives c headers authority pc hnew hpc hg =>
    have hearly : g'.early = g.early := early_congr (by rw [hg]; rfl)
    have hheld : pc.held = none := by rcases hpc with ⟨a, rfl⟩ | rfl <;> rfl
    refine .dropped ?_ fun b hb => by rwa [hearly] at hb
    rw [hg, holder_setConnect, hheld]
    exact update_none_sub
  | connect c a pc pc' hpc hnext hdb hconnects htickets hbrowsers hposts hdelivered =>
    refine .dropped ?_ fun b hb => by rwa [early_congr hbrowsers] at hb
    have hholder : holder g' = Function.update (holder g) (.inr c) pc'.held := by
      rw [← holder_setConnect]
      exact holder_congr hconnects htickets
    rw [hholder]
    rcases hnext.held with heq | hnone
    · have hself : holder g (.inr c) = pc'.held := by simp [holder, hpc, heq]
      rw [← hself, Function.update_eq_self]
      exact fun _ _ hx => hx
    · rw [hnone]
      exact update_none_sub
  | take c a key t hpc hkey hticket hmatches hg =>
    refine .taken key c t hticket ?_ (early_congr (by rw [hg]; rfl))
    rw [hg, holder_setConnect, holder_setTicket]
    rfl
  | browserArrives b host hnew hg =>
    have hbrowsers : g'.browsers = Function.update g.browsers b (some ⟨host, .lookup⟩) := by
      rw [hg]
      rfl
    refine .dropped (by rw [hg]; exact fun _ _ hx => hx) ?_
    intro b' hb'
    rw [early_of_browsers hbrowsers] at hb'
    by_cases hb : b' = b
    · simp [hb, Gateway.early, hnew]
    · rwa [if_neg hb] at hb'
  | browser b a host stage stage' hb hearly hdb hconnects htickets hbrowsers hposts hdelivered =>
    refine .dropped (holder_sub hconnects htickets) ?_
    intro b' hb'
    rw [early_of_browsers hbrowsers] at hb'
    by_cases heq : b' = b
    · rw [if_pos heq] at hb'
      simpa [heq, Gateway.early, hb] using hearly hb'
    · rwa [if_neg heq] at hb'
  | insert b a host tunnel deadline key hb hg =>
    have hbrowsers : g'.browsers = Function.update g.browsers b (some ⟨host, .opening key⟩) := by
      rw [hg]
      rfl
    refine .added key ⟨host, tunnel.id, tunnel.generation, deadline, b⟩ ?_ ?_ ?_ ?_
    · simp [Gateway.early, hb, BrowserStage.early]
    · rw [hg]
      exact holder_setTicket g key _
    · rw [early_of_browsers hbrowsers, if_pos rfl]
      rfl
    · intro b' hb'
      rw [early_of_browsers hbrowsers] at hb'
      by_cases heq : b' = b
      · simp [heq, BrowserStage.early] at hb'
      · rwa [if_neg heq] at hb'

/-! ## The invariant -/

structure TicketInv (tr : List GatewayEvent) (g : Gateway) : Prop where
  exclusive : Exclusive Ticket.browser (holder g)
  /-- A browser connection that has not added its ticket has none anywhere. -/
  early : ∀ b, g.early b = true → Absent Ticket.browser (holder g) b
  /-- After the handover there is no ticket left that could cause a second one. -/
  handed : ∀ e ∈ tr, ∀ b, HandsTo e b → g.early b = false ∧ Absent Ticket.browser (holder g) b
  taken : ∀ e ∈ tr, ∀ b, TakesFrom e b → g.early b = false ∧ Absent Ticket.browser g.tickets b
  handed_once : tr.Pairwise fun e e' => ∀ b, HandsTo e b → ¬ HandsTo e' b
  taken_once : tr.Pairwise fun e e' => ∀ b, TakesFrom e b → ¬ TakesFrom e' b

/-- A browser connection whose ticket is somewhere is past adding it. -/
theorem TicketInv.not_early (h : TicketInv tr g) {x : String ⊕ Nat} {t : Ticket}
    (hx : holder g x = some t) : g.early t.browser = false := by
  cases hearly : g.early t.browser with
  | false => rfl
  | true => exact absurd rfl (h.early _ hearly x t hx)

theorem Flow.exclusive (hf : Flow g g') (h : TicketInv tr g) :
    Exclusive Ticket.browser (holder g') := by
  cases hf with
  | dropped hsub hearly => exact h.exclusive.mono hsub
  | taken key c t hkey hholder hearly =>
    rw [hholder]
    exact h.exclusive.move hkey
  | added key t hnew hholder hold hearly =>
    rw [hholder]
    exact h.exclusive.insert (h.early _ hnew)

theorem Flow.early (hf : Flow g g') (h : TicketInv tr g) (hb : g'.early b = true) :
    Absent Ticket.browser (holder g') b := by
  cases hf with
  | dropped hsub hearly => exact (h.early b (hearly b hb)).mono hsub
  | taken key c t hkey hholder hearly =>
    rw [hearly] at hb
    rw [hholder]
    exact (h.early b hb).move hkey
  | added key t hnew hholder hold hearly =>
    rw [hholder]
    refine (h.early b (hearly b hb)).insert ?_
    rintro rfl
    rw [hold] at hb
    exact Bool.noConfusion hb

/-- A browser connection past adding its ticket stays past it. -/
theorem Flow.late (hf : Flow g g') (hb : g.early b = false) : g'.early b = false := by
  rw [← Bool.not_eq_true] at hb ⊢
  cases hf with
  | dropped hsub hearly => exact fun h => hb (hearly b h)
  | taken key c t hkey hholder hearly => rwa [hearly]
  | added key t hnew hholder hold hearly => exact fun h => hb (hearly b h)

/-- Such a connection without a ticket never gets one again. -/
theorem Flow.absent (hf : Flow g g') (hb : g.early b = false)
    (ha : Absent Ticket.browser (holder g) b) : Absent Ticket.browser (holder g') b := by
  cases hf with
  | dropped hsub hearly => exact ha.mono hsub
  | taken key c t hkey hholder hearly =>
    rw [hholder]
    exact ha.move hkey
  | added key t hnew hholder hold hearly =>
    rw [hholder]
    refine ha.insert ?_
    rintro rfl
    rw [hnew] at hb
    exact Bool.noConfusion hb

theorem tickets_of_holder {held : String ⊕ Nat → Option Ticket} (h : holder g = held) (key : String) :
    g.tickets key = held (.inl key) := by
  rw [← h]
  rfl

theorem Flow.absent_tickets (hf : Flow g g') (hb : g.early b = false)
    (ha : Absent Ticket.browser g.tickets b) : Absent Ticket.browser g'.tickets b := by
  intro key' t' ht'
  cases hf with
  | dropped hsub hearly => exact ha key' t' (hsub (.inl key') t' ht')
  | taken key c t hkey hholder hearly =>
    rw [tickets_of_holder hholder, Function.update_of_ne Sum.inl_ne_inr] at ht'
    have hbefore : holder g (.inl key') = some t' := update_none_sub _ _ ht'
    exact ha key' t' hbefore
  | added key t hnew hholder hold hearly =>
    rw [tickets_of_holder hholder] at ht'
    by_cases hkey : key' = key
    · rw [hkey, Function.update_self, Option.some.injEq] at ht'
      subst ht'
      rintro rfl
      rw [hnew] at hb
      exact Bool.noConfusion hb
    · rw [Function.update_of_ne (fun heq => hkey (Sum.inl.inj heq))] at ht'
      exact ha key' t' ht'

/-- The `CONNECT` that hands its ticket over holds none afterwards. -/
theorem holder_of_handover {c : Nat} {a : Attach} {t : Ticket}
    (h : Moves cfg g g' (.connect c .handover)) (hpc : g.connects c = some (.handover a t)) :
    holder g' = Function.update (holder g) (.inr c) none := by
  cases h with
  | quiet _ hl _ _ _ _ _ _ => exact absurd rfl (hl c .handover)
  | connect _ _ pc pc' hpc' hnext hdb hconnects htickets hbrowsers hposts hdelivered =>
    obtain rfl : pc = .handover a t := Option.some.inj (hpc'.symm.trans hpc)
    have hdone : pc'.held = none := by
      cases hnext with
      | handover => rfl
      | unauthorized _ _ hauth => cases hauth
      | gone _ _ hne => exact absurd rfl hne
    rw [← hdone, ← holder_setConnect]
    exact holder_congr hconnects htickets

/-- The ticket a `CONNECT` takes was in the table, and no other of the same connection is. -/
theorem holder_of_take {c : Nat} {a : Attach} {t : Ticket}
    (h : Moves cfg g g' (.connect c .ticket)) (hpc : g'.connects c = some (.owner a t)) :
    ∃ key, g.tickets key = some t ∧ g'.tickets = Function.update g.tickets key none := by
  cases h with
  | quiet _ hl _ _ _ _ _ _ => exact absurd rfl (hl c .ticket)
  | connect _ _ pc pc' hpc' hnext hdb hconnects htickets hbrowsers hposts hdelivered =>
    rw [hconnects, Function.update_self, Option.some.injEq] at hpc
    subst hpc
    cases hnext
  | take _ a' key t' hpc' hkey hticket hmatches hg =>
    subst hg
    simp only [Gateway.setConnect, Gateway.setTicket, Function.update_self, Option.some.injEq,
      ConnectPc.owner.injEq] at hpc
    exact ⟨key, hpc.2 ▸ hticket, rfl⟩

/-- A step that hands over to `b` is the first to do so, and leaves `b` without a ticket. -/
theorem TicketInv.hands (h : TicketInv tr g) (hm : Moves cfg g g' l) (hh : HandsTo ⟨g, l, g'⟩ b) :
    g.early b = false ∧ Absent Ticket.browser (holder g') b ∧ ∀ e ∈ tr, ¬ HandsTo e b := by
  obtain ⟨c, a, t, rfl, hpc, rfl⟩ := hh
  have hheld : holder g (.inr c) = some t := by
    have hpc' : g.connects c = some (.handover a t) := hpc
    simp [holder, hpc', ConnectPc.held]
  refine ⟨h.not_early hheld, ?_, ?_⟩
  · rw [holder_of_handover hm hpc]
    exact h.exclusive.absent_erase hheld
  · intro e he hbefore
    exact (h.handed e he _ hbefore).2 _ t hheld rfl

/-- A step that takes the ticket of `b` is the first to do so, and leaves none in the table. -/
theorem TicketInv.takes (h : TicketInv tr g) (hm : Moves cfg g g' l) (hh : TakesFrom ⟨g, l, g'⟩ b) :
    g.early b = false ∧ Absent Ticket.browser g'.tickets b ∧ ∀ e ∈ tr, ¬ TakesFrom e b := by
  obtain ⟨c, a, t, rfl, hpc, rfl⟩ := hh
  obtain ⟨key, hkey, htickets⟩ := holder_of_take hm hpc
  have hexclusive : Exclusive Ticket.browser g.tickets := by
    intro x y t u ht hu howner
    exact Sum.inl.inj (h.exclusive (.inl x) (.inl y) t u ht hu howner)
  refine ⟨h.not_early (x := .inl key) hkey, ?_, ?_⟩
  · rw [htickets]
    exact hexclusive.absent_erase hkey
  · intro e he hbefore
    exact (h.taken e he _ hbefore).2 key t hkey rfl

theorem TicketInv.step (h : TicketInv tr g) (hs : GatewayStep cfg g l g') :
    TicketInv (⟨g, l, g'⟩ :: tr) g' := by
  have hm : Moves cfg g g' l := moves_of_step hs
  have hf : Flow g g' := flow_of_moves hm
  refine ⟨hf.exclusive h, fun b hb => hf.early h hb, ?_, ?_, ?_, ?_⟩
  · intro e he b hb
    rcases List.mem_cons.1 he with rfl | he
    · obtain ⟨hlate, habsent, -⟩ := h.hands hm hb
      exact ⟨hf.late hlate, habsent⟩
    · obtain ⟨hlate, habsent⟩ := h.handed e he b hb
      exact ⟨hf.late hlate, hf.absent hlate habsent⟩
  · intro e he b hb
    rcases List.mem_cons.1 he with rfl | he
    · obtain ⟨hlate, habsent, -⟩ := h.takes hm hb
      exact ⟨hf.late hlate, habsent⟩
    · obtain ⟨hlate, habsent⟩ := h.taken e he b hb
      exact ⟨hf.late hlate, hf.absent_tickets hlate habsent⟩
  · exact List.pairwise_cons.2 ⟨fun e he b hb => (h.hands hm hb).2.2 e he, h.handed_once⟩
  · exact List.pairwise_cons.2 ⟨fun e he b hb => (h.takes hm hb).2.2 e he, h.taken_once⟩

theorem TicketInv.start (db : Db) : TicketInv [] (Gateway.start db) := by
  have hempty : ∀ x, holder (Gateway.start db) x = none := by
    intro x
    cases x <;> rfl
  have habsent : ∀ b, Absent Ticket.browser (holder (Gateway.start db)) b := by
    intro b x t hx
    rw [hempty x] at hx
    cases hx
  refine ⟨?_, fun b _ => habsent b, fun _ he => absurd he List.not_mem_nil,
    fun _ he => absurd he List.not_mem_nil, .nil, .nil⟩
  intro x y t u hx
  rw [hempty x] at hx
  cases hx

/-- In every run of a gateway. -/
theorem ticketInv_of_run {db : Db} (h : Run (GatewayStep cfg) (Gateway.start db) tr g) :
    TicketInv tr g :=
  h.invariant TicketInv (.start db) fun _ _ _ _ _ hinv hs => hinv.step hs

end BloomRelay.Routing
