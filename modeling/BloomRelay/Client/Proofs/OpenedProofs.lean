import BloomRelay.Client.Proofs.TunnelProofs
import BloomRelay.Protocol.Proofs.TextProofs

/-!
# The streams a tunnel client opens

The control stream reaches the client as bytes in frames of any sizes. The streams the client opens are
nevertheless some of those that the gateway asked for, each once and in the gateway's order.
-/

namespace BloomRelay.Client

open Protocol Checked

variable {codec : EventCodec} {client : TunnelClient} {s s' : Session} {action : ClientAction}
  {tr : List (Event Session ClientAction)}

/-! ## The streams that are opened -/

/-- The token was read from the credential file in the run. -/
def HasRead (tr : List (Event Session ClientAction)) (credential : String) : Prop :=
  ∃ e ∈ tr, ∃ file, e.label = .readCredential file ∧ readCredential file = .ok credential

theorem HasRead.cons {credential : String} (h : HasRead tr credential) (e : Event Session ClientAction) :
    HasRead (e :: tr) credential := by
  obtain ⟨e', he', hread⟩ := h
  exact ⟨e', List.mem_cons_of_mem _ he', hread⟩

/-- The streams of a run are some of those that the events of the received lines ask for, each once
and in their order. -/
def Selected (codec : EventCodec) (client : TunnelClient) (tr : List (Event Session ClientAction)) :
    Prop :=
  opened client tr = [] ∨ ∃ credential handled lines, HasRead tr credential ∧
    lines <+: (Lines.split newline (received tr)).1 ∧ ControlDecoder.Decodes codec lines handled ∧
      (opened client tr).Sublist (handled.filterMap (client.wanted credential))

/-- What a run has received and opened when it is in a phase. -/
inductive Opening (codec : EventCodec) (client : TunnelClient)
    (tr : List (Event Session ClientAction)) : Phase → Prop where
  | starting (hreceived : received tr = []) (hopened : opened client tr = []) :
      Opening codec client tr .starting
  | settingUp {credential stage} (hread : HasRead tr credential) (hreceived : received tr = [])
      (hopened : opened client tr = []) : Opening codec client tr (.settingUp credential stage)
  | serving {credential decoder queue handled} (hread : HasRead tr credential)
      (hlines : ControlDecoder.Decodes codec (Lines.split newline (received tr)).1 (handled ++ queue))
      (hpending : decoder = ⟨unterminated (received tr)⟩)
      (hopened : (opened client tr).Sublist (handled.filterMap (client.wanted credential))) :
      Opening codec client tr (.serving credential decoder queue)
  | returned {result} (h : Selected codec client tr) : Opening codec client tr (.returned result)

/-- The events of the first lines are the first events. -/
theorem decodes_prefix {lines : List Bytes} {handled queue : List TunnelEvent}
    (h : ControlDecoder.Decodes codec lines (handled ++ queue)) :
    ∃ first, first <+: lines ∧ ControlDecoder.Decodes codec first handled := by
  refine ⟨lines.take handled.length, List.take_prefix _ _, ?_⟩
  have htake := List.forall₂_take handled.length h
  rwa [List.take_left] at htake

theorem Opening.selected {phase : Phase} (h : Opening codec client tr phase) :
    Selected codec client tr := by
  cases h with
  | starting hreceived hopened => exact .inl hopened
  | settingUp hread hreceived hopened => exact .inl hopened
  | serving hread hlines hpending hopened =>
    obtain ⟨first, hfirst, hdecodes⟩ := decodes_prefix hlines
    exact .inr ⟨_, _, first, hread, hfirst, hdecodes, hopened⟩
  | returned h => exact h

section Cons

variable {e : Event Session ClientAction}

theorem opened_cons (h : openedIn client e = none) : opened client (e :: tr) = opened client tr := by
  rw [opened, h, Option.toList_none, List.append_nil]

theorem received_cons (h : receivedIn e = []) : received (e :: tr) = received tr := by
  rw [received, h, List.append_nil]

theorem Selected.cons (h : Selected codec client tr) (hopened : openedIn client e = none) :
    Selected codec client (e :: tr) := by
  unfold Selected
  rw [opened_cons hopened]
  rcases h with h | ⟨credential, handled, lines, hread, hlines, hdecodes, hsub⟩
  · exact .inl h
  · have hmore : (Lines.split newline (received tr)).1 <+:
        (Lines.split newline (received (e :: tr))).1 :=
      Lines.split_prefix (List.prefix_append _ _)
    exact .inr ⟨credential, handled, lines, hread.cons e, hlines.trans hmore, hdecodes, hsub⟩

/-- A step that receives and opens nothing. -/
theorem Opening.cons {phase : Phase} (h : Opening codec client tr phase)
    (hreceived : receivedIn e = []) (hopened : openedIn client e = none) :
    Opening codec client (e :: tr) phase := by
  cases h with
  | starting h h' =>
    exact .starting ((received_cons hreceived).trans h) ((opened_cons hopened).trans h')
  | settingUp hread h h' =>
    exact .settingUp (hread.cons e) ((received_cons hreceived).trans h) ((opened_cons hopened).trans h')
  | @serving credential decoder queue handled hread hlines hpending hsub =>
    rw [← received_cons hreceived] at hlines hpending
    rw [← opened_cons hopened] at hsub
    exact .serving (hread.cons e) hlines hpending hsub
  | returned h => exact .returned (h.cons hopened)

end Cons

theorem Opening.serve {credential : String} {stage : Stage}
    (h : Opening codec client tr (.settingUp credential stage)) :
    Opening codec client (⟨s, .proceed, s'⟩ :: tr) (.serving credential .default []) := by
  cases h with
  | settingUp hread hreceived hopened =>
    have hnothing : received (⟨s, .proceed, s'⟩ :: tr) = [] := (received_cons rfl).trans hreceived
    have hlines : ControlDecoder.Decodes codec
        (Lines.split newline (received (⟨s, .proceed, s'⟩ :: tr))).1 ([] ++ []) := by
      rw [hnothing]
      exact .nil
    refine .serving (hread.cons _) hlines ?_ ?_
    · rw [hnothing]
      rfl
    · rw [opened_cons rfl, hopened]
      exact List.nil_sublist _

/-- The decoder goes on where the bytes so far have ended. -/
theorem Opening.chunk {credential : String} {decoder decoder' : ControlDecoder} {bytes : Bytes}
    {events : List TunnelEvent} (h : Opening codec client tr (.serving credential decoder []))
    (hpush : decoder.push codec bytes = (.ok events, decoder')) :
    Opening codec client (⟨s, .frame (.chunk bytes), s'⟩ :: tr)
      (.serving credential decoder' events) := by
  cases h with
  | @serving _ _ _ handled hread hlines hpending hsub =>
    subst hpending
    obtain ⟨-, hevents, hrest⟩ := ControlDecoder.push_eq_ok_iff.mp hpush
    have hreceived : received (⟨s, .frame (.chunk bytes), s'⟩ :: tr) = received tr ++ bytes := rfl
    rw [List.append_nil] at hlines
    have hmore : ControlDecoder.Decodes codec (Lines.split newline (received tr ++ bytes)).1
        (handled ++ events) := by
      rw [Lines.split_append]
      exact List.rel_append hlines hevents
    refine .serving (hread.cons _) (hreceived ▸ hmore) ?_ ?_
    · rw [hreceived, hrest]
      exact congrArg ControlDecoder.mk (ControlDecoder.unterminated_append _ _).symm
    · rw [opened_cons rfl]
      exact hsub

theorem wanted_of_opens {credential : String} {now : Nat} {event : TunnelEvent} :
    ((client.opens s credential now event).toList).Sublist
      (client.wanted credential event).toList := by
  cases hopens : client.opens s credential now event with
  | none => exact List.nil_sublist _
  | some o => rw [(opens_eq_some hopens).1]

/-- An event opens the stream it asks for, or none. -/
theorem Opening.event {credential : String} {decoder : ControlDecoder} {now : Nat}
    {event : TunnelEvent} {queue : List TunnelEvent}
    (h : Opening codec client tr (.serving credential decoder (event :: queue)))
    (hphase : s.phase = .serving credential decoder (event :: queue)) :
    Opening codec client (⟨s, .event now, s'⟩ :: tr) (.serving credential decoder queue) := by
  have hopened : opened client (⟨s, .event now, s'⟩ :: tr) =
      opened client tr ++ (client.opens s credential now event).toList := by
    simp only [opened, openedIn, hphase]
  have hreceived : received (⟨s, .event now, s'⟩ :: tr) = received tr := received_cons rfl
  cases h with
  | @serving _ _ _ handled hread hlines hpending hsub =>
    have hmore : ControlDecoder.Decodes codec (Lines.split newline (received tr)).1
        ((handled ++ [event]) ++ queue) := by
      rw [List.append_assoc]
      exact hlines
    refine .serving (hread.cons _) (hreceived ▸ hmore) ?_ ?_
    · rw [hreceived]
      exact hpending
    · rw [hopened, List.filterMap_append]
      refine hsub.append (wanted_of_opens.trans ?_)
      cases hwanted : client.wanted credential event with
      | none => exact List.nil_sublist _
      | some o => simp [hwanted]

theorem opens_of_incompatible {credential : String} {now version : Nat} {event : TunnelEvent}
    (h : incompatible? event = some version) : client.opens s credential now event = none := by
  cases event with
  | heartbeat version generation => rfl
  | «open» version' ticket connectionId hostname generation expiresAtMs =>
    simp only [incompatible?] at h
    split_ifs at h with hversion
    simp only [TunnelClient.opens, TunnelClient.wanted, hversion, false_and, if_false, ite_self]

theorem Opening.step (h : Opening codec client tr s.phase)
    (hm : ClientMoves codec client s action s') :
    Opening codec client (⟨s, action, s'⟩ :: tr) s'.phase := by
  cases hm with
  | read hphase hread =>
    rw [hphase] at h
    cases h with
    | starting hreceived hopened =>
      exact .settingUp ⟨_, List.mem_cons_self, _, rfl, hread⟩ ((received_cons rfl).trans hreceived)
        ((opened_cons rfl).trans hopened)
  | proceed hphase hnext =>
    rw [hphase] at h
    cases h with
    | settingUp hread hreceived hopened =>
      exact .settingUp (hread.cons _) ((received_cons rfl).trans hreceived) ((opened_cons rfl).trans hopened)
  | serve hphase hnext =>
    rw [hphase] at h
    exact h.serve
  | finish htask hend => exact h.cons rfl rfl
  | reaped hphase htask hfatal => exact h.cons rfl rfl
  | chunk hphase hpush =>
    rw [hphase] at h
    exact h.chunk hpush
  | event hphase hversion =>
    rw [hphase] at h
    exact h.event hphase
  | incompatible hphase hversion =>
    refine .returned (h.selected.cons ?_)
    simp only [openedIn, hphase]
    exact opens_of_incompatible hversion
  | unread | fail | shutdown | reapFatal | reapNone | undecodable | lost =>
    exact .returned (h.selected.cons rfl)

theorem opening_of_run (h : ClientRun codec client tr s) : Opening codec client tr s.phase :=
  h.invariant (fun tr s => Opening codec client tr s.phase) (.starting rfl rfl)
    fun _ _ _ _ _ hi hs => hi.step (moves_of_step hs)

/-! ## What the gateway sent -/

/-- A line is one event at most. -/
theorem decodes_unique {lines : List Bytes} {events events' : List TunnelEvent}
    (h : ControlDecoder.Decodes codec lines events)
    (h' : ControlDecoder.Decodes codec lines events') : events = events' := by
  induction h generalizing events' with
  | nil =>
    cases h'
    rfl
  | cons hfirst _ ih =>
    cases h' with
    | cons hfirst' hrest' =>
      rw [ih hrest', Option.some.inj (hfirst.symm.trans hfirst')]

/-- The events of the first lines that the gateway sent are the first events that it sent. -/
theorem decoded_prefix_of_sent {sent handled : List TunnelEvent} {lines : List Bytes}
    (hcodec : codec.Faithful sent) (hlines : lines <+: sent.map codec.toString)
    (hdecodes : ControlDecoder.Decodes codec lines handled) : handled <+: sent := by
  have htake : lines = (sent.take lines.length).map codec.toString := by
    rw [List.map_take]
    exact List.prefix_iff_eq_take.mp hlines
  have hsent : ControlDecoder.Decodes codec lines (sent.take lines.length) := by
    have hall := List.forall₂_take lines.length hcodec.decodes
    rwa [← List.map_take, ← htake] at hall
  rw [decodes_unique hdecodes hsent]
  exact List.take_prefix _ _

/-! ## What the gateway reads -/

/-- The request that the gateway makes of the `CONNECT`. -/
def OpenStream.attach (o : OpenStream) : Routing.Attach :=
  ⟨o.installationId, o.hostname, o.generation, o.credential, some o.hostname, some o.ticket⟩

/-- The gateway reads in the headers what the client has put into them. -/
theorem attach?_headers {cfg : Routing.Config} {uuidText : Uuid → String} {o : OpenStream}
    (huuid : cfg.parseUuid (uuidText o.installationId) = some o.installationId)
    (hgeneration : o.generation < 2 ^ 64) (hhost : validateHostname o.hostname = .ok ()) :
    Routing.attach? cfg (o.headers uuidText) (some o.hostname) = some o.attach := by
  have hversion : Routing.Headers.version (o.headers uuidText) = some wireVersion := by
    show Decimal.parse? (2 ^ 16) (Decimal.print wireVersion).toList = some wireVersion
    exact Decimal.parse?_print (by decide)
  have hid : Routing.Headers.installation cfg (o.headers uuidText) = some o.installationId := huuid
  have hnumber : Routing.Headers.generation (o.headers uuidText) = some o.generation := by
    show Decimal.parse? (2 ^ 64) (Decimal.print o.generation).toList = some o.generation
    exact Decimal.parse?_print hgeneration
  have htoken : Routing.Headers.token (o.headers uuidText) = some o.credential :=
    stripPrefix?_append "Bearer " o.credential
  have hname : Routing.Headers.hostname (o.headers uuidText) = some o.hostname := rfl
  have hform : Routing.Headers.wellFormed (o.headers uuidText) o.hostname = true :=
    decide_eq_true ⟨hversion, hhost⟩
  unfold Routing.attach?
  rw [hid, hname, hnumber, htoken]
  simp only [hform, if_true]
  rfl

theorem hostname_of_wanted {credential : String} {event : TunnelEvent} {o : OpenStream}
    (h : client.wanted credential event = some o) : o.hostname = client.config.hostname := by
  cases event with
  | heartbeat version generation => cases h
  | «open» version ticket connectionId hostname generation expiresAtMs =>
    simp only [TunnelClient.wanted] at h
    split_ifs at h
    rw [← Option.some.inj h]

/-- **Opened streams are asked for.** However the gateway's control stream is cut into frames and wherever
it ends: the streams that the client opens are some of those that the `Open` events of its own name ask
for, in their order and with the one token it has read. The gateway reads in the `CONNECT` of each the
stream that was asked for. -/
theorem opened_streams_asked_for {sent : List TunnelEvent} (h : ClientRun codec client tr s)
    (hcodec : codec.Faithful sent) (hreceived : received tr <+: codec.stream sent) :
    (opened client tr = [] ∨ ∃ credential, HasRead tr credential ∧
      (opened client tr).Sublist (sent.filterMap (client.wanted credential))) ∧
    ∀ o ∈ opened client tr, ∀ (cfg : Routing.Config) (uuidText : Uuid → String),
      cfg.parseUuid (uuidText o.installationId) = some o.installationId → o.generation < 2 ^ 64 →
      Routing.attach? cfg (o.headers uuidText) (some o.hostname) = some o.attach := by
  have hselected : opened client tr = [] ∨ ∃ credential, HasRead tr credential ∧
      (opened client tr).Sublist (sent.filterMap (client.wanted credential)) := by
    rcases (opening_of_run h).selected with hnone | ⟨credential, handled, lines, hread, hlines, hdecodes, hsub⟩
    · exact .inl hnone
    · have hmore : (Lines.split newline (received tr)).1 <+:
          (Lines.split newline (codec.stream sent)).1 := Lines.split_prefix hreceived
      have hfirst := hlines.trans hmore
      rw [hcodec.split_stream] at hfirst
      have hhandled := decoded_prefix_of_sent hcodec hfirst hdecodes
      exact .inr ⟨credential, hread, hsub.trans (hhandled.sublist.filterMap _)⟩
  refine ⟨hselected, fun o ho cfg uuidText huuid hgeneration => ?_⟩
  rcases hselected with hnone | ⟨credential, -, hsub⟩
  · rw [hnone] at ho
    cases ho
  · obtain ⟨event, -, hwanted⟩ := List.mem_filterMap.mp (hsub.mem ho)
    have hhost : validateHostname o.hostname = .ok () := by
      rw [hostname_of_wanted hwanted]
      exact client.hostname_valid
    exact attach?_headers huuid hgeneration hhost

theorem opened_streams_asked_for_session :
    ∃ tr s, ClientRun homeCodec homeClient tr s ∧ (opened homeClient tr).length = 1 ∧
      ∃ credential, HasRead tr credential ∧
        (opened homeClient tr).Sublist ([homeEvent].filterMap (homeClient.wanted credential)) := by
  obtain ⟨tr, hrun, hreceived, hopened⟩ := exists_home_session
  obtain ⟨hselected, -⟩ := opened_streams_asked_for hrun homeCodec_faithful (hreceived ▸ List.prefix_rfl)
  refine ⟨tr, _, hrun, by rw [hopened]; rfl, ?_⟩
  rcases hselected with hnone | hselected
  · rw [hopened] at hnone
    cases hnone
  · exact hselected

end BloomRelay.Client
