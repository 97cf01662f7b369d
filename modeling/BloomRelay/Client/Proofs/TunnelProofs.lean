import BloomRelay.Client.Tunnel
import BloomRelay.Protocol.Proofs.ControlDecoderProofs

/-!
# The tunnel client over whole runs

What one step of `run_until_ready` can do, and what follows for every run: how many streams it has, when
it is ready, and what makes it return.
-/

namespace BloomRelay.Client

open Protocol Checked

variable {codec : EventCodec} {client : TunnelClient} {s s' : Session} {action : ClientAction}
  {tr : List (Event Session ClientAction)}

/-! ## One step -/

/-- What an action can do. -/
inductive ClientMoves (codec : EventCodec) (client : TunnelClient) (s : Session) :
    ClientAction → Session → Prop where
  | read {file credential} (hphase : s.phase = .starting)
      (hread : readCredential file = .ok credential) :
      ClientMoves codec client s (.readCredential file)
        { s with phase := .settingUp credential .tcp }
  | unread {file e} (hphase : s.phase = .starting) (hread : readCredential file = .error e) :
      ClientMoves codec client s (.readCredential file) (.returns (.error e))
  | proceed {credential stage next} (hphase : s.phase = .settingUp credential stage)
      (hnext : stage.next = some next) :
      ClientMoves codec client s .proceed { s with
        phase := .settingUp credential next
        tasks := if stage = .handshake then s.tasks ++ [⟨.driver, none⟩] else s.tasks }
  | serve {credential stage} (hphase : s.phase = .settingUp credential stage)
      (hnext : stage.next = none) :
      ClientMoves codec client s .proceed
        { s with phase := .serving credential .default [], ready := true }
  | fail {credential stage e} (hphase : s.phase = .settingUp credential stage)
      (hfails : stage.fails e = true) :
      ClientMoves codec client s (.fail e) (.returns (.error e))
  | finish {k work ending} (htask : s.tasks[k]? = some ⟨work, none⟩)
      (hend : work.canEnd ending = true) :
      ClientMoves codec client s (.finish k ending)
        { s with tasks := s.tasks.set k ⟨work, some ending⟩ }
  | shutdown {credential decoder} (hphase : s.phase = .serving credential decoder []) :
      ClientMoves codec client s .shutdown (.returns (.ok ()))
  | reapFatal {credential decoder k work ending e} (hphase : s.phase = .serving credential decoder [])
      (htask : s.tasks[k]? = some ⟨work, some ending⟩) (hfatal : work.fatal ending = some e) :
      ClientMoves codec client s (.reap k) (.returns (.error e))
  | reaped {credential decoder k work ending} (hphase : s.phase = .serving credential decoder [])
      (htask : s.tasks[k]? = some ⟨work, some ending⟩) (hfatal : work.fatal ending = none) :
      ClientMoves codec client s (.reap k) { s with tasks := s.tasks.eraseIdx k }
  | reapNone {credential decoder} (hphase : s.phase = .serving credential decoder [])
      (htasks : s.tasks = []) : ClientMoves codec client s .reapNone (.returns (.error .transport))
  | chunk {credential decoder bytes events decoder'}
      (hphase : s.phase = .serving credential decoder [])
      (hpush : decoder.push codec bytes = (.ok events, decoder')) :
      ClientMoves codec client s (.frame (.chunk bytes))
        { s with phase := .serving credential decoder' events }
  | undecodable {credential decoder bytes e decoder'}
      (hphase : s.phase = .serving credential decoder [])
      (hpush : decoder.push codec bytes = (.error e, decoder')) :
      ClientMoves codec client s (.frame (.chunk bytes)) (.returns (.error .transport))
  | lost {credential decoder frame} (hphase : s.phase = .serving credential decoder [])
      (hframe : ∀ bytes, frame ≠ .chunk bytes) :
      ClientMoves codec client s (.frame frame) (.returns (.error .transport))
  | incompatible {credential decoder now event queue version}
      (hphase : s.phase = .serving credential decoder (event :: queue))
      (hversion : incompatible? event = some version) :
      ClientMoves codec client s (.event now)
        (.returns (.error (.incompatibleProtocol version wireVersion)))
  | event {credential decoder now event queue}
      (hphase : s.phase = .serving credential decoder (event :: queue))
      (hversion : incompatible? event = none) :
      ClientMoves codec client s (.event now) { s with
        phase := .serving credential decoder queue
        tasks := s.tasks ++
          ((client.opens s credential now event).map fun o => ⟨.stream o, none⟩).toList }

theorem frameMoves {credential : String} {decoder : ControlDecoder}
    (hphase : s.phase = .serving credential decoder []) (frame : Frame) :
    ClientMoves codec client s (.frame frame) (frameStep codec s credential decoder frame) := by
  cases frame with
  | chunk bytes =>
    rcases hpush : decoder.push codec bytes with ⟨_ | events, decoder'⟩
    · simp only [frameStep, hpush]
      exact .undecodable hphase hpush
    · simp only [frameStep, hpush]
      exact .chunk hphase hpush
  | failed => exact .lost hphase fun bytes h => by cases h
  | ended => exact .lost hphase fun bytes h => by cases h
  | timedOut => exact .lost hphase fun bytes h => by cases h

theorem eventMoves {credential : String} {decoder : ControlDecoder} {event : TunnelEvent}
    {queue : List TunnelEvent} (hphase : s.phase = .serving credential decoder (event :: queue))
    (now : Nat) :
    ClientMoves codec client s (.event now)
      (eventStep client s credential decoder now event queue) := by
  unfold eventStep
  cases hversion : incompatible? event with
  | some version => exact .incompatible hphase hversion
  | none => exact .event hphase hversion

theorem moves_of_step (h : ClientStep codec client s action s') :
    ClientMoves codec client s action s' := by
  unfold ClientStep Session.step at h
  split at h
  · rename_i file hphase
    cases hread : readCredential file with
    | ok credential =>
      simp only [hread, Option.some.injEq] at h
      exact h ▸ .read hphase hread
    | error e =>
      simp only [hread, Option.some.injEq] at h
      exact h ▸ .unread hphase hread
  · rename_i credential stage hphase
    cases hnext : stage.next with
    | some next =>
      simp only [hnext, Option.some.injEq] at h
      exact h ▸ .proceed hphase hnext
    | none =>
      simp only [hnext, Option.some.injEq] at h
      exact h ▸ .serve hphase hnext
  · rename_i e credential stage hphase
    split_ifs at h with hfails
    exact Option.some.inj h ▸ .fail hphase hfails
  · rename_i k ending _
    split at h
    · rename_i work htask
      split_ifs at h with hend
      exact Option.some.inj h ▸ .finish htask hend
    · cases h
  · rename_i credential decoder hphase
    exact Option.some.inj h ▸ .shutdown hphase
  · rename_i k credential decoder hphase
    split at h
    · rename_i work ending htask
      cases hfatal : work.fatal ending with
      | some e =>
        simp only [hfatal, Option.some.injEq] at h
        exact h ▸ .reapFatal hphase htask hfatal
      | none =>
        simp only [hfatal, Option.some.injEq] at h
        exact h ▸ .reaped hphase htask hfatal
    · cases h
  · rename_i credential decoder hphase
    split_ifs at h with htasks
    exact Option.some.inj h ▸ .reapNone hphase htasks
  · rename_i frame credential decoder hphase
    exact Option.some.inj h ▸ frameMoves hphase frame
  · rename_i now credential decoder event queue hphase
    exact Option.some.inj h ▸ eventMoves hphase now
  · cases h

/-! ## Supervision -/

/-- The loop is running. -/
def Session.Serving (s : Session) : Prop :=
  ∃ credential decoder queue, s.phase = .serving credential decoder queue

/-- The HTTP/2 driver was spawned and the function has not returned. -/
def Phase.driven : Phase → Bool
  | .settingUp _ .request | .settingUp _ .send | .settingUp _ .response | .serving _ _ _ => true
  | _ => false

/-- What holds of a session in every run. -/
structure Session.Supervised (s : Session) : Prop where
  ready : s.ready = true ↔ s.Serving
  running : s.running ≤ maxInstallationStreams
  driver : s.phase.driven = true → ∃ t ∈ s.tasks, t.work = .driver
  endings : ∀ t ∈ s.tasks, ∀ ending, t.ending = some ending → t.work.canEnd ending = true
  returned : ∀ result, s.phase = .returned result → s.tasks = []

/-- A session without tasks, before or after its loop. -/
theorem supervised_idle {phase : Phase} (h : phase.driven = false) :
    Session.Supervised ⟨phase, false, []⟩ where
  ready := by
    constructor
    · intro hready
      cases hready
    · rintro ⟨_, _, _, rfl⟩
      cases h
  running := Nat.zero_le _
  driver := fun hdriven => by cases h.symm.trans hdriven
  endings := fun _ ht => absurd ht List.not_mem_nil
  returned := fun _ _ => rfl

/-- The channel is not set during the setup. -/
theorem Session.Supervised.unready (h : s.Supervised) {credential : String} {stage : Stage}
    {tasks : List Task} (hbefore : ¬ s.Serving) :
    s.ready = true ↔ Session.Serving ⟨.settingUp credential stage, s.ready, tasks⟩ := by
  refine iff_of_false (fun hready => hbefore (h.ready.mp hready)) ?_
  rintro ⟨_, _, _, hserving⟩
  cases hserving

theorem Session.Supervised.proceed (h : s.Supervised) {credential : String} {stage next : Stage}
    (hphase : s.phase = .settingUp credential stage) (hnext : stage.next = some next) :
    Session.Supervised { s with
      phase := .settingUp credential next
      tasks := if stage = .handshake then s.tasks ++ [⟨.driver, none⟩] else s.tasks } := by
  have hbefore : ¬ s.Serving := by
    rintro ⟨_, _, _, hserving⟩
    cases hphase.symm.trans hserving
  refine ⟨h.unready hbefore, ?_, ?_, ?_, ?_⟩
  · have hrunning := h.running
    unfold Session.running at hrunning ⊢
    split_ifs with hstage
    · rw [List.countP_append]
      exact hrunning
    · exact hrunning
  · intro hdriven
    split_ifs with hstage
    · exact ⟨_, List.mem_append_right _ List.mem_cons_self, rfl⟩
    · refine h.driver ?_
      rw [hphase]
      cases stage <;> cases hnext <;> first | rfl | (cases hdriven; done) | exact absurd rfl hstage
  · intro t ht ending hending
    split_ifs at ht with hstage
    · rcases List.mem_append.mp ht with ht | ht
      · exact h.endings t ht ending hending
      · obtain rfl := List.mem_singleton.mp ht
        cases hending
    · exact h.endings t ht ending hending
  · intro result hreturned
    cases hreturned

theorem Session.Supervised.serve (h : s.Supervised) {credential : String} {stage : Stage}
    (hphase : s.phase = .settingUp credential stage) (hnext : stage.next = none) :
    Session.Supervised { s with phase := .serving credential .default [], ready := true } := by
  have hstage : stage = .response := by
    cases stage <;> first | rfl | cases hnext
  refine ⟨⟨fun _ => ⟨_, _, _, rfl⟩, fun _ => rfl⟩, h.running, fun _ => h.driver ?_, h.endings, ?_⟩
  · rw [hphase, hstage]
    rfl
  · intro result hreturned
    cases hreturned

theorem Session.Supervised.finish (h : s.Supervised) {k : Nat} {work : Work} {ending : Ending}
    (htask : s.tasks[k]? = some ⟨work, none⟩) (hend : work.canEnd ending = true) :
    Session.Supervised { s with tasks := s.tasks.set k ⟨work, some ending⟩ } := by
  refine ⟨h.ready, ?_, ?_, ?_, ?_⟩
  · -- a task that ends gives its permit back
    have hended : Task.permitted ⟨work, some ending⟩ = false := by cases work <;> rfl
    have hrunning := h.running
    unfold Session.running at hrunning ⊢
    obtain ⟨hk, -⟩ := List.getElem?_eq_some_iff.mp htask
    rw [List.countP_set hk, hended]
    simp only [Bool.false_eq_true, if_false]
    omega
  · intro hdriven
    obtain ⟨t, ht, hwork⟩ := h.driver hdriven
    obtain ⟨j, hj, rfl⟩ := List.mem_iff_getElem.mp ht
    by_cases hjk : k = j
    · have hsame : s.tasks[k]? = some s.tasks[j] := by rw [hjk, List.getElem?_eq_getElem hj]
      obtain hwork' := congrArg Task.work (Option.some.inj (htask.symm.trans hsame))
      refine ⟨⟨work, some ending⟩, List.mem_set (hjk ▸ hj) _, ?_⟩
      exact hwork'.trans hwork
    · refine ⟨s.tasks[j], List.mem_iff_getElem.mpr ⟨j, ?_, ?_⟩, hwork⟩
      · rw [List.length_set]
        exact hj
      · exact List.getElem_set_ne hjk _
  · intro t ht ending' hending
    rcases List.mem_or_eq_of_mem_set ht with ht | rfl
    · exact h.endings t ht ending' hending
    · obtain rfl := Option.some.inj hending
      exact hend
  · intro result hreturned
    have hnil := h.returned result hreturned
    show s.tasks.set k _ = []
    rw [hnil]
    rfl

/-- The end of the driver is fatal, so the loop never reaps it and goes on. -/
theorem fatal_driver (ending : Ending) : Work.driver.fatal ending ≠ none := by
  rcases ending with (_ | _) | _ <;> exact Option.some_ne_none _

theorem Session.Supervised.reaped (h : s.Supervised) {k : Nat} {work : Work} {ending : Ending}
    (htask : s.tasks[k]? = some ⟨work, some ending⟩) (hfatal : work.fatal ending = none) :
    Session.Supervised { s with tasks := s.tasks.eraseIdx k } := by
  have hsub : (s.tasks.eraseIdx k).Sublist s.tasks := List.eraseIdx_sublist _ _
  refine ⟨h.ready, le_trans hsub.countP_le h.running, ?_, fun t ht => h.endings t (hsub.mem ht), ?_⟩
  · intro hdriven
    obtain ⟨t, ht, hwork⟩ := h.driver hdriven
    refine ⟨t, ?_, hwork⟩
    obtain ⟨j, hj, rfl⟩ := List.mem_iff_getElem.mp ht
    refine List.mem_eraseIdx_iff_getElem?.mpr ⟨j, ?_, List.getElem?_eq_getElem hj⟩
    rintro rfl
    rw [List.getElem?_eq_getElem hj] at htask
    rw [Option.some.inj htask] at hwork
    obtain rfl : work = .driver := hwork
    exact fatal_driver ending hfatal
  · intro result hreturned
    have hnil := h.returned result hreturned
    show s.tasks.eraseIdx k = []
    rw [hnil]
    rfl

/-- The loop goes on with other events. -/
theorem Session.Supervised.reserve (h : s.Supervised) (hserving : s.Serving) {credential : String}
    {decoder : ControlDecoder} {queue : List TunnelEvent} :
    Session.Supervised { s with phase := .serving credential decoder queue } := by
  refine ⟨⟨fun _ => ⟨_, _, _, rfl⟩, fun _ => h.ready.mpr hserving⟩, h.running, fun _ => ?_,
    h.endings, fun result hreturned => by cases hreturned⟩
  obtain ⟨_, _, _, hphase⟩ := hserving
  refine h.driver ?_
  rw [hphase]
  rfl

theorem opens_eq_some {credential : String} {now : Nat} {event : TunnelEvent} {o : OpenStream}
    (h : client.opens s credential now event = some o) :
    client.wanted credential event = some o ∧ s.running < maxInstallationStreams := by
  cases event with
  | heartbeat version generation => cases h
  | «open» version ticket connectionId hostname generation expiresAtMs =>
    simp only [TunnelClient.opens] at h
    split_ifs at h with hlate hroom
    exact ⟨h, hroom⟩

theorem Session.Supervised.event (h : s.Supervised) {credential : String}
    {decoder : ControlDecoder} {event : TunnelEvent} {queue : List TunnelEvent}
    (hphase : s.phase = .serving credential decoder (event :: queue)) (now : Nat) :
    Session.Supervised { s with
      phase := .serving credential decoder queue
      tasks := s.tasks ++
        ((client.opens s credential now event).map fun o => ⟨.stream o, none⟩).toList } := by
  have hgo : Session.Supervised { s with phase := .serving credential decoder queue } :=
    h.reserve ⟨_, _, _, hphase⟩
  cases hopens : client.opens s credential now event with
  | none =>
    rw [Option.map_none, Option.toList_none, List.append_nil]
    exact hgo
  | some o =>
    obtain ⟨-, hroom⟩ := opens_eq_some hopens
    refine ⟨hgo.ready, ?_, fun hdriven => ?_, fun t ht => ?_, fun result hreturned => ?_⟩
    · show (s.tasks ++ [(⟨.stream o, none⟩ : Task)]).countP Task.permitted ≤ maxInstallationStreams
      rw [List.countP_append]
      exact hroom
    · obtain ⟨t, ht, hwork⟩ := hgo.driver hdriven
      exact ⟨t, List.mem_append_left _ ht, hwork⟩
    · rcases List.mem_append.mp ht with ht | ht
      · exact hgo.endings t ht
      · obtain rfl := List.mem_singleton.mp ht
        intro ending hending
        cases hending
    · cases hreturned

theorem Session.Supervised.step (h : s.Supervised) (hm : ClientMoves codec client s action s') :
    s'.Supervised := by
  cases hm with
  | read hphase hread =>
    have hbefore : ¬ s.Serving := by
      rintro ⟨_, _, _, hserving⟩
      cases hphase.symm.trans hserving
    exact ⟨h.unready hbefore, h.running, (fun hdriven => by cases hdriven), h.endings,
      fun _ hreturned => by cases hreturned⟩
  | proceed hphase hnext => exact h.proceed hphase hnext
  | serve hphase hnext => exact h.serve hphase hnext
  | finish htask hend => exact h.finish htask hend
  | reaped hphase htask hfatal => exact h.reaped htask hfatal
  | chunk hphase hpush => exact h.reserve ⟨_, _, _, hphase⟩
  | event hphase hversion => exact h.event hphase _
  | unread | fail | shutdown | reapFatal | reapNone | undecodable | lost | incompatible =>
    exact supervised_idle rfl

theorem supervised_of_run (h : ClientRun codec client tr s) : s.Supervised :=
  h.state_invariant Session.Supervised (supervised_idle rfl) fun _ _ _ hi hs => hi.step (moves_of_step hs)

/-! ## The end of a session -/

/-- The steps that make `run_until_ready` return, with what it returns. -/
inductive EndedBy (codec : EventCodec) (e : Event Session ClientAction) :
    Except ClientError Unit → Prop where
  | credential {file err} (hlabel : e.label = .readCredential file)
      (hread : readCredential file = .error err) : EndedBy codec e (.error err)
  | setup {stage credential err} (hphase : e.src.phase = .settingUp credential stage)
      (hlabel : e.label = .fail err) (hfails : stage.fails err = true) : EndedBy codec e (.error err)
  | shutdown (hlabel : e.label = .shutdown) : EndedBy codec e (.ok ())
  | driver {k ending} (hlabel : e.label = .reap k)
      (htask : e.src.tasks[k]? = some ⟨.driver, some ending⟩) : EndedBy codec e (.error .transport)
  | goAway {k o} (hlabel : e.label = .reap k)
      (htask : e.src.tasks[k]? = some ⟨.stream o, some (.completed (.error .tunnelRetired))⟩) :
      EndedBy codec e (.error .tunnelRetired)
  | panicked {k o} (hlabel : e.label = .reap k)
      (htask : e.src.tasks[k]? = some ⟨.stream o, some .panicked⟩) :
      EndedBy codec e (.error .transport)
  | lost {frame} (hlabel : e.label = .frame frame) (hframe : ∀ bytes, frame ≠ .chunk bytes) :
      EndedBy codec e (.error .transport)
  | undecodable {credential decoder bytes err decoder'}
      (hphase : e.src.phase = .serving credential decoder []) (hlabel : e.label = .frame (.chunk bytes))
      (hpush : decoder.push codec bytes = (.error err, decoder')) : EndedBy codec e (.error .transport)
  | incompatible {credential decoder event queue version}
      (hphase : e.src.phase = .serving credential decoder (event :: queue))
      (hversion : incompatible? event = some version) :
      EndedBy codec e (.error (.incompatibleProtocol version wireVersion))

/-- The driver ends with a transport error, however it ends. -/
theorem fatal_of_driver {ending : Ending} {e : ClientError} (hend : Work.driver.canEnd ending = true)
    (hfatal : Work.driver.fatal ending = some e) : e = .transport := by
  rcases ending with (err | _) | _
  · cases err <;> cases hend
    exact (Option.some.inj hfatal).symm
  · exact (Option.some.inj hfatal).symm
  · exact (Option.some.inj hfatal).symm

/-- Of the ways a stream ends, a GOAWAY and a panic are fatal. -/
theorem fatal_of_stream {o : OpenStream} {ending : Ending} {e : ClientError}
    (hfatal : (Work.stream o).fatal ending = some e) :
    ending = .completed (.error .tunnelRetired) ∧ e = .tunnelRetired ∨
      ending = .panicked ∧ e = .transport := by
  rcases ending with (err | _) | _
  · cases err <;> cases hfatal
    exact .inl ⟨rfl, rfl⟩
  · cases hfatal
  · exact .inr ⟨rfl, (Option.some.inj hfatal).symm⟩

theorem endedBy_of_reap (h : s.Supervised) {k : Nat} {work : Work} {ending : Ending} {e : ClientError}
    (htask : s.tasks[k]? = some ⟨work, some ending⟩) (hfatal : work.fatal ending = some e) :
    EndedBy codec ⟨s, .reap k, s'⟩ (.error e) := by
  have hend := h.endings _ (List.mem_of_getElem? htask) ending rfl
  cases work with
  | driver =>
    obtain rfl := fatal_of_driver hend hfatal
    exact .driver rfl htask
  | stream o =>
    rcases fatal_of_stream hfatal with ⟨rfl, rfl⟩ | ⟨rfl, rfl⟩
    · exact .goAway rfl htask
    · exact .panicked rfl htask

/-- The step in which the function returns is one of these. -/
theorem endedBy_of_moves (h : s.Supervised) (hm : ClientMoves codec client s action s')
    {result : Except ClientError Unit} (hbefore : s.phase ≠ .returned result)
    (hafter : s'.phase = .returned result) : EndedBy codec ⟨s, action, s'⟩ result := by
  cases hm with
  | read | proceed | serve | chunk | event => cases hafter
  | finish | reaped => exact absurd hafter hbefore
  | unread hphase hread =>
    cases hafter
    exact .credential rfl hread
  | fail hphase hfails =>
    cases hafter
    exact .setup hphase rfl hfails
  | shutdown hphase =>
    cases hafter
    exact .shutdown rfl
  | reapFatal hphase htask hfatal =>
    cases hafter
    exact endedBy_of_reap h htask hfatal
  | reapNone hphase htasks =>
    obtain ⟨t, ht, -⟩ := h.driver (by rw [hphase]; rfl)
    rw [htasks] at ht
    cases ht
  | undecodable hphase hpush =>
    cases hafter
    exact .undecodable hphase rfl hpush
  | lost hphase hframe =>
    cases hafter
    exact .lost rfl hframe
  | incompatible hphase hversion =>
    cases hafter
    exact .incompatible hphase hversion

/-- **Supervision.** At every point of every run the client is ready exactly while its loop runs, and
has at most `MAX_INSTALLATION_STREAMS` streams. When it has returned no task is left, and it returned
because it was shut down, because the setup, the HTTP/2 driver or the control stream failed, because the
gateway speaks another version, or because a stream met a GOAWAY or panicked: no other end of a stream
takes the tunnel down. -/
theorem tunnel_supervised (h : ClientRun codec client tr s) :
    (s.ready = true ↔ s.Serving) ∧ s.running ≤ maxInstallationStreams ∧
      ∀ result, s.phase = .returned result → s.tasks = [] ∧ ∃ e ∈ tr, EndedBy codec e result := by
  have hs := supervised_of_run h
  refine ⟨hs.ready, hs.running, fun result hresult => ⟨hs.returned result hresult, ?_⟩⟩
  clear hs
  induction h with
  | refl => cases hresult
  | @snoc tr t u action hrun hstep ih =>
    by_cases hbefore : t.phase = .returned result
    · obtain ⟨e, he, hended⟩ := ih hbefore
      exact ⟨e, List.mem_cons_of_mem _ he, hended⟩
    · exact ⟨_, List.mem_cons_self,
        endedBy_of_moves (supervised_of_run hrun) (moves_of_step hstep) hbefore hresult⟩

/-! ## A session -/

def homeHost : String := "abcdefghijklmnopqrstuv2345.relay.bloom.directory"

def homeClient : TunnelClient where
  config := ⟨⟨localhost, 443⟩, "relay-control.bloom.directory", homeHost, 7, "/protected/token"⟩
  upstream := ⟨localhost, 18735⟩
  hostname_valid := by decide +kernel
  upstream_local := rfl
  upstream_port := by decide
  credentialPath_ne := by decide
  controlServerName_ne := by decide

def homeToken : String := "0123456789abcdef0123456789abcdef0123456789a"

def homeFile : CredentialFile := ⟨true, 44, 0o600, some (homeToken ++ "\n")⟩

theorem readCredential_home : readCredential (some homeFile) = .ok homeToken := by
  decide +kernel

def homeEvent : TunnelEvent := .open 1 "ticket" 3 homeHost 4 1000

/-- The event as it is sent. -/
def homeLine : Bytes := utf8 "\x7b\"type\":\"open\"\x7d"

def homeCodec : EventCodec where
  toString _ := homeLine
  fromSlice line := if line = homeLine then some homeEvent else none

theorem homeCodec_faithful : homeCodec.Faithful [homeEvent] where
  roundTrip := by
    intro event hevent
    rw [List.mem_singleton.mp hevent]
    show (if homeLine = homeLine then some homeEvent else none) = some homeEvent
    exact if_pos rfl
  escaped := by
    intro event hevent
    show newline ∉ homeLine
    decide +kernel

def homeTask : Task := ⟨.stream ⟨⟨localhost, 18735⟩, homeHost, 7, 4, homeToken, "ticket"⟩, none⟩

/-- The session at the start of its loop. -/
def homeServing : Session := ⟨.serving homeToken .default [], true, [⟨.driver, none⟩]⟩

theorem exists_home_setup : ∃ tr, ClientRun homeCodec homeClient tr homeServing ∧ received tr = [] ∧
    opened homeClient tr = [] := by
  have hread : ClientStep homeCodec homeClient .start (.readCredential (some homeFile))
      ⟨.settingUp homeToken .tcp, false, []⟩ := by
    simp only [ClientStep, Session.step, Session.start, readCredential_home]
  have hproceed : ∀ stage next tasks, stage.next = some next → stage ≠ .handshake →
      ClientStep homeCodec homeClient ⟨.settingUp homeToken stage, false, tasks⟩ .proceed
        ⟨.settingUp homeToken next, false, tasks⟩ := by
    intro stage next tasks hnext hstage
    simp only [ClientStep, Session.step, hnext, if_neg hstage]
  have hdriver : ClientStep homeCodec homeClient ⟨.settingUp homeToken .handshake, false, []⟩ .proceed
      ⟨.settingUp homeToken .request, false, [⟨.driver, none⟩]⟩ := rfl
  have hserve : ClientStep homeCodec homeClient
      ⟨.settingUp homeToken .response, false, [⟨.driver, none⟩]⟩ .proceed homeServing := rfl
  have hconnected := (((Run.refl.snoc hread).snoc (hproceed .tcp _ _ rfl (by decide))).snoc
    (hproceed .serverName _ _ rfl (by decide))).snoc (hproceed .tls _ _ rfl (by decide))
  have hrun := (((hconnected.snoc hdriver).snoc (hproceed .request _ _ rfl (by decide))).snoc
    (hproceed .send _ _ rfl (by decide))).snoc hserve
  exact ⟨_, hrun, rfl, rfl⟩

theorem push_home : ControlDecoder.default.push homeCodec (homeLine ++ [newline]) = (.ok [homeEvent], ⟨[]⟩) := by
  have hline : newline ∉ homeLine := by decide +kernel
  have hevent : homeCodec.fromSlice homeLine = some homeEvent :=
    homeCodec_faithful.roundTrip homeEvent List.mem_cons_self
  refine ControlDecoder.push_eq_ok_iff.mpr ⟨by decide +kernel, ?_, ?_⟩
  · rw [List.nil_append, Lines.split_line hline]
    exact .cons hevent .nil
  · rw [List.nil_append, unterminated, Lines.split_line hline]
    rfl

/-- A session that opens a stream and ends with its control stream. -/
theorem exists_home_session : ∃ tr, ClientRun homeCodec homeClient tr (.returns (.error .transport)) ∧
    received tr = homeCodec.stream [homeEvent] ∧
      opened homeClient tr = [⟨⟨localhost, 18735⟩, homeHost, 7, 4, homeToken, "ticket"⟩] := by
  obtain ⟨tr, hsetup, hreceived, hopened⟩ := exists_home_setup
  have hframe : ClientStep homeCodec homeClient homeServing (.frame (.chunk (homeLine ++ [newline])))
      { homeServing with phase := .serving homeToken ⟨[]⟩ [homeEvent] } := by
    simp only [ClientStep, Session.step, homeServing, frameStep, push_home]
  have hopen : homeClient.opens { homeServing with phase := .serving homeToken ⟨[]⟩ [homeEvent] }
      homeToken 5 homeEvent = some ⟨⟨localhost, 18735⟩, homeHost, 7, 4, homeToken, "ticket"⟩ := by
    decide +kernel
  have hevent : ClientStep homeCodec homeClient
      { homeServing with phase := .serving homeToken ⟨[]⟩ [homeEvent] } (.event 5)
      ⟨.serving homeToken ⟨[]⟩ [], true, [⟨.driver, none⟩, homeTask]⟩ := by
    have hversion : incompatible? homeEvent = none := rfl
    simp only [ClientStep, Session.step, eventStep, hversion, hopen]
    rfl
  have hended : ClientStep homeCodec homeClient
      ⟨.serving homeToken ⟨[]⟩ [], true, [⟨.driver, none⟩, homeTask]⟩ (.frame .ended)
      (.returns (.error .transport)) := rfl
  refine ⟨_, ((hsetup.snoc hframe).snoc hevent).snoc hended, ?_, ?_⟩
  · simp only [received, receivedIn, hreceived, List.nil_append, List.append_nil]
    rfl
  · simp only [opened, openedIn, hopened, hopen, Option.toList_some, Option.toList_none, List.nil_append,
      List.append_nil]

theorem tunnel_supervised_session :
    ∃ tr s, ClientRun homeCodec homeClient tr s ∧ s.phase = .returned (.error .transport) ∧
      ∃ e ∈ tr, EndedBy homeCodec e (.error .transport) := by
  obtain ⟨tr, hrun, -, -⟩ := exists_home_session
  obtain ⟨-, -, hreturned⟩ := tunnel_supervised hrun
  exact ⟨tr, _, hrun, rfl, (hreturned _ rfl).2⟩

end BloomRelay.Client
