import BloomRelay.Client.Basic
import BloomRelay.Gateway.Machine
import BloomRelay.Protocol.ControlDecoder

/-!
# The Broker's tunnel client (`bloom-relay-client`)

`TunnelClient::run_until_ready` as a machine: it reads its credential, sets the tunnel up, and then
serves in a loop that takes the control stream's frames, opens a stream for every `Open` event of its
own name, and reaps the tasks that have ended. A task may end at any time, also while the events of a
frame are handled; its permit is free from then on, although the loop reaps it later. When the function
returns, its ready guard and its tasks are dropped.
-/

namespace BloomRelay.Client

open Protocol Store Checked

structure SocketAddr where
  ip : IpAddr
  port : Nat
  deriving DecidableEq

/-- `IpAddr::V4(Ipv4Addr::LOCALHOST)`. -/
def localhost : IpAddr := .v4 0x7f000001#32

/-- `TunnelConfig`, without the TLS roots. -/
structure TunnelConfig where
  gateway : SocketAddr
  controlServerName : String
  hostname : String
  installationId : Uuid
  credentialPath : String
  deriving DecidableEq

/-- `TunnelClient`: one that `new` has accepted. -/
structure TunnelClient where
  config : TunnelConfig
  upstream : SocketAddr
  hostname_valid : validateHostname config.hostname = .ok ()
  upstream_local : upstream.ip = localhost
  upstream_port : upstream.port ≠ 0
  credentialPath_ne : config.credentialPath ≠ ""
  controlServerName_ne : config.controlServerName ≠ ""

def TunnelClient.new (config : TunnelConfig) (upstream : SocketAddr) :
    Except ClientError TunnelClient :=
  if h : validateHostname config.hostname = .ok () ∧ upstream.ip = localhost ∧ upstream.port ≠ 0 ∧
      config.credentialPath ≠ "" ∧ config.controlServerName ≠ "" then
    .ok ⟨config, upstream, h.1, h.2.1, h.2.2.1, h.2.2.2.1, h.2.2.2.2⟩
  else .error .invalidConfiguration

/-! ## Requests -/

/-- The arguments of `open_stream`. -/
structure OpenStream where
  upstream : SocketAddr
  hostname : String
  installationId : Uuid
  generation : Nat
  credential : String
  ticket : String
  deriving DecidableEq

/-- The headers of the `CONNECT`; its authority is the hostname. `uuidText` is `Uuid::to_string`. -/
def OpenStream.headers (uuidText : Uuid → String) (o : OpenStream) : Routing.Headers
  | "x-bloom-version" => some (Decimal.print wireVersion)
  | "x-bloom-installation" => some (uuidText o.installationId)
  | "x-bloom-hostname" => some o.hostname
  | "x-bloom-generation" => some (Decimal.print o.generation)
  | "authorization" => some ("Bearer " ++ o.credential)
  | "x-bloom-ticket" => some o.ticket
  | _ => none

/-! ## Tasks -/

/-- `TunnelTaskCompletion`. -/
inductive TunnelTaskCompletion where
  | connection (result : Except ClientError Unit)
  | stream (result : Except ClientError Unit)

def TunnelTaskCompletion.intoFatalError : TunnelTaskCompletion → Option ClientError
  -- "Any completion means the control tunnel can no longer admit browser streams."
  | .connection (.ok ()) => some .transport
  | .connection (.error e) => some e
  -- "A GOAWAY retires this shared HTTP/2 connection."
  | .stream (.error .tunnelRetired) => some .tunnelRetired
  | .stream _ => none

/-- A task of the `JoinSet`: the HTTP/2 driver, or a browser stream. -/
inductive Work where
  | driver
  | stream (o : OpenStream)
  deriving DecidableEq

/-- How a task ended. -/
inductive Ending where
  | completed (result : Except ClientError Unit)
  | panicked
  deriving DecidableEq

/-- What `open_stream` and the driver can end with. -/
def Work.canEnd : Work → Ending → Bool
  | _, .panicked | _, .completed (.ok ()) | _, .completed (.error .transport) => true
  | .stream _, .completed (.error .invalidConfiguration)
  | .stream _, .completed (.error .tunnelRetired)
  | .stream _, .completed (.error .rejected) => true
  | _, _ => false

def Work.completion (work : Work) (result : Except ClientError Unit) : TunnelTaskCompletion :=
  match work with
  | .driver => .connection result
  | .stream _ => .stream result

/-- What the loop returns with when it reaps a task, if it does. -/
def Work.fatal (work : Work) : Ending → Option ClientError
  | .completed result => (work.completion result).intoFatalError
  | .panicked => some .transport

/-- A task; it runs while it has no ending. -/
structure Task where
  work : Work
  ending : Option Ending
  deriving DecidableEq

/-- The task holds a permit of `streams`. -/
def Task.permitted (t : Task) : Bool :=
  match t.work with
  | .driver => false
  | .stream _ => t.ending.isNone

/-! ## The machine -/

/-- The steps between `read_credential` and the loop. -/
inductive Stage where
  | tcp
  | serverName
  | tls
  | handshake
  | request
  | send
  | response
  deriving DecidableEq

def Stage.next : Stage → Option Stage
  | .tcp => some .serverName
  | .serverName => some .tls
  | .tls => some .handshake
  | .handshake => some .request
  | .request => some .send
  | .send => some .response
  | .response => none

/-- The errors a step can end with. -/
def Stage.fails : Stage → ClientError → Bool
  | .serverName, .invalidConfiguration | .request, .invalidConfiguration => true
  | .tcp, .transport | .tls, .transport | .handshake, .transport | .send, .transport
  | .response, .transport => true
  | .response, .rejected => true
  | _, _ => false

/-- Where `run_until_ready` is. -/
inductive Phase where
  | starting
  | settingUp (credential : String) (stage : Stage)
  /-- The loop; `queue` are the events of the last frame that are still to be handled. -/
  | serving (credential : String) (decoder : ControlDecoder) (queue : List TunnelEvent)
  | returned (result : Except ClientError Unit)

structure Session where
  phase : Phase
  /-- The value of the `ready` channel. -/
  ready : Bool
  tasks : List Task

/-- What `events.data()` gives within its 45 seconds. -/
inductive Frame where
  | chunk (bytes : Bytes)
  | failed
  | ended
  | timedOut
  deriving DecidableEq

inductive ClientAction where
  | readCredential (file : Option CredentialFile)
  /-- The step of the setup succeeds, or fails. -/
  | proceed
  | fail (e : ClientError)
  /-- A task ends. -/
  | finish (k : Nat) (ending : Ending)
  /-- The branches of the loop's `select!`. -/
  | shutdown
  | reap (k : Nat)
  | reapNone
  | frame (frame : Frame)
  /-- The next event of a frame is handled; `now` is `now_ms()`. -/
  | event (now : Nat)

namespace Session

def start : Session := ⟨.starting, false, []⟩

/-- The function returns: the guard clears `ready`, and the tasks are aborted. -/
def returns (result : Except ClientError Unit) : Session := ⟨.returned result, false, []⟩

/-- How many permits of `streams` are held. -/
def running (s : Session) : Nat := s.tasks.countP Task.permitted

end Session

section Step

variable (codec : EventCodec) (client : TunnelClient)

/-- The stream that an event asks for, if it is of the client's name. -/
def TunnelClient.wanted (credential : String) : TunnelEvent → Option OpenStream
  | .open version ticket _ hostname generation _ =>
    if version = wireVersion ∧ hostname = client.config.hostname then
      some ⟨client.upstream, client.config.hostname, client.config.installationId, generation,
        credential, ticket⟩
    else none
  | .heartbeat _ _ => none

/-- The stream that an event opens: one that is late, or finds no permit, opens none. -/
def TunnelClient.opens (s : Session) (credential : String) (now : Nat) (event : TunnelEvent) :
    Option OpenStream :=
  match event with
  | .open _ _ _ _ _ expiresAtMs =>
    if expiresAtMs ≤ now then none
    else if s.running < maxInstallationStreams then client.wanted credential event
    else none
  | .heartbeat _ _ => none

/-- An `Open` of another version ends the tunnel. -/
def incompatible? : TunnelEvent → Option Nat
  | .open version _ _ _ _ _ => if version = wireVersion then none else some version
  | .heartbeat _ _ => none

/-- What a frame does. -/
def frameStep (s : Session) (credential : String) (decoder : ControlDecoder) : Frame → Session
  | .chunk bytes =>
    match decoder.push codec bytes with
    | (.ok events, decoder) => { s with phase := .serving credential decoder events }
    | (.error _, _) => .returns (.error .transport)
  | .failed | .ended | .timedOut => .returns (.error .transport)

/-- What the next event of a frame does. -/
def eventStep (s : Session) (credential : String) (decoder : ControlDecoder) (now : Nat)
    (event : TunnelEvent) (queue : List TunnelEvent) : Session :=
  match incompatible? event with
  | some version => .returns (.error (.incompatibleProtocol version wireVersion))
  | none =>
    { s with
      phase := .serving credential decoder queue
      tasks := s.tasks ++ ((client.opens s credential now event).map fun o => ⟨.stream o, none⟩).toList }

/-- What an action does; none if it is not possible. -/
def Session.step (s : Session) (action : ClientAction) : Option Session :=
  match action, s.phase with
  | .readCredential file, .starting =>
    match readCredential file with
    | .ok credential => some { s with phase := .settingUp credential .tcp }
    | .error e => some (.returns (.error e))
  | .proceed, .settingUp credential stage =>
    match stage.next with
    | some next =>
      some { s with
        phase := .settingUp credential next
        tasks := if stage = .handshake then s.tasks ++ [⟨.driver, none⟩] else s.tasks }
    | none => some { s with phase := .serving credential .default [], ready := true }
  | .fail e, .settingUp _ stage =>
    if stage.fails e then some (.returns (.error e)) else none
  | .finish k ending, _ =>
    match s.tasks[k]? with
    | some ⟨work, none⟩ =>
      if work.canEnd ending then some { s with tasks := s.tasks.set k ⟨work, some ending⟩ } else none
    | _ => none
  | .shutdown, .serving _ _ [] => some (.returns (.ok ()))
  | .reap k, .serving _ _ [] =>
    match s.tasks[k]? with
    | some ⟨work, some ending⟩ =>
      match work.fatal ending with
      | some e => some (.returns (.error e))
      | none => some { s with tasks := s.tasks.eraseIdx k }
    | _ => none
  | .reapNone, .serving _ _ [] => if s.tasks = [] then some (.returns (.error .transport)) else none
  | .frame frame, .serving credential decoder [] => some (frameStep codec s credential decoder frame)
  | .event now, .serving credential decoder (event :: queue) =>
    some (eventStep client s credential decoder now event queue)
  | _, _ => none

/-- An action as a step. -/
def ClientStep (s : Session) (action : ClientAction) (s' : Session) : Prop :=
  s.step codec client action = some s'

/-- The runs of `run_until_ready`. -/
abbrev ClientRun : List (Event Session ClientAction) → Session → Prop :=
  Run (ClientStep codec client) .start

end Step

/-! ## What happened in a run -/

/-- The bytes of the control stream that a step receives. -/
def receivedIn (e : Event Session ClientAction) : Bytes :=
  match e.label with
  | .frame (.chunk bytes) => bytes
  | _ => []

/-- The bytes that were received, in their order. -/
def received : List (Event Session ClientAction) → Bytes
  | [] => []
  | e :: earlier => received earlier ++ receivedIn e

/-- The stream that a step opens. -/
def openedIn (client : TunnelClient) (e : Event Session ClientAction) : Option OpenStream :=
  match e.label, e.src.phase with
  | .event now, .serving credential _ (event :: _) => client.opens e.src credential now event
  | _, _ => none

/-- The streams that were opened, in their order. -/
def opened (client : TunnelClient) : List (Event Session ClientAction) → List OpenStream
  | [] => []
  | e :: earlier => opened client earlier ++ (openedIn client e).toList

end BloomRelay.Client
