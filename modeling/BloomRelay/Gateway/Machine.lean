import BloomRelay.Lib.Decimal
import BloomRelay.Store.Ops
import Mathlib.Logic.Function.Basic

/-!
# The gateway (`bloom-relay`)

One gateway process: its table of tunnels, its table of tickets, and the tasks that use them. A task
is a program counter; an action is one atomic section of one task (a store call, a look at a table
under its lock, a send), so a list of actions is an interleaving. A task may also fail at any point,
where the code has a `?` or is dropped.

Semaphores only turn requests away; where one does, the request takes its failing branch.
-/

namespace BloomRelay.Routing

open Protocol Store

/-! ## Requests -/

/-- Header values by name; a value that is not visible ASCII counts as missing. -/
abbrev Headers := String → Option String

/-- What a gateway is started with. `parseUuid` is `Uuid::parse_str`. -/
structure Config where
  sha256 : Bytes → Bytes32
  parseUuid : String → Option Uuid
  store : StoreConfig
  gatewayId : String

namespace Headers

def version (h : Headers) : Option Nat :=
  (h "x-bloom-version").bind fun v => Decimal.parse? (2 ^ 16) v.toList

def installation (cfg : Config) (h : Headers) : Option Uuid :=
  (h "x-bloom-installation").bind cfg.parseUuid

def hostname (h : Headers) : Option String := h "x-bloom-hostname"

def generation (h : Headers) : Option Nat :=
  (h "x-bloom-generation").bind fun v => Decimal.parse? (2 ^ 64) v.toList

def token (h : Headers) : Option String :=
  (h "authorization").bind (stripPrefix? "Bearer ")

def ticket (h : Headers) : Option String := h "x-bloom-ticket"

/-- The checks both requests make before they ask the store. -/
def wellFormed (h : Headers) (host : String) : Bool :=
  h.version = some wireVersion ∧ validateHostname host = .ok ()

end Headers

/-- A `POST /v1/tunnel` with every header it needs. -/
structure TunnelRequest where
  id : Uuid
  host : String
  token : String
  deriving DecidableEq

def tunnelRequest? (cfg : Config) (h : Headers) : Option TunnelRequest :=
  match h.installation cfg, h.hostname, h.token with
  | some id, some host, some token => if h.wellFormed host then some ⟨id, host, token⟩ else none
  | _, _, _ => none

/-- A `CONNECT` with every header it needs to authenticate. -/
structure Attach where
  id : Uuid
  host : String
  generation : Nat
  token : String
  authority : Option String
  ticket : Option String
  deriving DecidableEq

def attach? (cfg : Config) (h : Headers) (authority : Option String) : Option Attach :=
  match h.installation cfg, h.hostname, h.generation, h.token with
  | some id, some host, some generation, some token =>
    if h.wellFormed host then some ⟨id, host, generation, token, authority, h.ticket⟩ else none
  | _, _, _, _ => none

/-! ## The two tables -/

/-- `Tunnel`, without its channels: a displaced or closed tunnel ends its lifecycle at some point. -/
structure Tunnel where
  id : Uuid
  generation : Nat
  deriving DecidableEq

/-- `Ticket`; its `claim` is the sending end of the oneshot of connection `browser`. -/
structure Ticket where
  host : String
  id : Uuid
  generation : Nat
  deadline : Nat
  browser : Nat
  deriving DecidableEq

def ticketOwnerMatches (activeHost : String) (activeId : Uuid) (activeGeneration : Nat)
    (ticketHost : String) (ticketId : Uuid) (ticketGeneration : Nat) : Bool :=
  activeHost = ticketHost ∧ activeId = ticketId ∧ activeGeneration = ticketGeneration

def ticketClaimMatches (ticket : Ticket) (id : Uuid) (host : String) (generation : Nat)
    (authority : Option String) (now : Nat) : Bool :=
  now < ticket.deadline ∧ authority = some ticket.host ∧
    ticketOwnerMatches host id generation ticket.host ticket.id ticket.generation = true

def generationCanReplace (current : Option Nat) (candidate : Nat) : Bool :=
  current.all fun generation => generation < candidate

/-! ## Tasks -/

/-- How a request was answered; `closed` is a connection that ended in an error. -/
inductive Status where
  | ok
  | unauthorized
  | conflict
  | gone
  | serviceUnavailable
  | closed
  deriving DecidableEq

/-- Where a `POST /v1/tunnel` is: what it does next. -/
inductive PostPc where
  | hostname (q : TunnelRequest)
  | authenticate (q : TunnelRequest)
  | claim (q : TunnelRequest)
  | register (q : TunnelRequest) (generation : Nat)
  | done (status : Status)
  deriving DecidableEq

/-- Where a `CONNECT` is: what it does next. -/
inductive ConnectPc where
  | hostname (a : Attach)
  | authenticate (a : Attach)
  | registered (a : Attach)
  | current (a : Attach)
  | ticket (a : Attach)
  | owner (a : Attach) (t : Ticket)
  | recheck (a : Attach) (t : Ticket)
  | handover (a : Attach) (t : Ticket)
  | done (status : Status)
  deriving DecidableEq

/-- Where a browser connection is after its SNI is read: what it does next. -/
inductive BrowserStage where
  | lookup
  | current (tunnel : Tunnel)
  | insert (tunnel : Tunnel) (deadline : Nat)
  | opening (ticket : String)
  | waiting (ticket : String)
  | closing (ticket : String) (stream : Option Nat)
  | bridging (stream : Nat)
  | failed
  deriving DecidableEq

/-- A browser connection and the host its SNI names. -/
structure Browser where
  host : String
  stage : BrowserStage
  deriving DecidableEq

/-- The receiving end of the oneshot is still there. -/
def BrowserStage.listening : BrowserStage → Bool
  | .opening _ | .waiting _ => true
  | _ => false

structure Gateway where
  db : Db
  /-- The monotonic clock of the process, in nanoseconds. -/
  instant : Nat
  tunnels : String → Option Tunnel
  tickets : String → Option Ticket
  lifecycles : List (String × Tunnel)
  posts : Nat → Option PostPc
  connects : Nat → Option ConnectPc
  browsers : Nat → Option Browser
  /-- The stream in the oneshot of a browser connection: the `CONNECT` that sent it. -/
  delivered : Nat → Option Nat

namespace Gateway

def setPost (g : Gateway) (r : Nat) (pc : PostPc) : Gateway :=
  { g with posts := Function.update g.posts r (some pc) }

def setConnect (g : Gateway) (c : Nat) (pc : ConnectPc) : Gateway :=
  { g with connects := Function.update g.connects c (some pc) }

def setBrowser (g : Gateway) (b : Nat) (host : String) (stage : BrowserStage) : Gateway :=
  { g with browsers := Function.update g.browsers b (some ⟨host, stage⟩) }

def setTicket (g : Gateway) (key : String) (t : Option Ticket) : Gateway :=
  { g with tickets := Function.update g.tickets key t }

def setTunnel (g : Gateway) (host : String) (t : Option Tunnel) : Gateway :=
  { g with tunnels := Function.update g.tunnels host t }

/-- The host's tunnel is this one. -/
def registered (g : Gateway) (host : String) (id : Uuid) (generation : Nat) : Bool :=
  (g.tunnels host).any fun t => t.id = id ∧ t.generation = generation

end Gateway

/-! ## Atomic sections -/

inductive PostAction where
  | hostname
  | authenticate (now : Time)
  | busy
  | claim (now : Time)
  | register
  | close
  deriving DecidableEq

inductive ConnectAction where
  | hostname
  | authenticate (now : Time)
  | registered
  | current (now : Time)
  | ticket
  | owner
  | recheck (now : Time)
  | handover
  | close
  deriving DecidableEq

inductive BrowserAction where
  | lookup
  | current (now : Time)
  | insert (ticket : String)
  | opened (sent : Bool)
  | receive
  | expire
  | remove
  | drop
  deriving DecidableEq

inductive Action where
  /-- Time passes. -/
  | tick (elapsed : Nat)
  /-- A store operation of another process, or of another part of this one. -/
  | store (call : Call)
  | postArrives (r : Nat) (headers : Headers)
  | post (r : Nat) (a : PostAction)
  | connectArrives (c : Nat) (headers : Headers) (authority : Option String)
  | connect (c : Nat) (a : ConnectAction)
  | browserArrives (b : Nat) (host : String)
  | browser (b : Nat) (a : BrowserAction)
  /-- A lifecycle's heartbeat: it renews the lease of a tunnel that is still registered. -/
  | heartbeat (host : String) (tunnel : Tunnel) (now : Time)
  | exit (host : String) (tunnel : Tunnel)

section Step

variable (cfg : Config)

/-- The claim a request makes. -/
def claimCall (now : Time) (q : TunnelRequest) : Call :=
  ⟨cfg.store, now, .claimTunnel q.id cfg.gatewayId 45⟩

/-- The renewal a heartbeat makes. -/
def renewCall (now : Time) (tunnel : Tunnel) : Call :=
  ⟨cfg.store, now, .renewTunnel tunnel.id cfg.gatewayId tunnel.generation⟩

def postStep (g : Gateway) (r : Nat) (a : PostAction) : Option Gateway :=
  match g.posts r, a with
  | some (.hostname q), .hostname =>
    some (g.setPost r (if Store.hostname g.db q.id = some q.host then .authenticate q
      else .done .unauthorized))
  | some (.authenticate q), .authenticate now =>
    some (g.setPost r (if (authenticateBearer cfg.sha256 g.db now q.id "tunnel" q.token).isSome
      then .claim q else .done .unauthorized))
  | some (.claim _), .busy => some (g.setPost r (.done .serviceUnavailable))
  | some (.claim q), .claim now =>
    match (claimCall cfg now q).exec cfg.sha256 g.db with
    | .ok (.generation generation, db) => some ({ g with db := db }.setPost r (.register q generation))
    | _ => some (g.setPost r (.done .closed))
  | some (.register q generation), .register =>
    if generationCanReplace ((g.tunnels q.host).map (·.generation)) generation then
      some (({ g with lifecycles := (q.host, ⟨q.id, generation⟩) :: g.lifecycles }.setTunnel q.host
        (some ⟨q.id, generation⟩)).setPost r (.done .ok))
    else some (g.setPost r (.done .conflict))
  | some _, .close => some (g.setPost r (.done .closed))
  | _, _ => none

def connectStep (g : Gateway) (c : Nat) (a : ConnectAction) : Option Gateway :=
  match g.connects c, a with
  | some (.hostname a), .hostname =>
    some (g.setConnect c (if Store.hostname g.db a.id = some a.host then .authenticate a
      else .done .unauthorized))
  | some (.authenticate a), .authenticate now =>
    some (g.setConnect c (if (authenticateBearer cfg.sha256 g.db now a.id "tunnel" a.token).isSome
      then .registered a else .done .unauthorized))
  | some (.registered a), .registered =>
    some (g.setConnect c (if g.registered a.host a.id a.generation then .current a
      else .done .unauthorized))
  | some (.current a), .current now =>
    some (g.setConnect c (if tunnelIsCurrent g.db now a.id cfg.gatewayId a.generation then .ticket a
      else .done .unauthorized))
  | some (.ticket a), .ticket =>
    match a.ticket with
    | none => some (g.setConnect c (.done .gone))
    | some key =>
      match g.tickets key with
      | none => some (g.setConnect c (.done .gone))
      | some t =>
        if ticketClaimMatches t a.id a.host a.generation a.authority g.instant then
          some ((g.setTicket key none).setConnect c (.owner a t))
        else some (g.setConnect c (.done .gone))
  | some (.owner a t), .owner =>
    some (g.setConnect c (if g.registered a.host a.id a.generation then .recheck a t
      else .done .gone))
  | some (.recheck a t), .recheck now =>
    some (g.setConnect c (if tunnelIsCurrent g.db now a.id cfg.gatewayId a.generation
      then .handover a t else .done .gone))
  | some (.handover _ t), .handover =>
    -- a send into a oneshot whose receiver is gone is lost
    if (g.browsers t.browser).any (fun b => b.stage.listening) then
      some ({ g with delivered := Function.update g.delivered t.browser (some c) }.setConnect c
        (.done .ok))
    else some (g.setConnect c (.done .ok))
  | some _, .close => some (g.setConnect c (.done .closed))
  | _, _ => none

/-- The time a browser connection has to get its stream. -/
def setupTime : Nat := 10 * 1000000000

def browserStep (g : Gateway) (b : Nat) (a : BrowserAction) : Option Gateway :=
  match g.browsers b, a with
  | some ⟨host, .lookup⟩, .lookup =>
    match g.tunnels host with
    | none => some (g.setBrowser b host .failed)
    | some tunnel => some (g.setBrowser b host (.current tunnel))
  | some ⟨host, .current tunnel⟩, .current now =>
    some (g.setBrowser b host
      (if tunnelIsCurrent g.db now tunnel.id cfg.gatewayId tunnel.generation
        then .insert tunnel (g.instant + setupTime) else .failed))
  | some ⟨host, .insert tunnel deadline⟩, .insert key =>
    some ((g.setTicket key (some ⟨host, tunnel.id, tunnel.generation, deadline, b⟩)).setBrowser b host
      (.opening key))
  | some ⟨host, .opening key⟩, .opened sent =>
    some (g.setBrowser b host (if sent then .waiting key else .closing key none))
  | some ⟨host, .waiting key⟩, .receive =>
    (g.delivered b).map fun c => g.setBrowser b host (.closing key (some c))
  | some ⟨host, .waiting key⟩, .expire =>
    if g.delivered b = none then some (g.setBrowser b host (.closing key none)) else none
  | some ⟨host, .closing key stream⟩, .remove =>
    some ((g.setTicket key none).setBrowser b host
      (match stream with
        | some c => .bridging c
        | none => .failed))
  | some ⟨host, _⟩, .drop => some (g.setBrowser b host .failed)
  | _, _ => none

/-- What an action does; none if the task is not there or not at that point. -/
def Gateway.step (g : Gateway) : Action → Option Gateway
  | .tick elapsed => some { g with instant := g.instant + elapsed }
  | .store call => some { g with db := call.after cfg.sha256 g.db }
  | .postArrives r headers =>
    if g.posts r = none then
      match tunnelRequest? cfg headers with
      | some q => some (g.setPost r (.hostname q))
      | none => some (g.setPost r (.done .unauthorized))
    else none
  | .post r a => postStep cfg g r a
  | .connectArrives c headers authority =>
    if g.connects c = none then
      match attach? cfg headers authority with
      | some a => some (g.setConnect c (.hostname a))
      | none => some (g.setConnect c (.done .unauthorized))
    else none
  | .connect c a => connectStep cfg g c a
  | .browserArrives b host =>
    -- `read_sni` accepts only a valid hostname
    if g.browsers b = none ∧ validateHostname host = .ok () then some (g.setBrowser b host .lookup)
    else none
  | .browser b a => browserStep cfg g b a
  | .heartbeat host tunnel now =>
    if (host, tunnel) ∈ g.lifecycles ∧ g.registered host tunnel.id tunnel.generation = true then
      some { g with db := (renewCall cfg now tunnel).after cfg.sha256 g.db }
    else none
  | .exit host tunnel =>
    if (host, tunnel) ∈ g.lifecycles then
      let g := { g with lifecycles := g.lifecycles.erase (host, tunnel) }
      some (if g.registered host tunnel.id tunnel.generation then g.setTunnel host none else g)
    else none

/-- An action as a step. -/
def GatewayStep (g : Gateway) (a : Action) (g' : Gateway) : Prop := g.step cfg a = some g'

/-- The gateway when it starts on a database. -/
def Gateway.start (db : Db) : Gateway where
  db := db
  instant := 0
  tunnels := fun _ => none
  tickets := fun _ => none
  lifecycles := []
  posts := fun _ => none
  connects := fun _ => none
  browsers := fun _ => none
  delivered := fun _ => none

end Step

end BloomRelay.Routing
