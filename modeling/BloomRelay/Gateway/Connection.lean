import BloomRelay.Gateway.Machine

/-!
# A control connection (`serve_control_connection`)

One HTTP/2 connection among all the activity of a gateway. It handles one request after the other; a
request that ends in an error ends the connection, and with it the lifecycles of all the tunnels it
registered, whichever installation they are of. A query that fails is such an error, and so is a response
that cannot be sent because the peer has reset the stream of its request.
-/

namespace BloomRelay.Routing

open Protocol Store

/-- A request the connection is handling: a `POST /v1/tunnel` or a `CONNECT`. -/
inductive ControlRequest where
  | post (r : Nat)
  | connect (c : Nat)
  deriving DecidableEq

structure Connection where
  gateway : Gateway
  /-- The request being handled; the next one is accepted when it is answered. -/
  serving : Option ControlRequest
  authenticated : Bool
  /-- `serve_control_connection` has returned, and `connection_shutdown` was sent. -/
  ended : Bool
  /-- The lifecycles that the connection spawned. -/
  spawned : List (String × Tunnel)
  /-- The tunnels whose `cancel` was sent. -/
  cancelled : List (String × Tunnel)

inductive ConnectionAction where
  /-- A `POST /v1/tunnel` is accepted. -/
  | acceptPost (r : Nat) (headers : Headers)
  /-- A `CONNECT` is accepted. -/
  | acceptConnect (c : Nat) (headers : Headers) (authority : Option String)
  /-- Any other request is accepted. -/
  | notFound
  /-- A section of the request being handled; `close` is a query of it that fails. -/
  | post (a : PostAction)
  | connect (a : ConnectAction)
  /-- The response cannot be sent: that of the request being handled, or of one that is accepted and
  refused at once. -/
  | unsent
  /-- Everything else in the gateway: other connections, browsers, lifecycles, the store. -/
  | other (a : Action)
  /-- `authentication_deadline`. -/
  | deadline
  /-- The peer has closed the connection, or broken it. -/
  | disconnect

namespace Connection

/-- The answer a request got. -/
def answered (g : Gateway) : ControlRequest → Option Status
  | .post r => match g.posts r with
    | some (.done status) => some status
    | _ => none
  | .connect c => match g.connects c with
    | some (.done status) => some status
    | _ => none

/-- The request got past its authentication. -/
def passed (g : Gateway) : ControlRequest → Bool
  | .post r => match g.posts r with
    | some (.claim _) => true
    | _ => false
  | .connect c => match g.connects c with
    | some (.ticket _) => true
    | _ => false

/-- The loop goes on to its next request after an answer, and ends with an error. -/
def settle (s : Connection) (q : ControlRequest) : Connection :=
  match answered s.gateway q with
  | some status => { s with serving := none, ended := s.ended || decide (status = .closed) }
  | none => { s with serving := some q, authenticated := s.authenticated || passed s.gateway q }

/-- The tunnel a section of a `POST /v1/tunnel` registers. -/
def registers (g : Gateway) (r : Nat) : PostAction → Option (String × Tunnel)
  | .register => match g.posts r with
    | some (.register q generation) =>
      if generationCanReplace ((g.tunnels q.host).map (·.generation)) generation then
        some (q.host, ⟨q.id, generation⟩)
      else none
    | _ => none
  | _ => none

/-- The tunnel a section displaces; its `cancel` is sent. -/
def displaces (g : Gateway) : Action → Option (String × Tunnel)
  | .post r a => (registers g r a).bind fun x => (g.tunnels x.1).map fun t => (x.1, t)
  | _ => none

/-- The section belongs to the request being handled. -/
def serves (s : Connection) : Action → Bool
  | .post r _ => s.serving = some (.post r)
  | .connect c _ => s.serving = some (.connect c)
  | _ => false

/-- The loop waits for its next request. -/
def ready (s : Connection) : Bool := s.serving = none ∧ s.ended = false

section Step

variable (cfg : Config)

def step (s : Connection) : ConnectionAction → Option Connection
  | .acceptPost r headers =>
    if s.ready then
      (s.gateway.step cfg (.postArrives r headers)).map fun g => { s with gateway := g }.settle (.post r)
    else none
  | .acceptConnect c headers authority =>
    if s.ready then
      (s.gateway.step cfg (.connectArrives c headers authority)).map fun g =>
        { s with gateway := g }.settle (.connect c)
    else none
  | .notFound => if s.ready then some s else none
  | .post a =>
    match s.serving with
    | some (.post r) =>
      (s.gateway.step cfg (.post r a)).map fun g =>
        { s with
          gateway := g
          spawned := (registers s.gateway r a).toList ++ s.spawned
          cancelled := (displaces s.gateway (.post r a)).toList ++ s.cancelled }.settle (.post r)
    | _ => none
  | .connect a =>
    match s.serving with
    | some (.connect c) =>
      (s.gateway.step cfg (.connect c a)).map fun g => { s with gateway := g }.settle (.connect c)
    | _ => none
  | .unsent =>
    match s.serving with
    | some (.post r) =>
      (s.gateway.step cfg (.post r .close)).map fun g => { s with gateway := g }.settle (.post r)
    | some (.connect c) =>
      (s.gateway.step cfg (.connect c .close)).map fun g => { s with gateway := g }.settle (.connect c)
    | none => if s.ended then none else some { s with ended := true }
  | .other a =>
    if s.serves a then none
    else
      (s.gateway.step cfg a).map fun g =>
        { s with gateway := g, cancelled := (displaces s.gateway a).toList ++ s.cancelled }
  | .deadline => if s.ready ∧ s.authenticated = false then some { s with ended := true } else none
  | .disconnect => if s.ready then some { s with ended := true } else none

end Step

def start (db : Db) : Connection := ⟨Gateway.start db, none, false, false, [], []⟩

/-- The installation that the request being handled names. -/
def requester (s : Connection) : Option Uuid :=
  s.serving.bind fun q =>
    match q with
    | .post r => (s.gateway.posts r).bind fun pc =>
      match pc with
      | .hostname q | .authenticate q | .claim q | .register q _ => some q.id
      | .done _ => none
    | .connect c => (s.gateway.connects c).bind fun pc =>
      match pc with
      | .hostname a | .authenticate a | .registered a | .current a | .ticket a | .owner a _
      | .recheck a _ | .handover a _ => some a.id
      | .done _ => none

/-- The host's tunnel is registered, and neither its `cancel` nor its connection's shutdown was sent. -/
def Live (s : Connection) (host : String) (t : Tunnel) : Prop :=
  s.gateway.tunnels host = some t ∧ (host, t) ∉ s.cancelled ∧
    (s.ended = true → (host, t) ∉ s.spawned)

end Connection

/-- An action as a step. -/
def ConnectionStep (cfg : Config) (s : Connection) (a : ConnectionAction) (s' : Connection) : Prop :=
  s.step cfg a = some s'

/-- The runs of a gateway and one connection from the gateway's start on a database. -/
abbrev ConnectionRun (cfg : Config) (db : Db) :
    List (Event Connection ConnectionAction) → Connection → Prop :=
  Run (ConnectionStep cfg) (.start db)

end BloomRelay.Routing
