import BloomRelay.Gateway.Machine
import BloomRelay.Lib.Permits

/-!
# Admission of browser connections (`bloom-relay`)

The gateway with its two semaphores for browser connections: one for the whole gateway, and one that
belongs to each registered `Tunnel`. A connection holds its permits until it ends. The semaphore of a
tunnel is created with the tunnel and is gone for new connections when the tunnel is displaced, while
the connections that were accepted under it go on.
-/

namespace BloomRelay.Routing

open Protocol Store

/-- The permits of `gateway.streams`. -/
def gatewayStreams : Nat := min maxGatewayStreams (bufferBudget / (2 * bufferPerDirection))

structure Admission where
  gateway : Gateway
  /-- `_global`, by browser connection. -/
  slots : Permits Nat Unit
  /-- `_installation`: the tunnel whose `streams` a browser connection has a permit of. A tunnel is
  known by its installation and its generation. -/
  streams : Permits Nat Tunnel

inductive AdmissionAction where
  /-- A section of the gateway. -/
  | gateway (a : Action)
  /-- `tunnel.streams.try_acquire_owned()`, after the connection found its tunnel. -/
  | acquire (b : Nat)

namespace Admission

/-- A connection that has ended drops its permits. -/
def settle (s : Admission) (b : Nat) : Admission :=
  if (s.gateway.browsers b).any (fun x => x.stage = .failed) then
    { s with slots := s.slots.release b, streams := s.streams.release b }
  else s

section Step

variable (cfg : Config)

/-- A section of a browser connection; the lease is checked only with a permit. -/
def browserSection (s : Admission) (b : Nat) (a : BrowserAction) : Option Admission :=
  let permitted := match a with
    | .current _ => s.streams.holds b
    | _ => true
  if permitted then
    (s.gateway.step cfg (.browser b a)).map fun g => { s with gateway := g }.settle b
  else none

def step (s : Admission) : AdmissionAction → Option Admission
  | .gateway (.browserArrives b host) =>
    (s.slots.acquire? gatewayStreams b ()).bind fun slots =>
      (s.gateway.step cfg (.browserArrives b host)).map fun g =>
        { s with gateway := g, slots := slots }
  | .gateway (.browser b a) => s.browserSection cfg b a
  | .gateway a => (s.gateway.step cfg a).map fun g => { s with gateway := g }
  | .acquire b =>
    match s.gateway.browsers b with
    | some ⟨host, .current tunnel⟩ =>
      if s.streams.holds b then none
      else
        match s.streams.acquire? maxInstallationStreams b tunnel with
        | some streams => some { s with streams := streams }
        | none => some ({ s with gateway := s.gateway.setBrowser b host .failed }.settle b)
    | _ => none

end Step

def start (db : Db) : Admission := ⟨Gateway.start db, .empty, .empty⟩

/-- How many browser connections of an installation hold a permit. -/
def streamsOf (s : Admission) (i : Uuid) : Nat := s.streams.count fun t => t.id = i

end Admission

/-- An action as a step. -/
def AdmissionStep (cfg : Config) (s : Admission) (a : AdmissionAction) (s' : Admission) : Prop :=
  s.step cfg a = some s'

/-- The runs of the gateway from its start on a database. -/
abbrev AdmissionRun (cfg : Config) (db : Db) : List (Event Admission AdmissionAction) → Admission → Prop :=
  Run (AdmissionStep cfg) (.start db)

end BloomRelay.Routing
