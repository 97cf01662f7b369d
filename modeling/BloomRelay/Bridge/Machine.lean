import BloomRelay.Lib.CreditFlow
import BloomRelay.Lib.Run
import BloomRelay.Protocol.Basic

/-!
# The bridge of a browser connection (`bloom-relay`, `bloom-relay-client`)

A browser connection is copied by two loops, `bridge` in the gateway and `open_stream_inner` in the
client, with one HTTP/2 stream between them. The loops have the same shape: a `select` over the socket
and the stream, and inside one of its branches the other is not looked at. A run is any order in which
the branches fire, with any fragmentation of reads, writes and frames and any grant of capacity.
-/

namespace BloomRelay.Bridging

open Protocol

/-! ## `send_data` and `send_bounded` -/

/-- How much `send_data` sends at once. -/
def sendDataCount (capacity len : Nat) : Nat := min (min capacity len) 16384

/-- How much `send_bounded` sends at once. -/
def sendBoundedCount (capacity len : Nat) : Nat := min (min len capacity) (16 * 1024)

/-- The loop of both, for the capacities that it finds: the chunks it sends and what it has not sent. It
waits on while the capacity is zero. -/
def sendLoop (count : Nat → Nat → Nat) : Bytes → List Nat → List Bytes × Bytes
  | bytes, [] => ([], bytes)
  | bytes, capacity :: capacities =>
    if bytes = [] then ([], [])
    else if capacity = 0 then sendLoop count bytes capacities
    else
      let n := count capacity bytes.length
      let (chunks, left) := sendLoop count (bytes.drop n) capacities
      (bytes.take n :: chunks, left)

def sendData : Bytes → List Nat → List Bytes × Bytes := sendLoop sendDataCount

def sendBounded : Bytes → List Nat → List Bytes × Bytes := sendLoop sendBoundedCount

/-! ## `read_sni` -/

inductive SniError where
  | timeout
  | incompleteOrTooLarge
  | tls
  | malformed
  | missingSni
  | invalidHostname
  deriving DecidableEq

/-- What the TLS acceptor says after the chunks it was given. -/
inductive Hello where
  | incomplete
  /-- `read_tls` fails. -/
  | tls
  /-- `accept` fails. -/
  | malformed
  | complete (serverName : Option String)

/-- `read_sni` on what the reads of the socket give, an empty chunk at its end: the host, the bytes it
has read, and the chunks it has not. -/
def readSni (accept : List Bytes → Hello) (seen : List Bytes) :
    List Bytes → Except SniError (String × Bytes × List Bytes)
  | [] => .error .timeout
  | chunk :: chunks =>
    if chunk = [] ∨ maxClientHello < seen.flatten.length + chunk.length then
      .error .incompleteOrTooLarge
    else
      let seen := seen ++ [chunk]
      match accept seen with
      | .tls => .error .tls
      | .malformed => .error .malformed
      | .incomplete => readSni accept seen chunks
      | .complete none => .error .missingSni
      | .complete (some host) =>
        if validateHostname host = .ok () then .ok (host, seen.flatten, chunks)
        else .error .invalidHostname

/-! ## The two loops -/

/-- Where a loop is. -/
inductive Pc where
  /-- At its `select`, or past its end. -/
  | idle
  /-- In `send_data` or `send_bounded`, with something left to send. -/
  | sending (rest : Bytes)
  /-- In `write_all` of a frame of `size` bytes. -/
  | writing (rest : Bytes) (size : Nat)
  deriving DecidableEq

/-- A loop and its socket. -/
structure End where
  /-- What the peer sends on the socket and the loop has not read. -/
  unread : Bytes
  /-- The peer ends its stream after that. -/
  closes : Bool
  pc : Pc
  /-- `browser_done` and `local_done`. -/
  readDone : Bool
  /-- `tunnel_done` and `remote_done`: the socket is shut down for writing. -/
  recvDone : Bool
  /-- What was written to the socket. -/
  written : Bytes
  /-- The loop has returned an error. -/
  failed : Bool

/-- One direction of the HTTP/2 stream. -/
structure Pipe where
  flow : CreditFlow UInt8
  /-- `END_STREAM` was sent. -/
  ended : Bool
  /-- The empty frame that carried it was not received yet. -/
  last : Bool

inductive LoopAction where
  /-- The socket gives `n` bytes. -/
  | read (n : Nat)
  /-- The socket is at its end. -/
  | eof
  /-- One round of the sending loop, with the capacity that it found. -/
  | send (capacity : Nat)
  /-- The stream gives a frame of `n` bytes. -/
  | receive (n : Nat)
  /-- The socket takes `n` bytes. -/
  | write (n : Nat)
  /-- The stream is at its end. -/
  | finish
  /-- An error or a timeout. -/
  | fail
  deriving DecidableEq

/-- The loop with its socket, the direction it sends on and the direction it receives from. -/
structure Loop where
  this : End
  out : Pipe
  inn : Pipe

/-- One branch of the `select`, or one step inside a branch. -/
def Loop.step (count : Nat → Nat → Nat) (l : Loop) : LoopAction → Option Loop
  | .read n =>
    if l.this.pc = .idle ∧ l.this.readDone = false ∧ 0 < n ∧ n ≤ 16384 ∧ n ≤ l.this.unread.length then
      some { l with
        this := { l.this with
          unread := l.this.unread.drop n
          pc := .sending (l.this.unread.take n) } }
    else none
  | .eof =>
    if l.this.pc = .idle ∧ l.this.readDone = false ∧ l.this.unread = [] ∧ l.this.closes = true then
      some { l with
        this := { l.this with readDone := true }
        out := { l.out with ended := true, last := true } }
    else none
  | .send capacity =>
    match l.this.pc with
    | .sending rest =>
      if 0 < capacity ∧ capacity ≤ l.out.flow.window then
        let n := count capacity rest.length
        some { l with
          this := { l.this with
            pc := if rest.drop n = [] then .idle else .sending (rest.drop n) }
          out := { l.out with flow := l.out.flow.send (rest.take n) } }
      else none
    | _ => none
  | .receive n =>
    if l.this.pc = .idle ∧ l.this.recvDone = false ∧
        (0 < n ∧ n ≤ l.inn.flow.queue.length ∨ n = 0 ∧ l.inn.flow.queue = [] ∧ l.inn.last = true) then
      some { l with
        this := { l.this with pc := .writing (l.inn.flow.queue.take n) n }
        inn := { l.inn with flow := l.inn.flow.take n, last := l.inn.last && decide (0 < n) } }
    else none
  | .write n =>
    match l.this.pc with
    | .writing rest size =>
      if n = rest.length then
        -- `release_capacity` after `write_all`
        some { l with
          this := { l.this with written := l.this.written ++ rest, pc := .idle }
          inn := { l.inn with flow := l.inn.flow.release size } }
      else if 0 < n ∧ n < rest.length then
        some { l with
          this := { l.this with
            written := l.this.written ++ rest.take n
            pc := .writing (rest.drop n) size } }
      else none
    | _ => none
  | .finish =>
    if l.this.pc = .idle ∧ l.this.recvDone = false ∧ l.inn.ended = true ∧ l.inn.flow.queue = [] then
      some { l with this := { l.this with recvDone := true } }
    else none
  | .fail =>
    if l.this.pc = .idle ∧ l.this.readDone = true ∧ l.this.recvDone = true then none
    else some { l with this := { l.this with failed := true } }

/-! ## The composition -/

inductive Side where
  | gateway
  | client
  deriving DecidableEq

structure Bridge where
  gateway : End
  client : End
  /-- From the gateway to the client. -/
  up : Pipe
  /-- From the client to the gateway. -/
  down : Pipe

namespace Bridge

def loop (s : Bridge) : Side → Loop
  | .gateway => ⟨s.gateway, s.up, s.down⟩
  | .client => ⟨s.client, s.down, s.up⟩

def withLoop (s : Bridge) : Side → Loop → Bridge
  | .gateway, l => { s with gateway := l.this, up := l.out, down := l.inn }
  | .client, l => { s with client := l.this, down := l.out, up := l.inn }

/-- `bridge` sends with `send_data`, `open_stream_inner` with `send_bounded`. -/
def count : Side → Nat → Nat → Nat
  | .gateway => sendDataCount
  | .client => sendBoundedCount

def step (s : Bridge) (a : Side × LoopAction) : Option Bridge :=
  if (s.loop a.1).this.failed then none
  else ((s.loop a.1).step (count a.1) a.2).map (s.withLoop a.1)

/-- Both loops when the stream is there: the gateway sends what `read_sni` has read. -/
def start (upWindow downWindow : Nat) (hello browser upstream : Bytes)
    (browserCloses upstreamCloses : Bool) : Bridge where
  gateway := ⟨browser, browserCloses, if hello = [] then .idle else .sending hello, false, false, [], false⟩
  client := ⟨upstream, upstreamCloses, .idle, false, false, [], false⟩
  up := ⟨.new upWindow, false, false⟩
  down := ⟨.new downWindow, false, false⟩

end Bridge

/-- The loop has returned without an error. -/
def End.finished (e : End) : Bool := e.pc = .idle ∧ e.readDone ∧ e.recvDone ∧ e.failed = false

/-- An action as a step. -/
def BridgeStep (s : Bridge) (a : Side × LoopAction) (s' : Bridge) : Prop := s.step a = some s'

/-- The runs of a bridge with its two windows, from what `read_sni` has read, what the browser and the
upstream send after it, and whether they end their streams. -/
abbrev BridgeRun (upWindow downWindow : Nat) (hello browser upstream : Bytes) (cb cu : Bool) :
    List (Event Bridge (Side × LoopAction)) → Bridge → Prop :=
  Run BridgeStep (.start upWindow downWindow hello browser upstream cb cu)

end BloomRelay.Bridging
