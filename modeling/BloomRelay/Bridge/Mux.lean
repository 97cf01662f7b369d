import BloomRelay.Bridge.Machine
import Mathlib.Algebra.BigOperators.Group.Finset.Basic
import Mathlib.Logic.Function.Basic

/-!
# The streams of one tunnel connection

One direction of the HTTP/2 connection between a gateway and a client: the control stream and any number
of bridged streams, each with its own window, under the one window of the connection. The bytes of a
frame go back to both windows when the receiving loop releases them, which it does after it has written
them to its socket. The loop copies both directions, one thing at a time: while it waits for capacity in
its own send it takes no frame.
-/

namespace BloomRelay.Bridging

open Protocol

/-- The default window of a connection and of a stream. -/
def defaultWindow : Nat := 65535

/-- A stream, from the loop that sends on it to the loop that receives from it and its consumer. -/
structure Channel where
  /-- What the sending loop has in hand and has to send. -/
  pending : Bytes
  flow : CreditFlow UInt8
  /-- The consumer reads: a write to its socket goes through. -/
  reading : Bool
  /-- What the buffers of the socket still take of a consumer that does not read. -/
  room : Nat
  /-- The receiving loop waits for capacity on the other direction, in its own send. -/
  waits : Bool

namespace Channel

def new : Channel := ⟨[], .new defaultWindow, true, 0, false⟩

/-- The frame that the receiving loop holds can be written to the socket. -/
def writable (c : Channel) : Bool := c.reading || c.flow.held ≤ c.room

/-- The frame is written, and released. -/
def written (c : Channel) : Channel :=
  { c with
    flow := c.flow.release c.flow.held
    room := if c.reading then c.room else c.room - c.flow.held }

/-- The receiving loop takes and writes whatever comes. -/
def active (c : Channel) : Bool := c.reading && !c.waits

end Channel

structure Mux where
  /-- The window of the connection. -/
  window : Nat
  /-- The streams that are open. -/
  ids : Finset Nat
  channels : Nat → Channel

/-- The stream of the tunnel's events. Its consumer is the client itself. -/
def controlId : Nat := 0

inductive MuxAction where
  | create (i : Nat)
  /-- The stream is over; what it holds of the connection's window goes back. -/
  | close (i : Nat)
  /-- There is more to send. -/
  | offer (i : Nat) (bytes : Bytes)
  /-- One round of the sending loop, with the capacity that it found. -/
  | send (i capacity : Nat)
  /-- The receiving loop takes a frame of `n` bytes. -/
  | receive (i n : Nat)
  /-- The frame is written, and released. -/
  | write (i : Nat)
  /-- The consumer stops reading, with `room` bytes left in the buffers of its socket. -/
  | stop (i room : Nat)
  | resume (i : Nat)
  /-- The receiving loop has read from its socket and finds no capacity. -/
  | block (i : Nat)
  | unblock (i : Nat)

namespace Mux

def setChannel (s : Mux) (i : Nat) (c : Channel) : Mux :=
  { s with channels := Function.update s.channels i c }

/-- What an action does on the direction in which `side` sends. -/
def step (side : Side) (s : Mux) : MuxAction → Option Mux
  | .create i =>
    if i ∈ s.ids then none else some ({ s with ids := insert i s.ids }.setChannel i .new)
  | .close i =>
    if i ∈ s.ids then
      some { s with
        window := s.window + (s.channels i).flow.outstanding
        ids := s.ids.erase i }
    else none
  | .offer i bytes =>
    if i ∈ s.ids then
      some (s.setChannel i { s.channels i with pending := (s.channels i).pending ++ bytes })
    else none
  | .send i capacity =>
    if i ∈ s.ids ∧ (s.channels i).pending ≠ [] ∧ 0 < capacity ∧ capacity ≤ s.window ∧
        capacity ≤ (s.channels i).flow.window then
      let n := Bridge.count side capacity (s.channels i).pending.length
      some ({ s with window := s.window - n }.setChannel i
        { s.channels i with
          pending := (s.channels i).pending.drop n
          flow := (s.channels i).flow.send ((s.channels i).pending.take n) })
    else none
  | .receive i n =>
    if i ∈ s.ids ∧ (s.channels i).waits = false ∧ (s.channels i).flow.held = 0 ∧ 0 < n ∧
        n ≤ (s.channels i).flow.queue.length then
      some (s.setChannel i { s.channels i with flow := (s.channels i).flow.take n })
    else none
  | .write i =>
    if i ∈ s.ids ∧ (s.channels i).writable = true ∧ 0 < (s.channels i).flow.held then
      some ({ s with window := s.window + (s.channels i).flow.held }.setChannel i (s.channels i).written)
    else none
  | .stop i room =>
    if i ∈ s.ids ∧ i ≠ controlId ∧ (s.channels i).reading = true then
      some (s.setChannel i { s.channels i with reading := false, room := room })
    else none
  | .resume i =>
    if i ∈ s.ids then some (s.setChannel i { s.channels i with reading := true }) else none
  | .block i =>
    if i ∈ s.ids ∧ i ≠ controlId ∧ (s.channels i).flow.held = 0 then
      some (s.setChannel i { s.channels i with waits := true })
    else none
  | .unblock i =>
    if i ∈ s.ids then some (s.setChannel i { s.channels i with waits := false }) else none

/-- The connection when it is set up. -/
def start : Mux := ⟨defaultWindow, ∅, fun _ => .new⟩

/-- Stream `i` can send: a round of its sending loop is possible. -/
def CanSend (side : Side) (s : Mux) (i : Nat) : Prop :=
  ∃ capacity, (s.step side (.send i capacity)).isSome = true

/-- What the streams hold whose receiving loops may be stuck: the consumer has stopped reading, or the
loop waits for capacity itself. -/
def stalled (s : Mux) : Nat :=
  ∑ i ∈ s.ids.filter (fun i => (s.channels i).active = false), (s.channels i).flow.outstanding

end Mux

/-- An action as a step. -/
def MuxStep (side : Side) (s : Mux) (a : MuxAction) (s' : Mux) : Prop := s.step side a = some s'

/-- The runs of one direction of a connection. -/
abbrev MuxRun (side : Side) : List (Event Mux MuxAction) → Mux → Prop := Run (MuxStep side) .start

end BloomRelay.Bridging
