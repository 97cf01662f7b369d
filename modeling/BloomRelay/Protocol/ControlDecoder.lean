import BloomRelay.Protocol.Basic

/-!
# Control events (`bloom-relay-protocol`)

The gateway sends each event as one line of JSON, and the client takes the lines out of the DATA frames
of the control stream. What serde_json makes of an event and of a line are parameters.
-/

namespace BloomRelay.Protocol

/-- `TunnelEvent`. -/
inductive TunnelEvent where
  | open (version : Nat) (ticket : String) (connectionId : Uuid) (hostname : String)
      (generation expiresAtMs : Nat)
  | heartbeat (version generation : Nat)
  deriving DecidableEq

/-- `b'\n'`. -/
def newline : UInt8 := 10

/-- serde_json for events: `to_string` and `from_slice`. -/
structure EventCodec where
  toString : TunnelEvent → Bytes
  fromSlice : Bytes → Option TunnelEvent

/-- What the gateway sends for an event. -/
def EventCodec.message (codec : EventCodec) (event : TunnelEvent) : Bytes :=
  codec.toString event ++ [newline]

/-- The bytes of the control stream. -/
def EventCodec.stream (codec : EventCodec) (events : List TunnelEvent) : Bytes :=
  events.flatMap codec.message

structure ControlDecoder where
  pending : Bytes

namespace ControlDecoder

def default : ControlDecoder := ⟨[]⟩

/-- The loop of `push`: takes out line after line, and stops at one that is no event. -/
def takeEvents (codec : EventCodec) (pending : Bytes) (events : List TunnelEvent) :
    Except ProtocolError (List TunnelEvent) × ControlDecoder :=
  match _ : pending.findIdx? (· == newline) with
  | none => (.ok events, ⟨pending⟩)
  | some stop =>
    let line := pending.take (stop + 1)
    let rest := pending.drop (stop + 1)
    match codec.fromSlice (line.take (line.length - 1)) with
    | none => (.error .invalidEncoding, ⟨rest⟩)
    | some event => takeEvents codec rest (events ++ [event])
termination_by pending.length
decreasing_by
  have hlt := (List.findIdx?_eq_some_iff_getElem.mp ‹_›).1
  rw [List.length_drop]
  omega

def push (codec : EventCodec) (decoder : ControlDecoder) (chunk : Bytes) :
    Except ProtocolError (List TunnelEvent) × ControlDecoder :=
  if chunk.length > maxControlBody ∨ decoder.pending.length + chunk.length > maxControlBody then
    (.error .tooLarge, decoder)
  else takeEvents codec (decoder.pending ++ chunk) []

/-- Chunk after chunk, up to the first error. -/
def pushEach (codec : EventCodec) (decoder : ControlDecoder) :
    List Bytes → Except ProtocolError (List TunnelEvent) × ControlDecoder
  | [] => (.ok [], decoder)
  | chunk :: chunks =>
    match decoder.push codec chunk with
    | (.error e, decoder) => (.error e, decoder)
    | (.ok events, decoder) =>
      ((pushEach codec decoder chunks).1.map (events ++ ·), (pushEach codec decoder chunks).2)

/-- The decoder after pushes that may fail. -/
def afterPushes (codec : EventCodec) (decoder : ControlDecoder) (chunks : List Bytes) :
    ControlDecoder :=
  chunks.foldl (fun decoder chunk => (decoder.push codec chunk).2) decoder

/-- The client's event loop over the DATA frames: it ends with the first error. -/
def pushAll (codec : EventCodec) (decoder : ControlDecoder) :
    List Bytes → Except ProtocolError (List TunnelEvent)
  | [] => .ok []
  | chunk :: chunks =>
    match decoder.push codec chunk with
    | (.error e, _) => .error e
    | (.ok events, decoder) => (pushAll codec decoder chunks).map (events ++ ·)

end ControlDecoder

end BloomRelay.Protocol
