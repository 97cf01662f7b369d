import BloomRelay.Protocol.Basic
import BloomRelay.Store.Schema

/-!
# The client address of a control connection (`bloom-relay-control`, `client_addr.rs`)

HAProxy writes a PROXY protocol v2 header at the start of each connection. The reader takes the header
from the stream and leaves what follows it to TLS. A stream is what the peer sends before it closes.
An index out of range would be a panic: a computation that could have one is an `Option`, `none` if it
panics.
-/

namespace BloomRelay.ClientAddr

open Protocol Store

/-- `b"\r\n\r\n\0\r\nQUIT\n"`. -/
def signature : Bytes := [13, 10, 13, 10, 0, 13, 10, 81, 85, 73, 84, 10]

/-- Longest address block plus TLVs accepted. -/
def maxBody : Nat := 512

inductive IoError where
  | unexpectedEof
  | invalidData (message : String)
  deriving DecidableEq

structure SocketAddr where
  ip : IpAddr
  port : BitVec 16
  deriving DecidableEq

/-- The number that bytes are the big-endian encoding of (`from_be_bytes`). -/
def ofBeBytes (bytes : Bytes) : Nat := bytes.foldl (fun n b => n * 256 + b.toNat) 0

/-- `Ipv6Addr::to_canonical`: an IPv4-mapped address is the IPv4 address. -/
def toCanonical (bits : BitVec 128) : IpAddr :=
  if bits >>> 32 = 0xffff then .v4 (bits.setWidth 32) else .v6 bits

def invalid {α : Type} (message : String) : Except IoError α := .error (.invalidData message)

def bodyLength (head : Vector UInt8 16) : Except IoError Nat :=
  if head.toList.take 12 ≠ signature then
    invalid "connection did not start with a PROXY v2 header"
  else
    let length := ofBeBytes [head[14], head[15]]
    if length > maxBody then invalid "PROXY v2 header too long" else .ok length

/-- The source of TCP over IPv4: source, destination, source port, destination port. -/
def tcp4 (body : Bytes) : Option SocketAddr := do
  let a ← body[0]?
  let b ← body[1]?
  let c ← body[2]?
  let d ← body[3]?
  let high ← body[8]?
  let low ← body[9]?
  some ⟨.v4 (BitVec.ofNat 32 (ofBeBytes [a, b, c, d])), BitVec.ofNat 16 (ofBeBytes [high, low])⟩

/-- The source of TCP over IPv6. -/
def tcp6 (body : Bytes) : Option SocketAddr := do
  let octets ← if body.length < 16 then none else some (body.take 16)
  let high ← body[32]?
  let low ← body[33]?
  some ⟨toCanonical (BitVec.ofNat 128 (ofBeBytes octets)), BitVec.ofNat 16 (ofBeBytes [high, low])⟩

/-- The client address a header names, or `none` for a `LOCAL` connection. -/
def parse (head : Vector UInt8 16) (body : Bytes) :
    Option (Except IoError (Option SocketAddr)) :=
  match bodyLength head with
  | .error e => some (.error e)
  | .ok length =>
    if length ≠ body.length then some (invalid "PROXY v2 header length mismatch")
    else if head[12] >>> 4 ≠ 2 then some (invalid "unsupported PROXY protocol version")
    else if head[12] &&& 0x0f = 0 then some (.ok none)
    else if head[12] &&& 0x0f ≠ 1 then some (invalid "unsupported PROXY v2 command")
    else if head[13] = 0x11 ∧ body.length ≥ 12 then (tcp4 body).map fun addr => .ok (some addr)
    else if head[13] = 0x21 ∧ body.length ≥ 36 then (tcp6 body).map fun addr => .ok (some addr)
    else some (invalid "PROXY v2 header is not TCP over IPv4 or IPv6")

/-- `read_exact` of the first 16 bytes, and what is left in the stream. -/
def readHead (stream : Bytes) : Except IoError (Vector UInt8 16 × Bytes) :=
  if h : 16 ≤ stream.length then
    .ok (⟨(stream.take 16).toArray, by
      rw [List.size_toArray, List.length_take]
      omega⟩, stream.drop 16)
  else .error .unexpectedEof

/-- `read_exact` of `length` bytes, and what is left in the stream. -/
def readBody (length : Nat) (stream : Bytes) : Except IoError (Bytes × Bytes) :=
  if length ≤ stream.length then .ok (stream.take length, stream.drop length)
  else .error .unexpectedEof

/-- Read exactly one PROXY v2 header, leaving the TLS bytes behind it unread: the address, and the
rest of the stream. -/
def readProxyV2 (stream : Bytes) : Option (Except IoError (Option SocketAddr × Bytes)) :=
  match readHead stream with
  | .error e => some (.error e)
  | .ok (head, stream) =>
    match bodyLength head with
    | .error e => some (.error e)
    | .ok length =>
      match readBody length stream with
      | .error e => some (.error e)
      | .ok (body, rest) => (parse head body).map fun result => result.map fun addr => (addr, rest)

end BloomRelay.ClientAddr
