import BloomRelay.Protocol.Auth

/-!
# Allocation receipts (`bloom-relay-protocol`)

The receipt the relay signs for a new installation, and its verification by the Signer, which pins the
relay's current key and the one that will follow it.
-/

namespace BloomRelay.Protocol

open Checked

def trustedResponseClockSkewMs : Nat := 5000

/-- `AllocationReceipt`. -/
structure AllocationReceipt where
  allocation : Allocation
  operationId : Uuid
  /-- Lower-case SHA-256 of the installation's admin public key. -/
  adminKeySha256 : String
  issuedAtMs : Nat
  signature : String
  deriving DecidableEq

namespace AllocationReceipt

section Crypto

/- `jcs` is `serde_jcs::to_vec` of the four signed parts of a receipt. -/
variable (crypto : Crypto) (jcs : Allocation → Uuid → String → Nat → Option Bytes)

def signedBytes (receipt : AllocationReceipt) : Except ProtocolError Bytes := do
  require (receipt.allocation.version = wireVersion) .incompatibleVersion
  let json ← found
    (jcs receipt.allocation receipt.operationId receipt.adminKeySha256 receipt.issuedAtMs)
    .invalidEncoding
  .ok (utf8 "bloom-relay/allocation-receipt/v1\x00" ++ json)

def verify (receipt : AllocationReceipt) (relayKey : Bytes32) (operationId : Uuid)
    (adminPublicKey : Bytes32) (nowMs : Nat) : Except ProtocolError Unit := do
  validateHostname receipt.allocation.hostname
  require (receipt.operationId = operationId ∧
    receipt.adminKeySha256 = sha256Hex crypto (beBytes 32 adminPublicKey) ∧
    receipt.issuedAtMs ≤ min (nowMs + trustedResponseClockSkewMs) (2 ^ 64 - 1) ∧
    nowMs - receipt.issuedAtMs ≤ 300000) .unauthorized
  let signature ← found (crypto.decodeSignature receipt.signature) .invalidSignature
  let message ← receipt.signedBytes jcs
  require (crypto.verifies relayKey message signature = true) .invalidSignature

/-- The loop of `verify_bytes`: `result` is that of the key before. -/
def verifyLoop (receipt : AllocationReceipt) (operationId : Uuid) (adminPublicKey : Bytes32)
    (nowMs : Nat) (result : Except ProtocolError Unit) : List Bytes32 → Except ProtocolError Unit
  | [] => result
  | relayPublicKey :: rest => do
    require (crypto.verifyingKey relayPublicKey = true) .invalidSignature
    match receipt.verify crypto jcs relayPublicKey operationId adminPublicKey nowMs with
    | .error .invalidSignature =>
      receipt.verifyLoop operationId adminPublicKey nowMs (.error .invalidSignature) rest
    | result => result

/-- Verification against a pinned set of receipt keys. -/
def verifyBytes (receipt : AllocationReceipt) (relayPublicKeys : List Bytes32) (operationId : Uuid)
    (adminPublicKey : Bytes32) (nowMs : Nat) : Except ProtocolError Unit :=
  receipt.verifyLoop crypto jcs operationId adminPublicKey nowMs (.error .invalidSignature)
    relayPublicKeys

end Crypto

end AllocationReceipt

end BloomRelay.Protocol
