import BloomRelay.Protocol.Basic
import BloomRelay.Lib.Checked

/-!
# Signed control requests (`bloom-relay-protocol`)

`AuthClaims` and their verification. Canonical JSON, the signature scheme, its key and signature
formats and the hash are third-party code and stand as parameters.
-/

namespace BloomRelay.Protocol

open Checked

/-- `Scope`. -/
inductive Scope where
  | surfaceAdmin
  | tunnel
  | dnsChallenge
  deriving DecidableEq

/-- `Action`: the control operation a signature authorizes. -/
inductive Action where
  | enroll
  | issueCredential
  | registerAcmeAccount
  | installationStatus
  | retireInstallation
  deriving DecidableEq

/-- `AuthClaims`. -/
structure AuthClaims where
  version : Nat
  installationId : Uuid
  scope : Scope
  action : Action
  generation : Nat
  audience : String
  operationId : Uuid
  nonce : String
  expiresAtMs : Nat
  bodySha256 : String
  deriving DecidableEq

/-- `SignedRequest`. -/
structure SignedRequest (α : Type) where
  claims : AuthClaims
  body : α
  signature : String
  deriving DecidableEq

/-- The primitives of other crates. -/
structure Crypto where
  sha256 : Bytes → Bytes32
  /-- `serde_jcs::to_vec` of the claims. -/
  jcs : AuthClaims → Option Bytes
  /-- `VerifyingKey::from_bytes` accepts the key. -/
  verifyingKey : Bytes32 → Bool
  /-- `URL_SAFE_NO_PAD.decode` and `Signature::from_slice`. -/
  decodeSignature : String → Option Bytes
  /-- `VerifyingKey::verify`: key, message, signature. -/
  verifies : Bytes32 → Bytes → Bytes → Bool

def hexDigit (n : Nat) : Char := "0123456789abcdef".toList.getD n '0'

/-- Lower-case hexadecimal digits, two for each byte. -/
def hexEncode (bytes : Bytes) : String :=
  String.ofList (bytes.flatMap fun b => [hexDigit (b.toNat / 16), hexDigit (b.toNat % 16)])

def hexDigit? (c : Char) : Option Nat :=
  if c.isDigit then some (c.toNat - '0'.toNat)
  else if 'a' ≤ c ∧ c ≤ 'f' then some (c.toNat - 'a'.toNat + 10)
  else if 'A' ≤ c ∧ c ≤ 'F' then some (c.toNat - 'A'.toNat + 10)
  else none

/-- `hex::decode`. -/
def hexDecode : List Char → Option Bytes
  | [] => some []
  | [_] => none
  | high :: low :: rest =>
    match hexDigit? high, hexDigit? low, hexDecode rest with
    | some h, some l, some bytes => some (UInt8.ofNat (16 * h + l) :: bytes)
    | _, _, _ => none

/-- A 32-byte array from its bytes. -/
def bytes32? (bytes : Bytes) : Option Bytes32 :=
  if bytes.length = 32 then
    some (BitVec.ofNat 256 (bytes.foldl (fun n b => 256 * n + b.toNat) 0))
  else none

/-- `now_ms.saturating_add(60_000)`. -/
def latestExpiry (nowMs : Nat) : Nat := min (nowMs + 60000) (2 ^ 64 - 1)

section Crypto

variable (crypto : Crypto)

def sha256Hex (bytes : Bytes) : String := hexEncode (beBytes 32 (crypto.sha256 bytes))

namespace AuthClaims

/-- RFC 8785 canonical JSON, separated from other signatures. -/
def signingBytes (claims : AuthClaims) : Except ProtocolError Bytes := do
  require (claims.version = wireVersion) .incompatibleVersion
  let json ← found (crypto.jcs claims) .invalidEncoding
  .ok (utf8 "bloom-relay/control/v1\x00" ++ json)

def verify (claims : AuthClaims) (body : Bytes) (signature : String) (key : Bytes32)
    (requiredScope : Scope) (requiredAction : Action) (audience : String) (nowMs : Nat) :
    Except ProtocolError Unit := do
  require (claims.scope = requiredScope ∧ claims.action = requiredAction ∧
    claims.audience = audience) .unauthorized
  require (nowMs < claims.expiresAtMs ∧ claims.expiresAtMs ≤ latestExpiry nowMs) .expired
  require (body.length ≤ maxControlBody) .tooLarge
  require (sha256Hex crypto body = claims.bodySha256) .invalidSignature
  let signature ← found (crypto.decodeSignature signature) .invalidSignature
  let message ← claims.signingBytes crypto
  require (crypto.verifies key message signature = true) .invalidSignature

end AuthClaims

end Crypto

end BloomRelay.Protocol
