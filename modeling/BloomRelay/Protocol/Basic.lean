import BloomRelay.Lib.Decimal

/-!
# Wire types and their validation (`bloom-relay-protocol`)

Identifiers, limits and the pure checks of the protocol crate that the store, the control service
and the gateway share. Lengths are byte lengths, as Rust's `len` counts them.
-/

namespace BloomRelay

/-- A byte string. -/
abbrev Bytes := List UInt8

/-- A `Uuid`. -/
abbrev Uuid := BitVec 128

/-- A 32-byte array: a SHA-256 digest or an Ed25519 public key. -/
abbrev Bytes32 := BitVec 256

/-- The bytes of a string. -/
def utf8 (s : String) : Bytes := s.toUTF8.data.toList

/-- The big-endian bytes of a bit vector, `n` of them. -/
def beBytes {w : Nat} (n : Nat) (v : BitVec w) : Bytes :=
  (List.range n).map fun i => UInt8.ofNat (v.toNat >>> (8 * (n - 1 - i)))

/-- `str::strip_prefix`. -/
def stripPrefix? (pre s : String) : Option String :=
  if pre.toList.isPrefixOf s.toList then some (String.ofList (s.toList.drop pre.toList.length))
  else none

/-- `str::strip_suffix`. -/
def stripSuffix? (suf s : String) : Option String :=
  if suf.toList.isSuffixOf s.toList then
    some (String.ofList (s.toList.take (s.toList.length - suf.toList.length)))
  else none

/-- `u64 as i64`: the number a `u64` becomes when it is bound to a `BIGINT` parameter. -/
def i64OfU64 (n : Nat) : Int := if n < 2 ^ 63 then n else n - 2 ^ 64

namespace Protocol

def wireVersion : Nat := 1
def maxControlBody : Nat := 16 * 1024
def maxClientHello : Nat := 64 * 1024
def maxInstallationStreams : Nat := 128
def maxGatewayStreams : Nat := 10000
def bufferPerDirection : Nat := 64 * 1024
def bufferBudget : Nat := 256 * 1024 * 1024
def maxAcmeAccountUriLen : Nat := 200
def challengeValueLifetimeMs : Nat := 5 * 60 * 1000
def maxLiveChallengeValues : Nat := 2

/-- `ProtocolError`. -/
inductive ProtocolError where
  | incompatibleVersion
  | invalidEncoding
  | unauthorized
  | expired
  | tooLarge
  | invalidSignature
  | invalidHostname
  | invalidAcmeEnvironment
  | invalidAcmeAccountUri
  deriving DecidableEq

/-- `AcmeEnvironment`. -/
inductive AcmeEnvironment where
  | production
  | staging
  deriving DecidableEq

def AcmeEnvironment.accountUriPrefix : AcmeEnvironment → String
  | .production => "https://acme-v02.api.letsencrypt.org/acme/acct/"
  | .staging => "https://acme-staging-v02.api.letsencrypt.org/acme/acct/"

def AcmeEnvironment.validateAccountUri (e : AcmeEnvironment) (accountUri : String) :
    Except ProtocolError Unit :=
  if accountUri.utf8ByteSize > maxAcmeAccountUriLen then .error .invalidAcmeAccountUri
  else match stripPrefix? e.accountUriPrefix accountUri with
    | none => .error .invalidAcmeAccountUri
    | some accountId =>
      if accountId.isEmpty || !accountId.toList.all Char.isDigit then
        .error .invalidAcmeAccountUri
      else .ok ()

def validateAcmeAccountUri (accountUri : String) : Except ProtocolError AcmeEnvironment :=
  if AcmeEnvironment.production.validateAccountUri accountUri = .ok () then .ok .production
  else if AcmeEnvironment.staging.validateAccountUri accountUri = .ok () then .ok .staging
  else .error .invalidAcmeAccountUri

/-- `AllocationState`, the `state` column of `installations`. -/
inductive AllocationState where
  | pendingDns
  | dnsReady
  | retired
  deriving DecidableEq

/-- `Allocation`. -/
structure Allocation where
  version : Nat
  installationId : Uuid
  hostname : String
  placement : String
  state : AllocationState
  deriving DecidableEq

/-- `CertificateMetadata`. -/
structure CertificateMetadata where
  hostname : String
  acmeAccountUri : String
  keyFingerprint : String
  lineage : String
  notBeforeMs : Nat
  notAfterMs : Nat
  deriving DecidableEq

/-- An ACME DNS-01 TXT value: base64url SHA-256, 43 characters. -/
def validateChallengeValue (value : String) : Except ProtocolError Unit :=
  if value.utf8ByteSize = 43 ∧
      value.toList.all (fun c => c.isAlphanum || c == '-' || c == '_') = true then .ok ()
  else .error .invalidEncoding

def validateHostname (hostname : String) : Except ProtocolError Unit :=
  match stripSuffix? ".relay.bloom.directory" hostname with
  | none => .error .invalidHostname
  | some label =>
    if label.utf8ByteSize ≠ 26 ∨
        label.toList.all (fun c => c.isLower || c.isDigit) = false then
      .error .invalidHostname
    else .ok ()

end Protocol

end BloomRelay
