import BloomRelay.Protocol.Receipt
import Mathlib.Data.List.DropRight

/-!
# What the Broker keeps and trusts (`bloom-relay-client`)

The errors of the client, the file that holds a bearer token, and the check of an expiry that the relay
names in an answer.
-/

namespace BloomRelay.Client

open Protocol Checked

/-- `ClientError`. -/
inductive ClientError where
  | invalidConfiguration
  | incompatibleProtocol (offered supported : Nat)
  | transport
  | tunnelRetired
  | rejected
  | refused (status : Nat)
  deriving DecidableEq

/-- `u64::saturating_add`. -/
def saturatingAdd (a b : Nat) : Nat := min (a + b) (2 ^ 64 - 1)

def trustedResponseExpiry (expiresAtMs nowMs lifetimeMs : Nat) : Bool :=
  nowMs < expiresAtMs &&
    expiresAtMs ≤ saturatingAdd (saturatingAdd nowMs lifetimeMs) trustedResponseClockSkewMs

/-! ## Tokens -/

/-- The form of a bearer token. -/
def tokenForm (token : String) : Bool :=
  43 ≤ token.utf8ByteSize && token.utf8ByteSize ≤ 128 &&
    token.toList.all fun c => c.isAlphanum || c == '-' || c == '_'

def validateToken (token : String) : Except ClientError Unit :=
  require (tokenForm token = true) .invalidConfiguration

/-- What a path names. The contents are missing if they cannot be read or are not UTF-8. -/
structure CredentialFile where
  isFile : Bool
  length : Nat
  mode : Nat
  contents : Option String

/-- `str::trim_end_matches(['\n', '\r'])`. -/
def trimLineEnds (s : String) : String :=
  String.ofList (s.toList.rdropWhile fun c => c == '\n' || c == '\r')

/-- `read_credential`; there is no file if the path names nothing. -/
def readCredential (file : Option CredentialFile) : Except ClientError String := do
  let file ← found file .invalidConfiguration
  require (file.isFile = true ∧ file.length ≤ 256) .invalidConfiguration
  -- nobody but the owner has access
  require (file.mode &&& 0o077 = 0) .invalidConfiguration
  let contents ← found file.contents .invalidConfiguration
  require (tokenForm (trimLineEnds contents) = true) .invalidConfiguration
  .ok (trimLineEnds contents)

end BloomRelay.Client
