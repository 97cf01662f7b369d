import BloomRelay.Store.Schema
import BloomRelay.Lib.Checked
import Mathlib.Data.List.Dedup

/-!
# What the DNS providers publish (`bloom-relay-dns`)

The argument types of a provider and the checks a change has to pass before a provider writes it.
A call of a provider is a `Write`.
-/

namespace BloomRelay.Dns

open Protocol Store Checked

def ttlSeconds : Nat := 300

inductive DnsError where
  | invalidHostname
  | invalidChange
  | unavailable
  | conflict
  deriving DecidableEq

structure NameRecords where
  hostname : String
  addresses : List IpAddr
  acmeAccountUri : String
  deriving DecidableEq

/-- `IpAddr::is_unspecified`. -/
def isUnspecified : IpAddr → Bool
  | .v4 bits => bits = 0
  | .v6 bits => bits = 0

def validateRecords (records : NameRecords) : Except DnsError Unit := do
  require (validateHostname records.hostname = .ok ()) .invalidHostname
  require (records.addresses ≠ [] ∧ records.addresses.length ≤ 4 ∧
    records.addresses.any isUnspecified = false ∧
    (validateAcmeAccountUri records.acmeAccountUri).toBool = true) .invalidChange

/-- What follows the tag of the `issue` record. -/
def issueValue (acmeAccountUri : String) : String :=
  "letsencrypt.org; validationmethods=dns-01; accounturi=" ++ acmeAccountUri

def caaValues (acmeAccountUri : String) : Except DnsError (List String) := do
  require ((validateAcmeAccountUri acmeAccountUri).toBool = true) .invalidChange
  .ok ["0 issue \"" ++ issueValue acmeAccountUri ++ "\"", "0 issuewild \";\""]

def challengeName (hostname : String) : Except DnsError String := do
  require (validateHostname hostname = .ok ()) .invalidHostname
  .ok ("_acme-challenge." ++ hostname)

/-- A challenge set the relay may publish: distinct DNS-01 values, bounded. -/
def validateChallengeValues (values : List String) : Except DnsError Unit :=
  if values.length > maxLiveChallengeValues ∨ values.dedup.length ≠ values.length ∨
      values.any (fun value => validateChallengeValue value ≠ .ok ()) then
    .error .invalidChange
  else .ok ()

/-- The calls of `Provider`. -/
inductive Write where
  | publishName (records : NameRecords)
  | setChallenge (hostname : String) (values : List String)
  | retireName (hostname : String)
  | retireChallenge (hostname : String)
  deriving DecidableEq

namespace Write

def hostname : Write → String
  | .publishName records => records.hostname
  | .setChallenge hostname _ | .retireName hostname | .retireChallenge hostname => hostname

/-- The name whose records a call changes. -/
def recordName : Write → String
  | .publishName records => records.hostname
  | .retireName hostname => hostname
  | .setChallenge hostname _ | .retireChallenge hostname => "_acme-challenge." ++ hostname

/-- The set a call leaves at the challenge name of its hostname, if it writes there. -/
def challengeSet? : Write → Option (List String)
  | .setChallenge _ values => some values
  | .retireChallenge _ => some []
  | _ => none

/-- The call takes records away. -/
def removes : Write → Bool
  | .retireName _ | .retireChallenge _ => true
  | .publishName _ | .setChallenge _ _ => false

end Write

end BloomRelay.Dns
