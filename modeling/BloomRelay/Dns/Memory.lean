import BloomRelay.Dns.Records
import Std.Data.TreeMap

/-!
# The provider in memory (`bloom-relay-dns`, `lib.rs`)

The deterministic provider of the fault-injection and ownership tests. It keeps what it is told, and
so it says what the other providers should publish.
-/

namespace BloomRelay.Dns

open Protocol Store Checked

structure MemoryState where
  names : Std.TreeMap String NameRecords
  challenges : Std.TreeMap String (List String)

namespace MemoryState

def records (state : MemoryState) (hostname : String) : Option NameRecords := state.names[hostname]?

def challenge (state : MemoryState) (hostname : String) : List String :=
  state.challenges[hostname]?.getD []

def publishName (state : MemoryState) (records : NameRecords) : Except DnsError MemoryState := do
  validateRecords records
  .ok { state with names := state.names.insert records.hostname records }

def setChallenge (state : MemoryState) (hostname : String) (values : List String) :
    Except DnsError MemoryState := do
  let _ ← challengeName hostname
  validateChallengeValues values
  if values.isEmpty then .ok { state with challenges := state.challenges.erase hostname }
  else .ok { state with challenges := state.challenges.insert hostname values }

def retireName (state : MemoryState) (hostname : String) : Except DnsError MemoryState := do
  require (validateHostname hostname = .ok ()) .invalidHostname
  .ok { state with names := state.names.erase hostname }

def retireChallenge (state : MemoryState) (hostname : String) : Except DnsError MemoryState := do
  let _ ← challengeName hostname
  .ok { state with challenges := state.challenges.erase hostname }

/-- A call of the provider. -/
def call (state : MemoryState) : Write → Except DnsError MemoryState
  | .publishName records => state.publishName records
  | .setChallenge hostname values => state.setChallenge hostname values
  | .retireName hostname => state.retireName hostname
  | .retireChallenge hostname => state.retireChallenge hostname

end MemoryState

end BloomRelay.Dns
