import BloomRelay.Dns.Records
import BloomRelay.Lib.Run
import Mathlib.Data.List.Infix
import Mathlib.Data.List.Sort
import Mathlib.Logic.Function.Basic
import Std.Data.TreeMap

/-!
# The Cloudflare provider (`bloom-relay-dns`, `cloudflare.rs`)

A call of the provider lists the records at one name, decides from the list what to write, and then
writes one record after the other; the first request that fails ends it. What it writes is therefore
a list of requests, computed from the listing before the first of them is made.

The zone is on the other side of the API. A request that is answered was applied; one that fails was
applied or was not. The API gives a new record an ID that no other record has, and lists the records
of a name in any order.
-/

namespace BloomRelay.Dns.Cloudflare

open Protocol Store Checked

def servingComment : String := "bloom-relay serving v1"
def challengePrefix : String := "bloom-relay challenge v1 "

/-- The comment of the records created for the challenge set. -/
def challengeComment : String := "bloom-relay challenge v1 set"

/-- `CloudflareScope`. -/
inductive Scope where
  | serving
  | challenge
  deriving DecidableEq

structure CaaData where
  flags : UInt8
  tag : String
  value : String
  deriving DecidableEq

structure Record where
  id : String
  name : String
  kind : String
  content : String
  ttl : Nat
  proxied : Bool
  comment : String
  data : Option CaaData
  deriving DecidableEq

structure RecordKey where
  kind : String
  content : String
  deriving DecidableEq

/-- The derived order: by kind, then by content. -/
instance : Ord RecordKey := ⟨compareLex (compareOn RecordKey.kind) (compareOn RecordKey.content)⟩

/-- The JSON body of a request; a field that is none is not in it. -/
structure Body where
  kind : String
  name : String
  content : Option String
  ttl : Nat
  proxied : Option Bool
  comment : String
  data : Option CaaData
  deriving DecidableEq

structure ServingPlan where
  stale : List Record
  missing : List Body
  updates : List (Record × Body)

/-! ## What a serving name should hold -/

def Record.key (record : Record) : Except DnsError RecordKey :=
  if record.kind = "CAA" then do
    let data ← found record.data .conflict
    require (data.flags = 0 ∧ (data.tag = "issue" ∨ data.tag = "issuewild")) .conflict
    .ok ⟨record.kind, data.tag ++ ":" ++ data.value⟩
  else .ok ⟨record.kind, record.content⟩

/-- The entry of an address; `ipText` is its `to_string`. -/
def addressEntry (ipText : IpAddr → String) (hostname : String) (ip : IpAddr) : RecordKey × Body :=
  let kind := match ip with
    | .v4 _ => "A"
    | .v6 _ => "AAAA"
  (⟨kind, ipText ip⟩,
    { kind, name := hostname, content := some (ipText ip), ttl := ttlSeconds, proxied := some false
      comment := servingComment, data := none })

/-- The entry of a CAA value: the tag is read off its text. -/
def caaEntry (hostname acmeAccountUri value : String) : RecordKey × Body :=
  let (tag, content) :=
    if " issuewild ".toList <:+: value.toList then ("issuewild", ";")
    else ("issue", issueValue acmeAccountUri)
  (⟨"CAA", tag ++ ":" ++ content⟩,
    { kind := "CAA", name := hostname, content := none, ttl := ttlSeconds, proxied := none
      comment := servingComment, data := some ⟨0, tag, content⟩ })

/-- Adds the entry of an address unless its key is there already. -/
def pushAddress (desired : List (RecordKey × Body)) (entry : RecordKey × Body) :
    List (RecordKey × Body) :=
  if desired.any (fun existing => existing.1 = entry.1) then desired else desired ++ [entry]

def servingDesired (ipText : IpAddr → String) (records : NameRecords) :
    Except DnsError (List (RecordKey × Body)) := do
  validateRecords records
  let addresses := (records.addresses.map (addressEntry ipText records.hostname)).foldl pushAddress []
  let values ← caaValues records.acmeAccountUri
  .ok (addresses ++ values.map (caaEntry records.hostname records.acmeAccountUri))

/-! ## The plan -/

/-- The listed records so far: the desired keys that are there, the records to delete and those to
change in place. -/
structure Sorted where
  found : List RecordKey
  stale : List Record
  updates : List (Record × Body)

/-- A record of a desired key stays, and is changed in place if it has drifted. -/
def Sorted.keep (sorted : Sorted) (record : Record) (body : Body) : Sorted :=
  if record.ttl ≠ ttlSeconds ∨ record.proxied = true then
    { sorted with updates := (record, body) :: sorted.updates }
  else sorted

/-- The loop over the listed records. The first record of a desired key stays, every other one of
the served kinds is stale, and a record the relay did not write ends the attempt. -/
def sortRecords (desired : Std.TreeMap RecordKey Body) (found : List RecordKey) :
    List Record → Except DnsError Sorted
  | [] => .ok ⟨found, [], []⟩
  | record :: rest =>
    if record.kind = "CNAME" ∨ record.kind = "NS" then .error .conflict
    else if record.kind ≠ "A" ∧ record.kind ≠ "AAAA" ∧ record.kind ≠ "CAA" then
      sortRecords desired found rest
    else if record.comment ≠ servingComment then .error .conflict
    else do
      let key ← record.key
      match desired[key]? with
      | some body =>
        if key ∈ found then do
          let sorted ← sortRecords desired found rest
          .ok { sorted with stale := record :: sorted.stale }
        else do
          let sorted ← sortRecords desired (key :: found) rest
          .ok (sorted.keep record body)
      | none => do
        let sorted ← sortRecords desired found rest
        .ok { sorted with stale := record :: sorted.stale }

/-- A child CAA RRset stops CAA inheritance: the wildcard denial is installed before the account
authorization. -/
def createRank (body : Body) : Nat :=
  match body.kind, body.data.map CaaData.tag with
  | "CAA", some "issuewild" => 0
  | "CAA", some "issue" => 1
  | _, _ => 2

/-- The authorization is removed before the final denial. -/
def deleteRank (record : Record) : Nat :=
  match record.kind, record.data.map CaaData.tag with
  | "CAA", some "issue" => 0
  | "CAA", some "issuewild" => 2
  | _, _ => 1

def planServing (existing : List Record) (desired : List (RecordKey × Body)) :
    Except DnsError ServingPlan := do
  let desiredMap : Std.TreeMap RecordKey Body := .ofList desired
  let sorted ← sortRecords desiredMap [] existing
  let missing := desiredMap.toList.filterMap fun (key, body) =>
    if key ∈ sorted.found then none else some body
  .ok {
    stale := sorted.stale.insertionSort fun a b => deleteRank a ≤ deleteRank b
    missing := missing.insertionSort fun a b => createRank a ≤ createRank b
    updates := sorted.updates }

/-! ## The requests of a call -/

def validId (id : String) : Bool :=
  id.utf8ByteSize = 32 &&
    id.toList.all fun c => c.isDigit || ('a' ≤ c && c ≤ 'f') || ('A' ≤ c && c ≤ 'F')

/-- The checks of `list`. The 1000 records of a page are all there may be. -/
def listed (name : String) (records : List Record) : Except DnsError (List Record) := do
  require (records.length ≤ 1000 ∧
    records.all (fun r => r.name = name && validId r.id) = true) .unavailable
  .ok records

/-- A request that changes the zone. -/
inductive Request where
  | create (body : Body)
  | update (record : Record) (body : Body)
  | delete (record : Record)
  deriving DecidableEq

def reconcileServing (name : String) (listing : List Record) (desired : List (RecordKey × Body)) :
    Except DnsError (List Request) := do
  let existing ← listed name listing
  let plan ← planServing existing desired
  .ok (plan.missing.map .create ++ plan.updates.map (fun u => .update u.1 u.2) ++
    plan.stale.map .delete)

/-- A TXT value without its quotes. -/
def unquote (content : String) : String :=
  ((stripPrefix? "\"" content).bind (stripSuffix? "\"")).getD content

def txtContent (record : Record) : String := unquote record.content

def challengeManaged (record : Record) : Bool :=
  challengePrefix.toList.isPrefixOf record.comment.toList

/-- The loop over the listed TXT records: the values that are there, one record of each is kept, and
the records to delete. -/
def sortChallenge (values kept : List String) : List Record → List String × List Record
  | [] => (kept, [])
  | record :: rest =>
    if txtContent record ∈ values ∧ txtContent record ∉ kept then
      sortChallenge values (txtContent record :: kept) rest
    else
      ((sortChallenge values kept rest).1, record :: (sortChallenge values kept rest).2)

def challengeBody (name value : String) : Body where
  kind := "TXT"
  name := name
  content := some ("\"" ++ value ++ "\"")
  ttl := 60
  proxied := none
  comment := challengeComment
  data := none

section Calls

variable (ipText : IpAddr → String) (scope : Scope) (listing : List Record)

def publishName (records : NameRecords) : Except DnsError (List Request) := do
  require (scope = .serving) .invalidChange
  let desired ← servingDesired ipText records
  reconcileServing records.hostname listing desired

def setChallenge (hostname : String) (values : List String) : Except DnsError (List Request) := do
  require (scope = .challenge) .invalidChange
  validateChallengeValues values
  let name ← challengeName hostname
  let records ← listed name listing
  -- only relay-managed TXT records may exist at the challenge name
  require (records.all (fun r => r.kind = "TXT" && challengeManaged r) = true) .conflict
  let (kept, rest) := sortChallenge values [] records
  .ok (rest.map .delete ++
    (values.filter (fun value => value ∉ kept)).map fun value => .create (challengeBody name value))

def retireName (hostname : String) : Except DnsError (List Request) := do
  require (scope = .serving) .invalidChange
  require (validateHostname hostname = .ok ()) .invalidHostname
  let all ← listed hostname listing
  let records := all.filter fun r => r.kind = "A" || r.kind = "AAAA" || r.kind = "CAA"
  require (records.all (fun r => r.comment = servingComment) = true) .conflict
  require (records.all (fun r => r.kind ≠ "CAA" || r.key.toBool) = true) .conflict
  .ok ((records.insertionSort fun a b => deleteRank a ≤ deleteRank b).map .delete)

def retireChallenge (hostname : String) : Except DnsError (List Request) := do
  require (scope = .challenge) .invalidChange
  let name ← challengeName hostname
  let all ← listed name listing
  let records := all.filter fun r => r.kind = "TXT"
  require (records.all challengeManaged = true) .conflict
  .ok (records.map .delete)

/-- The requests of a call of the provider, in the order in which it makes them. -/
def requests : Write → Except DnsError (List Request)
  | .publishName records => publishName ipText scope listing records
  | .setChallenge hostname values => setChallenge scope listing hostname values
  | .retireName hostname => retireName scope listing hostname
  | .retireChallenge hostname => retireChallenge scope listing hostname

end Calls

/-! ## The zone -/

/-- The text of a CAA record, as the API shows it. -/
def CaaData.content (data : CaaData) : String :=
  toString data.flags.toNat ++ " " ++ data.tag ++ " \"" ++ data.value ++ "\""

/-- The record that a create makes. -/
def Body.record (body : Body) (id : String) : Record where
  id := id
  name := body.name
  kind := body.kind
  content := (body.content <|> body.data.map CaaData.content).getD ""
  ttl := body.ttl
  proxied := body.proxied.getD false
  comment := body.comment
  data := body.data

/-- What a `PATCH` makes of a record: fields that are not in the body stay. -/
def Body.patch (body : Body) (record : Record) : Record where
  id := record.id
  name := body.name
  kind := body.kind
  content := (body.content <|> body.data.map CaaData.content).getD record.content
  ttl := body.ttl
  proxied := body.proxied.getD record.proxied
  comment := body.comment
  data := body.data <|> record.data

/-- The records after a request was applied; `id` is the ID of the record that it may create. -/
def Request.apply (id : String) (records : List Record) : Request → List Record
  | .create body => records ++ [body.record id]
  | .update record body => records.map fun r => if r.id = record.id then body.patch r else r
  | .delete record => records.filter fun r => r.id ≠ record.id

structure Zone where
  records : List Record
  /-- No two records have one ID. -/
  ids_nodup : (records.map Record.id).Nodup

namespace Zone

def recordsAt (zone : Zone) (name : String) : List Record :=
  zone.records.filter fun r => r.name = name

/-- The zone after a request was applied, unless the ID of a new record is taken. -/
def attempt (zone : Zone) (id : String) (request : Request) : Option Zone :=
  if h : ((request.apply id zone.records).map Record.id).Nodup then
    some ⟨request.apply id zone.records, h⟩
  else none

end Zone

/-! ## Calls and requests as steps -/

/-- A call under way and the requests it has still to make. -/
structure Attempt where
  write : Write
  requests : List Request
  deriving DecidableEq

/-- The zone and the calls under way, at most one for each name. -/
structure Api where
  zone : Zone
  attempts : String → Option Attempt

inductive Action where
  /-- A call begins and gets its listing. It fails at once if the listing does not suit it. -/
  | start (scope : Scope) (write : Write) (listing : List Record)
  /-- The next request of a call is applied and answered. -/
  | answer (name id : String)
  /-- The next request of a call is applied, but the call does not learn of it and fails. -/
  | lose (name id : String)
  /-- The next request of a call fails and is not applied, or the process dies before it. -/
  | drop (name : String)
  /-- A call that has made all its requests returns `Ok`. -/
  | finish (name : String)
  deriving DecidableEq

namespace Api

/-- No call is under way. -/
def idle (zone : Zone) : Api := ⟨zone, fun _ => none⟩

def setAttempt (g : Api) (name : String) (attempt : Option Attempt) : Api :=
  { g with attempts := Function.update g.attempts name attempt }

/-- The next request at a name is applied; `next` says how its call goes on. -/
def applyNext (g : Api) (name id : String) (next : Attempt → Option Attempt) :
    Option Api :=
  match g.attempts name with
  | some ⟨write, request :: rest⟩ =>
    (g.zone.attempt id request).map fun zone =>
      { g with zone }.setAttempt name (next ⟨write, rest⟩)
  | _ => none

def step (ipText : IpAddr → String) (g : Api) : Action → Option Api
  | .start scope write listing =>
    if g.attempts write.recordName = none ∧
        listing.Perm (g.zone.recordsAt write.recordName) then
      match requests ipText scope listing write with
      | .ok requests => some (g.setAttempt write.recordName (some ⟨write, requests⟩))
      | .error _ => some g
    else none
  | .answer name id => g.applyNext name id some
  | .lose name id => g.applyNext name id fun _ => none
  | .drop name => if (g.attempts name).isSome then some (g.setAttempt name none) else none
  | .finish name =>
    if (g.attempts name).any (fun a => a.requests.isEmpty) then some (g.setAttempt name none)
    else none

end Api

/-- An action as a step. -/
def ApiStep (ipText : IpAddr → String) (g : Api) (action : Action)
    (g' : Api) : Prop := g.step ipText action = some g'

/-- The runs from a zone with no call under way. -/
abbrev ApiRun (ipText : IpAddr → String) (zone : Zone) :
    List (Event Api Action) → Api → Prop :=
  Run (ApiStep ipText) (Api.idle zone)

end BloomRelay.Dns.Cloudflare
