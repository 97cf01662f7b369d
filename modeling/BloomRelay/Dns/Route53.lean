import BloomRelay.Dns.Records
import BloomRelay.Lib.Run
import Mathlib.Data.List.DropRight

/-!
# The Route 53 provider (`bloom-relay-dns`, `route53.rs`)

Route 53 keeps record sets, one for a name and a type, and takes changes in batches that are applied
wholly or not at all. A call lists what it needs to see and sends at most one batch.

`ListResourceRecordSets` gives the sets in the order of their names, from the one it is asked to
start with; the sets at that name come first. Names come back with their final dot.
-/

namespace BloomRelay.Dns.Route53

open Protocol Store Checked

inductive RrType where
  | a
  | aaaa
  | caa
  | txt
  | other (name : String)
  deriving DecidableEq

structure ResourceRecordSet where
  name : String
  kind : RrType
  ttl : Nat
  values : List String
  deriving DecidableEq

inductive ChangeAction where
  | upsert
  | delete
  deriving DecidableEq

structure Change where
  action : ChangeAction
  recordSet : ResourceRecordSet
  deriving DecidableEq

/-! ## The changes of a call -/

/-- `str::trim_end_matches('.')`. -/
def trimDots (s : String) : String := String.ofList (s.toList.rdropWhile (· = '.'))

def change (name : String) (kind : RrType) (ttl : Nat) (values : List String)
    (action : ChangeAction) : Except DnsError Change := do
  require (values ≠ []) .invalidChange
  .ok ⟨action, ⟨name, kind, ttl, values⟩⟩

/-- The addresses of a family, if there are any. -/
def upsertAddresses (name : String) (kind : RrType) (texts : List String) :
    Except DnsError (List Change) :=
  if texts.isEmpty then .ok [] else (change name kind ttlSeconds texts .upsert).map ([·])

section Calls

variable (ipText : IpAddr → String) (listing : List ResourceRecordSet)

/-- The addresses of the two families, as texts. -/
def ipv4Texts (addresses : List IpAddr) : List String :=
  addresses.filterMap fun
    | .v4 bits => some (ipText (.v4 bits))
    | .v6 _ => none

def ipv6Texts (addresses : List IpAddr) : List String :=
  addresses.filterMap fun
    | .v4 _ => none
    | .v6 bits => some (ipText (.v6 bits))

def publishName (records : NameRecords) : Except DnsError (List Change) := do
  validateRecords records
  let ipv4 := ipv4Texts ipText records.addresses
  let ipv6 := ipv6Texts ipText records.addresses
  let stale := (listing.filter fun s => trimDots s.name = records.hostname &&
    ((s.kind = .a && ipv4.isEmpty) || (s.kind = .aaaa && ipv6.isEmpty))).map (⟨.delete, ·⟩)
  let a ← upsertAddresses records.hostname .a ipv4
  let aaaa ← upsertAddresses records.hostname .aaaa ipv6
  let values ← caaValues records.acmeAccountUri
  let caa ← change records.hostname .caa ttlSeconds values .upsert
  .ok (stale ++ a ++ aaaa ++ [caa])

def retireChallenge (hostname : String) : Except DnsError (List Change) := do
  let name ← challengeName hostname
  match listing.find? fun s => trimDots s.name = name && s.kind = .txt with
  | none => .ok []
  | some recordSet => .ok [⟨.delete, recordSet⟩]

def setChallenge (hostname : String) (values : List String) : Except DnsError (List Change) := do
  let name ← challengeName hostname
  validateChallengeValues values
  if values.isEmpty then retireChallenge listing hostname
  else
    -- one record set holds every value; an UPSERT replaces it whole
    let upsert ← change name .txt 30 (values.map fun value => "\"" ++ value ++ "\"") .upsert
    .ok [upsert]

def retireName (hostname : String) : Except DnsError (List Change) := do
  require (validateHostname hostname = .ok ()) .invalidHostname
  .ok ((listing.filter fun s => trimDots s.name = hostname &&
    (s.kind = .a || s.kind = .aaaa || s.kind = .caa)).map (⟨.delete, ·⟩))

/-- The batch of a call; no batch is sent if it is empty. -/
def changes : Write → Except DnsError (List Change)
  | .publishName records => publishName ipText listing records
  | .setChallenge hostname values => setChallenge listing hostname values
  | .retireName hostname => retireName listing hostname
  | .retireChallenge hostname => retireChallenge listing hostname

end Calls

/-- `max_items` of the listing of a call. -/
def maxItems : Write → Nat
  | .publishName _ | .retireName _ => 10
  | .setChallenge _ _ | .retireChallenge _ => 2

/-! ## The hosted zone -/

/-- The name as Route 53 shows it. -/
def fqdn (name : String) : String := trimDots name ++ "."

theorem trimDots_append_dot (s : String) : trimDots (s ++ ".") = trimDots s := by
  unfold trimDots
  rw [String.toList_append]
  exact congrArg String.ofList (List.rdropWhile_concat_pos _ _ _ rfl)

theorem trimDots_trimDots (s : String) : trimDots (trimDots s) = trimDots s := by
  unfold trimDots
  rw [String.toList_ofList, List.rdropWhile_idempotent]

@[simp] theorem trimDots_fqdn (s : String) : trimDots (fqdn s) = trimDots s := by
  rw [fqdn, trimDots_append_dot, trimDots_trimDots]

structure HostedZone where
  sets : List ResourceRecordSet
  /-- There is one set for a name and a type. -/
  distinct : (sets.map fun s => (s.name, s.kind)).Nodup
  /-- Names end with a dot. -/
  named : ∀ s ∈ sets, fqdn s.name = s.name

namespace HostedZone

def setsAt (zone : HostedZone) (name : String) : List ResourceRecordSet :=
  zone.sets.filter fun s => trimDots s.name = name

/-- The sets of other names or types than the change's. -/
def othersOf (c : Change) (sets : List ResourceRecordSet) : List ResourceRecordSet :=
  sets.filter fun s => (s.name, s.kind) ≠ (fqdn c.recordSet.name, c.recordSet.kind)

/-- A change replaces, or takes away, the set of its name and type. -/
def applyChange (zone : HostedZone) (c : Change) : HostedZone :=
  have hdistinct : ((othersOf c zone.sets).map fun s => (s.name, s.kind)).Nodup :=
    (List.filter_sublist.map _).nodup zone.distinct
  have hnamed : ∀ s ∈ othersOf c zone.sets, fqdn s.name = s.name := fun s hs =>
    zone.named s (List.mem_filter.1 hs).1
  match c.action with
  | .delete => ⟨othersOf c zone.sets, hdistinct, hnamed⟩
  | .upsert =>
    { sets := othersOf c zone.sets ++ [{ c.recordSet with name := fqdn c.recordSet.name }]
      distinct := by
        rw [List.map_append]
        refine List.nodup_append.2 ⟨hdistinct, List.nodup_singleton _, fun a ha b hb heq => ?_⟩
        obtain ⟨s, hs, rfl⟩ := List.mem_map.1 ha
        have hne := of_decide_eq_true (List.mem_filter.1 hs).2
        exact hne (heq.trans (List.mem_singleton.1 hb))
      named := by
        intro s hs
        rcases List.mem_append.1 hs with hs | hs
        · exact hnamed s hs
        · rw [List.mem_singleton.1 hs]
          show trimDots (fqdn c.recordSet.name) ++ "." = fqdn c.recordSet.name
          rw [trimDots_fqdn, fqdn] }

/-- The zone after a batch. -/
def apply (zone : HostedZone) (batch : List Change) : HostedZone := batch.foldl applyChange zone

/-- A listing of at most `n` sets from a name on. -/
def Lists (zone : HostedZone) (name : String) (n : Nat) (listing : List ResourceRecordSet) : Prop :=
  ∃ here later : List ResourceRecordSet, here.Perm (zone.setsAt name) ∧
    (∀ s ∈ later, trimDots s.name ≠ name) ∧ listing = (here ++ later).take n

end HostedZone

/-! ## Calls as steps -/

/-- A call and what it returns. -/
structure Returned where
  write : Write
  result : Except DnsError Unit

inductive Route53Step (ipText : IpAddr → String) : HostedZone → Returned → HostedZone → Prop where
  /-- The call is refused before it sends anything. -/
  | refused {zone listing write e} (hlist : zone.Lists write.recordName (maxItems write) listing)
      (h : changes ipText listing write = .error e) :
      Route53Step ipText zone ⟨write, .error e⟩ zone
  /-- There is nothing to change. -/
  | nothing {zone listing write} (hlist : zone.Lists write.recordName (maxItems write) listing)
      (h : changes ipText listing write = .ok []) : Route53Step ipText zone ⟨write, .ok ()⟩ zone
  /-- The batch is applied and answered. -/
  | answered {zone listing write batch}
      (hlist : zone.Lists write.recordName (maxItems write) listing)
      (h : changes ipText listing write = .ok batch) (hbatch : batch ≠ []) :
      Route53Step ipText zone ⟨write, .ok ()⟩ (zone.apply batch)
  /-- The batch is applied, but the call does not learn of it. -/
  | lost {zone listing write batch}
      (hlist : zone.Lists write.recordName (maxItems write) listing)
      (h : changes ipText listing write = .ok batch) (hbatch : batch ≠ []) :
      Route53Step ipText zone ⟨write, .error .unavailable⟩ (zone.apply batch)
  /-- The listing or the batch fails and nothing is applied. -/
  | failed {zone write} : Route53Step ipText zone ⟨write, .error .unavailable⟩ zone

end BloomRelay.Dns.Route53
