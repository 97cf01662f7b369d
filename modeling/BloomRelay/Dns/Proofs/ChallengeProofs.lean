import BloomRelay.Dns.Route53
import BloomRelay.Dns.Proofs.ChallengeZoneProofs

/-!
# The challenge sets of the three providers

Cloudflare changes a challenge set record by record, Route 53 replaces one record set, and the
provider in memory keeps a map. From every zone that holds only the relay's TXT records at a challenge
name, and whatever calls were cut off before, a call that returns `Ok` has published its values.
-/

namespace BloomRelay.Dns

open Protocol Store Checked

variable {ipText : IpAddr → String} {write : Write} {name hostname : String} {values : List String}

namespace Route53

variable {zone zone' : HostedZone} {listing sets : List ResourceRecordSet} {batch : List Change}
  {c : Change} {s : ResourceRecordSet} {tr : List (Event HostedZone Returned)}
  {result : Except DnsError Unit}

/-! ## Names -/

/-- A hostname has no final dot, and neither has a name that ends with it. -/
theorem trimDots_of_hostname (front : String) (h : validateHostname hostname = .ok ()) :
    trimDots (front ++ hostname) = front ++ hostname := by
  obtain ⟨label, hlabel, -⟩ := Cloudflare.validateHostname_ok h
  have hzone : ".relay.bloom.directory".toList = ".relay.bloom.director".toList ++ ['y'] := by
    decide +kernel
  have hlast : (front ++ hostname).toList =
      (front.toList ++ (label.toList ++ ".relay.bloom.director".toList)) ++ ['y'] := by
    rw [String.toList_append, hlabel, hzone, List.append_assoc, List.append_assoc]
  unfold trimDots
  rw [hlast, List.rdropWhile_concat_neg _ _ _ (by decide), ← hlast, String.ofList_toList]

theorem trimDots_hostname (h : validateHostname hostname = .ok ()) : trimDots hostname = hostname := by
  have htrim := trimDots_of_hostname "" h
  rwa [String.empty_append] at htrim

theorem challengeName_eq (h : challengeName hostname = .ok name) :
    validateHostname hostname = .ok () ∧ name = "_acme-challenge." ++ hostname := by
  obtain ⟨_, hhost, hname⟩ := bind_eq_ok.1 h
  exact ⟨require_eq_ok.1 hhost, (Except.ok.inj hname).symm⟩

/-! ## What a batch touches -/

theorem change_ok {kind : RrType} {ttl : Nat} {action : ChangeAction}
    (h : change name kind ttl values action = .ok c) :
    c = ⟨action, ⟨name, kind, ttl, values⟩⟩ := by
  obtain ⟨_, -, h⟩ := bind_eq_ok.1 h
  exact (Except.ok.inj h).symm

theorem retireChallenge_txt (h : retireChallenge listing hostname = .ok batch) :
    ∀ c ∈ batch, c.recordSet.kind = .txt := by
  obtain ⟨challenge, -, h⟩ := bind_eq_ok.1 h
  cases hfind : listing.find? fun s => trimDots s.name = challenge && s.kind = .txt with
  | none =>
    simp only [hfind] at h
    rw [← Except.ok.inj h]
    exact fun c hc => absurd hc List.not_mem_nil
  | some recordSet =>
    simp only [hfind] at h
    rw [← Except.ok.inj h]
    have hfound := List.find?_some hfind
    rw [Bool.and_eq_true, decide_eq_true_iff, decide_eq_true_iff] at hfound
    intro c hc
    rw [List.mem_singleton.1 hc]
    exact hfound.2

theorem upsertAddresses_name {kind : RrType} (h : upsertAddresses name kind values = .ok batch) :
    ∀ c ∈ batch, c.recordSet.name = name := by
  unfold upsertAddresses at h
  split_ifs at h
  · rw [← Except.ok.inj h]
    exact fun c hc => absurd hc List.not_mem_nil
  · cases hchange : change name kind ttlSeconds values .upsert with
    | error e =>
      rw [hchange] at h
      cases h
    | ok c' =>
      rw [hchange] at h
      rw [← Except.ok.inj h]
      intro c hc
      rw [List.mem_singleton.1 hc, change_ok hchange]

/-- A change is about TXT records, or about records at a hostname. -/
theorem changes_txt (h : changes ipText listing write = .ok batch) :
    ∀ c ∈ batch, c.recordSet.kind = .txt ∨ validateHostname (trimDots c.recordSet.name) = .ok () := by
  cases write with
  | publishName records =>
    obtain ⟨_, hvalid, h⟩ := bind_eq_ok.1 h
    obtain ⟨a, ha, h⟩ := bind_eq_ok.1 h
    obtain ⟨aaaa, haaaa, h⟩ := bind_eq_ok.1 h
    obtain ⟨_, -, h⟩ := bind_eq_ok.1 h
    obtain ⟨caa, hcaa, h⟩ := bind_eq_ok.1 h
    obtain ⟨_, hhost, -⟩ := bind_eq_ok.1 hvalid
    have hhost := require_eq_ok.1 hhost
    have hnamed : ∀ c : Change, c.recordSet.name = records.hostname →
        validateHostname (trimDots c.recordSet.name) = .ok () := fun c hc => by
      rw [hc, trimDots_hostname hhost, hhost]
    rw [← Except.ok.inj h]
    intro c hc
    right
    rcases List.mem_append.1 hc with hc | hc
    · rcases List.mem_append.1 hc with hc | hc
      · rcases List.mem_append.1 hc with hc | hc
        · obtain ⟨s, hs, rfl⟩ := List.mem_map.1 hc
          have hs := (Bool.and_eq_true _ _ ▸ (List.mem_filter.1 hs).2).1
          rw [of_decide_eq_true hs, hhost]
        · exact hnamed c (upsertAddresses_name ha c hc)
      · exact hnamed c (upsertAddresses_name haaaa c hc)
    · rw [List.mem_singleton.1 hc]
      exact hnamed caa (by rw [change_ok hcaa])
  | setChallenge host values =>
    obtain ⟨challenge, hname, h⟩ := bind_eq_ok.1 h
    obtain ⟨_, -, h⟩ := bind_eq_ok.1 h
    split_ifs at h
    · exact fun c hc => .inl (retireChallenge_txt h c hc)
    · obtain ⟨upsert, hupsert, h⟩ := bind_eq_ok.1 h
      rw [← Except.ok.inj h, change_ok hupsert]
      intro c hc
      rw [List.mem_singleton.1 hc]
      exact .inl rfl
  | retireName host =>
    obtain ⟨_, hhost, h⟩ := bind_eq_ok.1 h
    rw [← Except.ok.inj h]
    intro c hc
    obtain ⟨s, hs, rfl⟩ := List.mem_map.1 hc
    have hs := (Bool.and_eq_true _ _ ▸ (List.mem_filter.1 hs).2).1
    rw [of_decide_eq_true hs]
    exact .inr (require_eq_ok.1 hhost)
  | retireChallenge host => exact fun c hc => .inl (retireChallenge_txt h c hc)

/-! ## The zone at a challenge name -/

/-- Every record set at the name holds TXT records. -/
def HostedZone.Managed (zone : HostedZone) (name : String) : Prop :=
  ∀ s ∈ zone.setsAt name, s.kind = .txt

/-- The published values, without their quotes. -/
def HostedZone.published (zone : HostedZone) (name : String) : List String :=
  ((zone.setsAt name).flatMap ResourceRecordSet.values).map Cloudflare.unquote

theorem mem_sets_applyChange (h : s ∈ (zone.applyChange c).sets) :
    s ∈ HostedZone.othersOf c zone.sets ∨
      c.action = .upsert ∧ s = { c.recordSet with name := fqdn c.recordSet.name } := by
  unfold HostedZone.applyChange at h
  cases haction : c.action with
  | delete =>
    simp only [haction] at h
    exact .inl h
  | upsert =>
    simp only [haction] at h
    exact (List.mem_append.1 h).imp_right fun hs => ⟨rfl, List.mem_singleton.1 hs⟩

theorem HostedZone.Managed.applyChange (h : zone.Managed ("_acme-challenge." ++ hostname))
    (hc : c.recordSet.kind = .txt ∨ validateHostname (trimDots c.recordSet.name) = .ok ()) :
    (zone.applyChange c).Managed ("_acme-challenge." ++ hostname) := by
  intro s hs
  obtain ⟨hs, hname⟩ := List.mem_filter.1 hs
  rcases mem_sets_applyChange hs with hs | ⟨-, rfl⟩
  · exact h s (List.mem_filter.2 ⟨(List.mem_filter.1 hs).1, hname⟩)
  · refine hc.resolve_right fun hhost => ?_
    have hname : trimDots (fqdn c.recordSet.name) = _ := of_decide_eq_true hname
    rw [trimDots_fqdn] at hname
    exact Cloudflare.challenge_not_hostname hostname (hname ▸ hhost)

theorem HostedZone.Managed.apply (h : zone.Managed ("_acme-challenge." ++ hostname))
    (hbatch : ∀ c ∈ batch, c.recordSet.kind = .txt ∨
      validateHostname (trimDots c.recordSet.name) = .ok ()) :
    (zone.apply batch).Managed ("_acme-challenge." ++ hostname) := by
  induction batch generalizing zone with
  | nil => exact h
  | cons c rest ih =>
    exact ih (h.applyChange (hbatch c List.mem_cons_self)) fun c' hc' =>
      hbatch c' (List.mem_cons_of_mem _ hc')

theorem HostedZone.Managed.step {r : Returned} (h : zone.Managed ("_acme-challenge." ++ hostname))
    (hstep : Route53Step ipText zone r zone') : zone'.Managed ("_acme-challenge." ++ hostname) := by
  cases hstep with
  | refused _ _ => exact h
  | nothing _ _ => exact h
  | answered _ hbatch _ => exact h.apply (changes_txt hbatch)
  | lost _ hbatch _ => exact h.apply (changes_txt hbatch)
  | failed => exact h

/-- A change of the TXT records at a challenge name leaves no other set there. -/
theorem othersOf_at_name (h : zone.Managed name) (hname : trimDots c.recordSet.name = name)
    (hkind : c.recordSet.kind = .txt) :
    ((HostedZone.othersOf c zone.sets).filter fun s => trimDots s.name = name) = [] := by
  refine List.filter_eq_nil_iff.2 fun s hs hat => ?_
  obtain ⟨hs, hother⟩ := List.mem_filter.1 hs
  have hat := of_decide_eq_true hat
  have hkindAt : s.kind = .txt := h s (List.mem_filter.2 ⟨hs, decide_eq_true hat⟩)
  refine of_decide_eq_true hother ?_
  rw [hkindAt, hkind, ← zone.named s hs, fqdn, fqdn, hat, hname]

/-- The record sets of a challenge set. -/
def challengeSets (name : String) (values : List String) : List ResourceRecordSet :=
  if values.isEmpty then []
  else [⟨fqdn name, .txt, 30, values.map fun value => "\"" ++ value ++ "\""⟩]

theorem setsAt_upsert (h : zone.Managed name) (hname : trimDots s.name = name)
    (hkind : s.kind = .txt) :
    (zone.applyChange ⟨.upsert, s⟩).setsAt name = [{ s with name := fqdn s.name }] := by
  have hnew : decide (trimDots (fqdn s.name) = name) = true := by
    rw [trimDots_fqdn]
    exact decide_eq_true hname
  have hothers := @othersOf_at_name name zone ⟨.upsert, s⟩ h hname hkind
  have hsets : (zone.applyChange ⟨.upsert, s⟩).sets =
      HostedZone.othersOf ⟨.upsert, s⟩ zone.sets ++ [{ s with name := fqdn s.name }] := rfl
  unfold HostedZone.setsAt
  rw [hsets, List.filter_append, hothers, List.nil_append, List.filter_cons, if_pos hnew,
    List.filter_nil]

theorem setsAt_delete (h : zone.Managed name) (hname : trimDots s.name = name)
    (hkind : s.kind = .txt) : (zone.applyChange ⟨.delete, s⟩).setsAt name = [] :=
  @othersOf_at_name name zone ⟨.delete, s⟩ h hname hkind

/-- A listing shows the record sets at its name first. -/
theorem setsAt_eq_nil_of_find? {n : Nat} (h : zone.Managed name)
    (hlist : zone.Lists name (n + 1) listing)
    (hfind : (listing.find? fun s => trimDots s.name = name && s.kind = .txt) = none) :
    zone.setsAt name = [] := by
  obtain ⟨here, later, hhere, -, rfl⟩ := hlist
  cases here with
  | nil => exact hhere.symm.eq_nil
  | cons s rest =>
    have hs : s ∈ zone.setsAt name := hhere.mem_iff.1 List.mem_cons_self
    rw [List.cons_append, List.take_succ_cons] at hfind
    have hfound := List.find?_eq_none.1 hfind s List.mem_cons_self
    rw [Bool.and_eq_true, (List.mem_filter.1 hs).2, h s hs] at hfound
    exact absurd ⟨rfl, rfl⟩ hfound

/-- What the calls at a challenge name leave there when they return `Ok`. -/
theorem retire_ok (h : zone.Managed name) (hlist : zone.Lists name 2 listing)
    (hname : challengeName hostname = .ok name) (hok : retireChallenge listing hostname = .ok batch) :
    (zone.apply batch).setsAt name = [] := by
  obtain ⟨challenge, hchallenge, hok⟩ := bind_eq_ok.1 hok
  obtain rfl := Except.ok.inj (hname.symm.trans hchallenge)
  cases hfind : listing.find? fun s => trimDots s.name = name && s.kind = .txt with
  | none =>
    simp only [hfind] at hok
    rw [← Except.ok.inj hok]
    exact setsAt_eq_nil_of_find? h hlist hfind
  | some recordSet =>
    simp only [hfind] at hok
    rw [← Except.ok.inj hok]
    have hfound := List.find?_some hfind
    rw [Bool.and_eq_true, decide_eq_true_iff, decide_eq_true_iff] at hfound
    exact setsAt_delete h hfound.1 hfound.2

/-- A batch at a challenge name leaves the set of its call there, as the provider in memory. -/
theorem changes_challenge (h : zone.Managed ("_acme-challenge." ++ hostname))
    (hname : write.recordName = "_acme-challenge." ++ hostname)
    (hlist : zone.Lists write.recordName (maxItems write) listing)
    (hok : changes ipText listing write = .ok batch) :
    ∃ values, Cloudflare.ChallengeCall write hostname values ∧
      (zone.apply batch).setsAt ("_acme-challenge." ++ hostname) =
        challengeSets ("_acme-challenge." ++ hostname) values := by
  cases write with
  | publishName records =>
    obtain ⟨_, hvalid, -⟩ := bind_eq_ok.1 hok
    obtain ⟨_, hhost, -⟩ := bind_eq_ok.1 hvalid
    have hhost := require_eq_ok.1 hhost
    rw [show records.hostname = _ from hname] at hhost
    exact absurd hhost (Cloudflare.challenge_not_hostname hostname)
  | retireName host =>
    obtain ⟨_, hhost, -⟩ := bind_eq_ok.1 hok
    have hhost := require_eq_ok.1 hhost
    rw [show host = _ from hname] at hhost
    exact absurd hhost (Cloudflare.challenge_not_hostname hostname)
  | setChallenge host values =>
    obtain rfl : host = hostname := (String.append_right_inj _).1 hname
    obtain ⟨challenge, hchallenge, hok⟩ := bind_eq_ok.1 hok
    obtain ⟨_, hvalues, hok⟩ := bind_eq_ok.1 hok
    obtain ⟨hhost, rfl⟩ := challengeName_eq hchallenge
    refine ⟨values, ⟨rfl, rfl, Cloudflare.nodup_of_validateChallengeValues hvalues,
      fun published => Cloudflare.setChallenge_agrees hchallenge hvalues⟩, ?_⟩
    split_ifs at hok with hempty
    · rw [retire_ok h hlist hchallenge hok, challengeSets, if_pos hempty]
    · obtain ⟨upsert, hupsert, hok⟩ := bind_eq_ok.1 hok
      obtain rfl := Except.ok.inj hok
      obtain rfl := change_ok hupsert
      rw [challengeSets, if_neg hempty]
      exact setsAt_upsert h (trimDots_of_hostname _ hhost) rfl
  | retireChallenge host =>
    obtain rfl : host = hostname := (String.append_right_inj _).1 hname
    have hhost : validateHostname host = .ok () := by
      obtain ⟨_, hchallenge, -⟩ := bind_eq_ok.1 hok
      exact (challengeName_eq hchallenge).1
    have hchallenge : challengeName host = .ok ("_acme-challenge." ++ host) :=
      bind_eq_ok.2 ⟨(), require_eq_ok.2 hhost, rfl⟩
    refine ⟨[], ⟨rfl, rfl, .nil, fun published hperm => ?_⟩, retire_ok h hlist hchallenge hok⟩
    rw [hperm.eq_nil]
    exact Cloudflare.retireChallenge_agrees hchallenge

theorem published_challengeSets (h : zone.setsAt name = challengeSets name values) :
    zone.published name = values := by
  unfold HostedZone.published
  rw [h, challengeSets]
  split_ifs with hempty
  · exact (List.isEmpty_iff.1 hempty).symm
  · rw [List.flatMap_singleton, List.map_map]
    exact (List.map_congr_left fun value _ => Cloudflare.unquote_quoted value).trans (List.map_id _)

/-- A call about a challenge that returns `Ok` has published its values, wherever the calls before
it stopped. -/
theorem challenge_returned (hmanaged : zone.Managed ("_acme-challenge." ++ hostname))
    (hname : write.recordName = "_acme-challenge." ++ hostname)
    (hstep : Route53Step ipText zone ⟨write, .ok ()⟩ zone') :
    ∃ values, Cloudflare.ChallengeCall write hostname values ∧
      zone'.setsAt ("_acme-challenge." ++ hostname) =
        challengeSets ("_acme-challenge." ++ hostname) values := by
  cases hstep with
  | nothing hlist hok => exact changes_challenge hmanaged hname hlist hok
  | answered hlist hok _ => exact changes_challenge hmanaged hname hlist hok

theorem managed_run (hmanaged : zone.Managed ("_acme-challenge." ++ hostname))
    (hrun : Run (Route53Step ipText) zone tr zone') :
    zone'.Managed ("_acme-challenge." ++ hostname) :=
  hrun.state_invariant (HostedZone.Managed · _) hmanaged fun _ _ _ h hs => h.step hs

/-- A call that sends no batch changes nothing. -/
theorem Route53Step.of_error (h : ∀ listing batch, changes ipText listing write ≠ .ok batch)
    (hstep : Route53Step ipText zone ⟨write, result⟩ zone') : result ≠ .ok () ∧ zone' = zone := by
  cases hstep with
  | refused _ _ => exact ⟨fun hok => (nomatch hok), rfl⟩
  | failed => exact ⟨fun hok => (nomatch hok), rfl⟩
  | nothing _ hok => exact absurd hok (h _ _)
  | answered _ hok _ => exact absurd hok (h _ _)
  | lost _ hok _ => exact absurd hok (h _ _)

end Route53

/-! ## Calls that are refused -/

/-- A call whose listing does not suit it makes no request. -/
theorem start_of_error {g g' : Cloudflare.Api} {scope : Cloudflare.Scope}
    {listing : List Cloudflare.Record} {e : DnsError}
    (h : Cloudflare.requests ipText scope listing write = .error e)
    (hstep : Cloudflare.ApiStep ipText g (.start scope write listing) g') : g' = g := by
  unfold Cloudflare.ApiStep Cloudflare.Api.step at hstep
  simp only [h] at hstep
  split_ifs at hstep
  exact (Option.some.inj hstep).symm

theorem exists_error_of_ne_ok {α : Type} {r : Except DnsError α} (h : ∀ a, r ≠ .ok a) :
    ∃ e, r = .error e := by
  cases r with
  | error e => exact ⟨e, rfl⟩
  | ok a => exact absurd rfl (h a)

/-- A call works on the records at its name. -/
theorem start_listing {g g' : Cloudflare.Api} {scope : Cloudflare.Scope}
    {listing : List Cloudflare.Record}
    (hstep : Cloudflare.ApiStep ipText g (.start scope write listing) g') :
    listing.Perm (g.zone.recordsAt write.recordName) := by
  unfold Cloudflare.ApiStep Cloudflare.Api.step at hstep
  simp only at hstep
  split_ifs at hstep with hstart
  exact hstart.2

open Cloudflare in
/-- From every zone with only the relay's TXT records at a challenge name, and whatever calls were
made and cut off before: a call that returns `Ok` has published its values, each once, and they are
the values the provider in memory holds after the same call. Values that do not pass
`validateChallengeValues` are written nowhere, and a foreign record at the name keeps Cloudflare's
`setChallenge` from writing. A call that is repeated until it returns `Ok` applies, in all, the
requests of one call that was not cut off. -/
theorem challenge_providers_agree (ipText : IpAddr → String) (hostname : String) :
    (∀ (zone : Zone) (tr : List (Event Api Cloudflare.Action)) (g g' : Api),
      (∀ r ∈ zone.recordsAt ("_acme-challenge." ++ hostname), r.Managed) → ApiRun ipText zone tr g →
      ApiStep ipText g (.finish ("_acme-challenge." ++ hostname)) g' →
      ∃ a, g.attempts ("_acme-challenge." ++ hostname) = some a ∧
        Agrees ((g'.zone.recordsAt ("_acme-challenge." ++ hostname)).map txtContent) a.write) ∧
    (∀ (zone z z' : Route53.HostedZone) (tr : List (Event Route53.HostedZone Route53.Returned))
      (write : Write), zone.Managed ("_acme-challenge." ++ hostname) →
      Run (Route53.Route53Step ipText) zone tr z →
      write.recordName = "_acme-challenge." ++ hostname →
      Route53.Route53Step ipText z ⟨write, .ok ()⟩ z' →
      Agrees (z'.published ("_acme-challenge." ++ hostname)) write) ∧
    (∀ values, validateChallengeValues values ≠ .ok () →
      (∀ g scope listing g', ApiStep ipText g (.start scope (.setChallenge hostname values) listing) g' →
        g' = g) ∧
      (∀ z result z', Route53.Route53Step ipText z ⟨.setChallenge hostname values, result⟩ z' →
        result ≠ .ok () ∧ z' = z) ∧
      ∀ m : MemoryState, ∃ e, m.call (.setChallenge hostname values) = .error e) ∧
    (∀ g scope values listing g',
      (∃ r ∈ g.zone.recordsAt ("_acme-challenge." ++ hostname), ¬ r.Managed) →
      ApiStep ipText g (.start scope (.setChallenge hostname values) listing) g' →
      (∃ e, requests ipText scope listing (.setChallenge hostname values) = .error e) ∧ g' = g) ∧
    (∀ (zone : Zone) (tr : List (Event Api Cloudflare.Action)) (g g' : Api) (write : Write),
      (∀ r ∈ zone.recordsAt ("_acme-challenge." ++ hostname), r.Managed) → ApiRun ipText zone tr g →
      (∀ e ∈ tr, Repeats ("_acme-challenge." ++ hostname) write e) →
      ApiStep ipText g (.finish ("_acme-challenge." ++ hostname)) g' →
      ∃ scope reqs,
        requests ipText scope (zone.recordsAt ("_acme-challenge." ++ hostname)) write = .ok reqs ∧
        Applied reqs (zone.recordsAt ("_acme-challenge." ++ hostname))
          (g'.zone.recordsAt ("_acme-challenge." ++ hostname))) ∧
    ∀ (zone z z₁ z₂ : Route53.HostedZone) (tr : List (Event Route53.HostedZone Route53.Returned))
      (write : Write), zone.Managed ("_acme-challenge." ++ hostname) →
      write.recordName = "_acme-challenge." ++ hostname →
      Route53.Route53Step ipText zone ⟨write, .ok ()⟩ z₁ →
      Run (Route53.Route53Step ipText) zone tr z → Route53.Route53Step ipText z ⟨write, .ok ()⟩ z₂ →
      z₂.setsAt ("_acme-challenge." ++ hostname) = z₁.setsAt ("_acme-challenge." ++ hostname) := by
  refine ⟨fun zone tr g g' hmanaged hrun hstep => challenge_finished hmanaged hrun hstep,
    fun zone z z' tr write hmanaged hrun hname hstep => ?_, fun values hinvalid => ⟨?_, ?_, ?_⟩,
    fun g scope values listing g' hforeign hstep => ?_,
    fun zone tr g g' write hmanaged hrun hrepeats hstep =>
      repeated_finished hmanaged hrun hrepeats hstep,
    fun zone z z₁ z₂ tr write hmanaged hname hfirst hrun hlast => ?_⟩
  · obtain ⟨values, hcall, hsets⟩ :=
      Route53.challenge_returned (Route53.managed_run hmanaged hrun) hname hstep
    rw [Route53.published_challengeSets hsets]
    exact hcall.agrees values (.refl _)
  · intro g scope listing g' hstep
    obtain ⟨e, he⟩ : ∃ e, requests ipText scope listing (.setChallenge hostname values) = .error e :=
      exists_error_of_ne_ok fun reqs hok => hinvalid (setChallenge_ok hok).1
    exact start_of_error he hstep
  · intro z result z' hstep
    refine Route53.Route53Step.of_error (fun listing batch hok => ?_) hstep
    obtain ⟨_, -, hok⟩ := bind_eq_ok.1 hok
    obtain ⟨_, hvalues, -⟩ := bind_eq_ok.1 hok
    exact hinvalid hvalues
  · intro m
    refine exists_error_of_ne_ok fun m' hok => ?_
    obtain ⟨_, -, hok⟩ := bind_eq_ok.1 hok
    obtain ⟨_, hvalues, -⟩ := bind_eq_ok.1 hok
    exact hinvalid hvalues
  · obtain ⟨r, hr, hunmanaged⟩ := hforeign
    obtain ⟨e, he⟩ : ∃ e, requests ipText scope listing (.setChallenge hostname values) = .error e := by
      refine exists_error_of_ne_ok fun reqs hok => ?_
      obtain ⟨-, -, hall, -⟩ := setChallenge_ok hok
      exact hunmanaged (hall r ((start_listing hstep).mem_iff.2 hr))
    exact ⟨⟨e, he⟩, start_of_error he hstep⟩
  · obtain ⟨values, hcall, hsets⟩ := Route53.challenge_returned hmanaged hname hfirst
    obtain ⟨values', hcall', hsets'⟩ :=
      Route53.challenge_returned (Route53.managed_run hmanaged hrun) hname hlast
    obtain rfl := Option.some.inj (hcall.set.symm.trans hcall'.set)
    rw [hsets, hsets']

/-! A set with a value published twice; the call is cut off after its first create and made again. -/

def challengeHost : String := "abcdefghijklmnopqrstuv2345.relay.bloom.directory"

def keptValue : String := "AAAAAAAAAAAAAAAAAAAAAAAAAAAAAAAAAAAAAAAAAAA"

def newValue : String := "BBBBBBBBBBBBBBBBBBBBBBBBBBBBBBBBBBBBBBBBBBB"

open Cloudflare in
def challengeRecord (value id : String) : Record :=
  (challengeBody ("_acme-challenge." ++ challengeHost) value).record id

open Cloudflare in
def challengeZone : Zone where
  records := [challengeRecord keptValue "aaaaaaaaaaaaaaaaaaaaaaaaaaaaaaaa",
    challengeRecord keptValue "bbbbbbbbbbbbbbbbbbbbbbbbbbbbbbbb"]
  ids_nodup := by decide +kernel

open Cloudflare in
def cutOffAndRepeated : List Cloudflare.Action :=
  let write := Write.setChallenge challengeHost [keptValue, newValue]
  let name := "_acme-challenge." ++ challengeHost
  let kept := challengeRecord keptValue "aaaaaaaaaaaaaaaaaaaaaaaaaaaaaaaa"
  [.start .challenge write [kept, challengeRecord keptValue "bbbbbbbbbbbbbbbbbbbbbbbbbbbbbbbb"],
    .answer name "", .lose name "cccccccccccccccccccccccccccccccc",
    .start .challenge write [kept, challengeRecord newValue "cccccccccccccccccccccccccccccccc"]]

open Cloudflare in
theorem challenge_providers_agree_cut_off :
    ∃ (tr : List (Event Api Cloudflare.Action)) (g g' : Api) (a : Attempt),
      ApiRun (fun _ => "192.0.2.2") challengeZone tr g ∧
      ApiStep (fun _ => "192.0.2.2") g (.finish ("_acme-challenge." ++ challengeHost)) g' ∧
      a.write = .setChallenge challengeHost [keptValue, newValue] ∧
      Agrees ((g'.zone.recordsAt ("_acme-challenge." ++ challengeHost)).map txtContent) a.write := by
  have hplay : (Run.play (Api.step fun _ => "192.0.2.2") (Api.idle challengeZone)
      cutOffAndRepeated).any (fun g => decide (g.attempts ("_acme-challenge." ++ challengeHost) =
        some ⟨.setChallenge challengeHost [keptValue, newValue], []⟩)) = true := by decide +kernel
  obtain ⟨g, hg, hattempt⟩ := (Option.any_eq_true _ _).1 hplay
  obtain ⟨tr, hrun, -⟩ := Run.of_play hg
  have hattempt := of_decide_eq_true hattempt
  have hfinish : ApiStep (fun _ => "192.0.2.2") g (.finish ("_acme-challenge." ++ challengeHost))
      (g.setAttempt ("_acme-challenge." ++ challengeHost) none) := by
    unfold ApiStep Api.step
    simp only [hattempt]
    rfl
  have hmanaged : ∀ r ∈ challengeZone.recordsAt ("_acme-challenge." ++ challengeHost),
      r.kind = "TXT" ∧ challengeManaged r = true := by decide +kernel
  obtain ⟨a, ha, hagrees⟩ :=
    (challenge_providers_agree (fun _ => "192.0.2.2") challengeHost).1 _ _ _ _ hmanaged hrun hfinish
  obtain rfl := Option.some.inj (hattempt.symm.trans ha)
  exact ⟨tr, g, _, _, hrun, hfinish, rfl, hagrees⟩

end BloomRelay.Dns
