import BloomRelay.Dns.Memory
import BloomRelay.Dns.Proofs.CloudflareProofs

/-!
# Challenge sets at Cloudflare

At a challenge name a call keeps one record of each wanted value, deletes the others and creates what
is missing. The values of the records that stay and the values still to be created are, at each
request, the wanted ones; and what is left of the requests is what a new call would do. So a call that
is cut off and made again ends where it would have ended.
-/

namespace BloomRelay.Dns.Cloudflare

open Protocol Store Checked

variable {ipText : IpAddr → String} {scope : Scope} {write : Write} {name hostname : String}
  {listing rs rs' : List Record} {values kept : List String} {reqs rest done : List Request}
  {request : Request} {id value : String} {stale : List Record} {record : Record} {a : Attempt}

/-! ## Quotes -/

theorem unquote_quoted (value : String) : unquote ("\"" ++ value ++ "\"") = value := by
  have hquote : "\"".toList = ['"'] := by decide +kernel
  have hlist : ("\"" ++ value ++ "\"").toList = '"' :: (value.toList ++ ['"']) := by
    rw [String.toList_append, String.toList_append, hquote, List.singleton_append, List.cons_append]
  have hhead : stripPrefix? "\"" ("\"" ++ value ++ "\"") =
      some (String.ofList (value.toList ++ ['"'])) := by
    unfold stripPrefix?
    rw [hlist, hquote]
    exact if_pos (by simp)
  have hsuffix : stripSuffix? "\"" (String.ofList (value.toList ++ ['"'])) = some value := by
    unfold stripSuffix?
    rw [hquote, String.toList_ofList, if_pos (by simp), List.length_append, List.length_singleton,
      Nat.add_sub_cancel, List.take_left, String.ofList_toList]
  unfold unquote
  rw [hhead, Option.bind_some, hsuffix, Option.getD_some]

theorem txtContent_create (name value id : String) :
    txtContent ((challengeBody name value).record id) = value := unquote_quoted value

/-! ## Sorting the listed records -/

/-- The records that a call for `values` keeps. -/
def staying (values kept : List String) : List Record → List Record
  | [] => []
  | record :: rest =>
    if txtContent record ∈ values ∧ txtContent record ∉ kept then
      record :: staying values (txtContent record :: kept) rest
    else staying values kept rest

theorem mem_sortChallenge_kept (values kept : List String) (listing : List Record) (value : String) :
    value ∈ (sortChallenge values kept listing).1 ↔
      value ∈ kept ∨ value ∈ (staying values kept listing).map txtContent := by
  induction listing generalizing kept with
  | nil => simp [sortChallenge, staying]
  | cons record rest ih =>
    unfold sortChallenge staying
    split_ifs
    · rw [ih, List.mem_cons, List.map_cons, List.mem_cons]
      tauto
    · exact ih kept

/-- The values that stay are wanted, and each stays once. -/
theorem staying_values (values kept : List String) (listing : List Record) :
    ((staying values kept listing).map txtContent).Nodup ∧
      ∀ v ∈ (staying values kept listing).map txtContent, v ∈ values ∧ v ∉ kept := by
  induction listing generalizing kept with
  | nil => exact ⟨.nil, fun v hv => absurd hv List.not_mem_nil⟩
  | cons record rest ih =>
    unfold staying
    split_ifs with hwanted
    · obtain ⟨hnodup, hmem⟩ := ih (txtContent record :: kept)
      rw [List.map_cons]
      refine ⟨List.nodup_cons.2 ⟨fun hin => (hmem _ hin).2 List.mem_cons_self, hnodup⟩, fun v hv => ?_⟩
      rcases List.mem_cons.1 hv with rfl | hv
      · exact hwanted
      · exact ⟨(hmem v hv).1, fun hk => (hmem v hv).2 (List.mem_cons_of_mem _ hk)⟩
    · exact ih kept

/-- What stays and what is deleted, each record by its ID. -/
theorem staying_eq_filter (values kept : List String) (hids : (listing.map Record.id).Nodup) :
    staying values kept listing =
      listing.filter fun r => r.id ∉ (sortChallenge values kept listing).2.map Record.id := by
  induction listing generalizing kept with
  | nil => rfl
  | cons record rest ih =>
    obtain ⟨hid, hids⟩ := List.nodup_cons.1 hids
    have hsub : ∀ kept, ∀ i ∈ (sortChallenge values kept rest).2.map Record.id,
        i ∈ rest.map Record.id := fun kept i hi =>
      ((sortChallenge_sublist values kept rest).map Record.id).subset hi
    unfold sortChallenge staying
    split_ifs with hwanted
    · have hstays : record.id ∉
          (sortChallenge values (txtContent record :: kept) rest).2.map Record.id :=
        fun hmem => hid (hsub _ _ hmem)
      rw [List.filter_cons, if_pos (decide_eq_true hstays), ih _ hids]
    · have hgoes : ¬ decide (record.id ∉
          (record :: (sortChallenge values kept rest).2).map Record.id) = true := by
        rw [decide_eq_true_iff, not_not]
        exact List.mem_cons_self
      rw [List.filter_cons, if_neg hgoes, ih _ hids]
      refine List.filter_congr fun r hr => ?_
      have hne : r.id ≠ record.id := fun heq => hid (heq ▸ List.mem_map_of_mem hr)
      rw [decide_eq_decide, List.map_cons, List.mem_cons, not_or, and_iff_right hne]

/-- The wanted values: those that stay and those that are not among them. -/
theorem staying_append_missing (hvalues : values.Nodup) (listing : List Record) :
    ((staying values [] listing).map txtContent ++
      values.filter fun v => v ∉ (sortChallenge values [] listing).1).Perm values := by
  obtain ⟨hnodup, hmem⟩ := staying_values values [] listing
  have hkept : ∀ v, v ∈ (sortChallenge values [] listing).1 ↔
      v ∈ (staying values [] listing).map txtContent := fun v => by
    rw [mem_sortChallenge_kept, or_iff_right List.not_mem_nil]
  have hall : ((staying values [] listing).map txtContent ++
      values.filter fun v => v ∉ (sortChallenge values [] listing).1).Nodup := by
    refine List.nodup_append.2 ⟨hnodup, hvalues.filter _, fun a ha b hb heq => ?_⟩
    have hb := of_decide_eq_true (List.mem_filter.1 hb).2
    exact hb ((hkept b).2 (heq ▸ ha))
  refine (List.perm_ext_iff_of_nodup hall hvalues).2 fun v => ?_
  rw [List.mem_append, List.mem_filter, decide_eq_true_iff, hkept]
  constructor
  · rintro (hv | hv)
    · exact (hmem v hv).1
    · exact hv.1
  · intro hv
    by_cases hstays : v ∈ (staying values [] listing).map txtContent
    · exact .inl hstays
    · exact .inr ⟨hv, hstays⟩

/-! ## The provider in memory -/

theorem nodup_of_validateChallengeValues (h : validateChallengeValues values = .ok ()) :
    values.Nodup := by
  unfold validateChallengeValues at h
  split_ifs at h with hbad
  rw [not_or, not_or, not_not] at hbad
  exact List.dedup_eq_self.1 ((List.dedup_sublist values).eq_of_length hbad.2.1)

/-- The published values are those of the call, each once, and those of the provider in memory after
the same call. -/
def Agrees (published : List String) (write : Write) : Prop :=
  ∃ values, write.challengeSet? = some values ∧ values.Nodup ∧ published.Perm values ∧
    ∀ m : MemoryState, ∃ m', m.call write = .ok m' ∧ m'.challenge write.hostname = values

theorem memory_setChallenge (hname : challengeName hostname = .ok name)
    (hvalues : validateChallengeValues values = .ok ()) (m : MemoryState) :
    ∃ m', m.call (.setChallenge hostname values) = .ok m' ∧ m'.challenge hostname = values := by
  by_cases hempty : values.isEmpty = true
  · obtain rfl := List.isEmpty_iff.1 hempty
    refine ⟨_, bind_eq_ok.2 ⟨name, hname, bind_eq_ok.2 ⟨(), hvalues, if_pos rfl⟩⟩, ?_⟩
    unfold MemoryState.challenge
    rw [Std.TreeMap.getElem?_erase_self]
    rfl
  · refine ⟨_, bind_eq_ok.2 ⟨name, hname, bind_eq_ok.2 ⟨(), hvalues, if_neg hempty⟩⟩, ?_⟩
    unfold MemoryState.challenge
    rw [Std.TreeMap.getElem?_insert_self]
    rfl

theorem memory_retireChallenge (hname : challengeName hostname = .ok name) (m : MemoryState) :
    ∃ m', m.call (.retireChallenge hostname) = .ok m' ∧ m'.challenge hostname = [] := by
  refine ⟨_, bind_eq_ok.2 ⟨name, hname, rfl⟩, ?_⟩
  unfold MemoryState.challenge
  rw [Std.TreeMap.getElem?_erase_self]
  rfl

theorem setChallenge_agrees {published : List String} (hname : challengeName hostname = .ok name)
    (hvalues : validateChallengeValues values = .ok ()) (h : published.Perm values) :
    Agrees published (.setChallenge hostname values) :=
  ⟨values, rfl, nodup_of_validateChallengeValues hvalues, h, memory_setChallenge hname hvalues⟩

theorem retireChallenge_agrees (hname : challengeName hostname = .ok name) :
    Agrees [] (.retireChallenge hostname) :=
  ⟨[], rfl, .nil, .refl _, memory_retireChallenge hname⟩

/-! ## Where a call stands -/

/-- A TXT record of the relay. -/
def Record.Managed (r : Record) : Prop := r.kind = "TXT" ∧ challengeManaged r = true

/-- Where a call for `values` stands: the values that will stay and those to be created. -/
def Settling (values : List String) (rs stale : List Record) (creates : List String) : Prop :=
  ((rs.filter fun r => r.id ∉ stale.map Record.id).map txtContent ++ creates).Perm values

variable {creates : List String}

theorem Settling.delete (h : Settling values rs (record :: stale) creates) :
    Settling values ((Request.delete record).apply id rs) stale creates := by
  unfold Settling Request.apply at *
  rw [List.filter_filter]
  have hsame : (rs.filter fun r => (decide (r.id ∉ stale.map Record.id) && decide (r.id ≠ record.id))) =
      rs.filter fun r => decide (r.id ∉ (record :: stale).map Record.id) := by
    refine List.filter_congr fun r _ => ?_
    rw [← Bool.decide_and, decide_eq_decide, List.map_cons, List.mem_cons, not_or, and_comm]
  rw [hsame]
  exact h

theorem filter_nothing_stale (rs : List Record) :
    (rs.filter fun r => r.id ∉ ([] : List Record).map Record.id) = rs :=
  List.filter_eq_self.2 fun _ _ => decide_eq_true List.not_mem_nil

theorem Settling.create (h : Settling values rs [] (value :: creates)) :
    Settling values ((Request.create (challengeBody name value)).apply id rs) [] creates := by
  unfold Settling at *
  rw [filter_nothing_stale] at *
  rw [Request.apply, List.map_append, List.map_singleton, txtContent_create, List.append_assoc,
    List.singleton_append]
  exact h

theorem Settling.published (h : Settling values rs [] []) : (rs.map txtContent).Perm values := by
  unfold Settling at h
  rwa [filter_nothing_stale, List.append_nil] at h

/-- The first request of a challenge set: a delete, or a create when nothing is left to delete. -/
theorem challengeRequests_eq_cons (h : request :: rest = challengeRequests name stale creates) :
    (∃ record stale', stale = record :: stale' ∧ request = .delete record ∧
      rest = challengeRequests name stale' creates) ∨
    ∃ value creates', stale = [] ∧ creates = value :: creates' ∧
      request = .create (challengeBody name value) ∧ rest = challengeRequests name [] creates' := by
  cases stale with
  | cons record stale' =>
    obtain ⟨rfl, rfl⟩ := List.cons.inj h
    exact .inl ⟨record, stale', rfl, rfl, rfl⟩
  | nil =>
    cases creates with
    | cons value creates' =>
      obtain ⟨rfl, rfl⟩ := List.cons.inj h
      exact .inr ⟨value, creates', rfl, rfl, rfl, rfl⟩
    | nil => cases h

theorem challengeRequests_eq_nil (h : challengeRequests name stale creates = []) :
    stale = [] ∧ creates = [] := by
  obtain ⟨hstale, hcreates⟩ := List.append_eq_nil_iff.1 h
  exact ⟨List.map_eq_nil_iff.1 hstale, List.map_eq_nil_iff.1 hcreates⟩

/-- What a request of a challenge set leaves at the name. -/
theorem Settling.apply (h : Settling values rs stale creates)
    (hreqs : request :: rest = challengeRequests name stale creates)
    (hmanaged : ∀ r ∈ rs, r.Managed) :
    (∀ r ∈ request.apply id rs, r.Managed) ∧ ∃ stale' creates',
      rest = challengeRequests name stale' creates' ∧
      Settling values (request.apply id rs) stale' creates' := by
  rcases challengeRequests_eq_cons hreqs with ⟨record, stale', rfl, rfl, rfl⟩ |
    ⟨value, creates', rfl, rfl, rfl, rfl⟩
  · exact ⟨fun r hr => hmanaged r (List.mem_filter.1 hr).1, stale', creates, rfl, h.delete⟩
  · refine ⟨fun r hr => ?_, [], creates', rfl, h.create⟩
    rcases List.mem_append.1 hr with hr | hr
    · exact hmanaged r hr
    · rw [List.mem_singleton.1 hr]
      have hcomment : challengePrefix.toList.isPrefixOf challengeComment.toList = true := by
        decide +kernel
      exact ⟨rfl, hcomment⟩

theorem Settling.of_perm (h : Settling values listing stale creates) (hperm : listing.Perm rs) :
    Settling values rs stale creates :=
  (((hperm.filter _).map _).symm.append_right _).trans h

/-! ## The calls at a challenge name -/

theorem validateHostname_ok {s : String} (h : validateHostname s = .ok ()) :
    ∃ label : String, s.toList = label.toList ++ ".relay.bloom.directory".toList ∧
      label.utf8ByteSize = 26 ∧ label.toList.all (fun c => c.isLower || c.isDigit) = true := by
  unfold validateHostname at h
  cases hstrip : stripSuffix? ".relay.bloom.directory" s with
  | none =>
    simp only [hstrip] at h
    cases h
  | some label =>
    simp only [hstrip] at h
    split_ifs at h with hbad
    rw [not_or, not_not, Bool.not_eq_false] at hbad
    refine ⟨label, ?_, hbad⟩
    unfold stripSuffix? at hstrip
    split_ifs at hstrip with hsuffix
    obtain rfl := Option.some.inj hstrip
    obtain ⟨front, hfront⟩ := List.isSuffixOf_iff_suffix.1 hsuffix
    rw [String.toList_ofList, ← hfront, List.length_append, Nat.add_sub_cancel, List.take_left]

/-- A challenge name is no hostname. -/
theorem challenge_not_hostname (hostname : String) :
    validateHostname ("_acme-challenge." ++ hostname) ≠ .ok () := by
  intro h
  obtain ⟨rest, hfirst⟩ : ∃ rest, ("_acme-challenge." ++ hostname).toList = '_' :: rest := by
    have hpre : "_acme-challenge.".toList = '_' :: "acme-challenge.".toList := by decide +kernel
    exact ⟨_, String.toList_append.trans (congrArg (· ++ hostname.toList) hpre)⟩
  obtain ⟨label, hlabel, hsize, hchars⟩ := validateHostname_ok h
  rw [hfirst] at hlabel
  cases hl : label.toList with
  | nil =>
    rw [String.toList_eq_nil_iff.1 hl] at hsize
    exact absurd hsize (by decide)
  | cons c chars =>
    rw [hl, List.cons_append] at hlabel
    obtain ⟨rfl, -⟩ := List.cons.inj hlabel
    rw [hl, List.all_cons] at hchars
    exact absurd hchars (by simp)

/-- The requests of a call for `values` on the listed records. -/
def challengePlan (name : String) (values : List String) (listing : List Record) : List Request :=
  challengeRequests name (sortChallenge values [] listing).2
    (values.filter fun value => value ∉ (sortChallenge values [] listing).1)

theorem sortChallenge_nil (kept : List String) (listing : List Record) :
    (sortChallenge [] kept listing).2 = listing := by
  induction listing with
  | nil => rfl
  | cons record rest ih =>
    unfold sortChallenge
    rw [if_neg fun h => absurd h.1 List.not_mem_nil, ih]

/-- What a call does at a challenge name. -/
structure ChallengeCall (write : Write) (hostname : String) (values : List String) : Prop where
  hostname : write.hostname = hostname
  set : write.challengeSet? = some values
  nodup : values.Nodup
  agrees : ∀ published : List String, published.Perm values → Agrees published write

/-- Only the calls about challenges get to write at a challenge name, and they make the requests of
their set. -/
theorem requests_challenge (h : requests ipText scope listing write = .ok reqs)
    (hname : write.recordName = "_acme-challenge." ++ hostname)
    (hmanaged : ∀ r ∈ listing, r.Managed) :
    ∃ values, ChallengeCall write hostname values ∧
      reqs = challengePlan ("_acme-challenge." ++ hostname) values listing := by
  cases write with
  | publishName records =>
    obtain ⟨_, -, h⟩ := bind_eq_ok.1 h
    obtain ⟨_, hdesired, -⟩ := bind_eq_ok.1 h
    obtain ⟨_, hvalid, -⟩ := bind_eq_ok.1 hdesired
    obtain ⟨_, hhost, -⟩ := bind_eq_ok.1 hvalid
    have hhost := require_eq_ok.1 hhost
    rw [show records.hostname = _ from hname] at hhost
    exact absurd hhost (challenge_not_hostname hostname)
  | retireName host =>
    obtain ⟨_, -, h⟩ := bind_eq_ok.1 h
    obtain ⟨_, hhost, -⟩ := bind_eq_ok.1 h
    have hhost := require_eq_ok.1 hhost
    rw [show host = _ from hname] at hhost
    exact absurd hhost (challenge_not_hostname hostname)
  | setChallenge host values =>
    obtain rfl : host = hostname := (String.append_right_inj _).1 hname
    obtain ⟨hvalues, hchallenge, -, rfl⟩ := setChallenge_ok h
    exact ⟨values, ⟨rfl, rfl, nodup_of_validateChallengeValues hvalues,
      fun published => setChallenge_agrees hchallenge hvalues⟩, rfl⟩
  | retireChallenge host =>
    obtain rfl : host = hostname := (String.append_right_inj _).1 hname
    obtain ⟨hchallenge, rfl⟩ := retireChallenge_ok h
    refine ⟨[], ⟨rfl, rfl, .nil, fun published hperm => ?_⟩, ?_⟩
    · rw [hperm.eq_nil]
      exact retireChallenge_agrees hchallenge
    · have hall : (listing.filter fun r => r.kind = "TXT") = listing :=
        List.filter_eq_self.2 fun r hr => decide_eq_true (hmanaged r hr).1
      unfold challengePlan challengeRequests
      rw [hall, sortChallenge_nil, List.filter_nil, List.map_nil, List.append_nil]

/-- What holds at a challenge name: its records are the relay's, and the call under way is on its way
to the values it is for. -/
structure ChallengeOrder (hostname : String) (attempt : Option Attempt) (rs : List Record) : Prop where
  managed : ∀ r ∈ rs, r.Managed
  settling : ∀ a, attempt = some a → ∃ values stale creates, ChallengeCall a.write hostname values ∧
    a.requests = challengeRequests ("_acme-challenge." ++ hostname) stale creates ∧
    Settling values rs stale creates

theorem ChallengeOrder.step {attempt attempt' : Option Attempt} (hids : (rs.map Record.id).Nodup)
    (h : ChallengeOrder hostname attempt rs)
    (hstep : NameStep ipText ("_acme-challenge." ++ hostname) attempt rs attempt' rs') :
    ChallengeOrder hostname attempt' rs' := by
  cases hstep with
  | same => exact h
  | stop => exact ⟨h.managed, fun _ hnone => by cases hnone⟩
  | start hname hlisting hreqs =>
    refine ⟨h.managed, fun a ha => ?_⟩
    obtain rfl := Option.some.inj ha
    have hlisted := (hlisting.map Record.id).nodup_iff.2 hids
    obtain ⟨values, hcall, rfl⟩ := requests_challenge hreqs hname fun r hr =>
      h.managed r (hlisting.mem_iff.1 hr)
    refine ⟨values, _, _, hcall, rfl, Settling.of_perm ?_ hlisting⟩
    unfold Settling
    rw [← staying_eq_filter values [] hlisted]
    exact staying_append_missing hcall.nodup _
  | answer _ =>
    obtain ⟨values, stale, creates, hcall, hreqs, hsettling⟩ := h.settling _ rfl
    obtain ⟨hmanaged, stale', creates', hrest, hnext⟩ := hsettling.apply hreqs h.managed
    refine ⟨hmanaged, fun a ha => ?_⟩
    obtain rfl := Option.some.inj ha
    exact ⟨values, stale', creates', hcall, hrest, hnext⟩
  | lose _ =>
    obtain ⟨values, stale, creates, hcall, hreqs, hsettling⟩ := h.settling _ rfl
    exact ⟨(hsettling.apply hreqs h.managed).1, fun _ hnone => by cases hnone⟩

variable {zone : Zone} {tr : List (Event Api Action)} {g : Api}

theorem challengeOrder_run
    (hmanaged : ∀ r ∈ zone.recordsAt ("_acme-challenge." ++ hostname), r.Managed)
    (hrun : ApiRun ipText zone tr g) :
    ChallengeOrder hostname (g.attempts ("_acme-challenge." ++ hostname))
      (g.zone.recordsAt ("_acme-challenge." ++ hostname)) :=
  Api.name_invariant _ ⟨hmanaged, fun _ hnone => by cases hnone⟩
    (fun _ _ _ _ hids h hstep => h.step hids hstep) hrun

/-- A call that returns `Ok` has made all its requests and changes nothing any more. -/
theorem finish_step {g' : Api} (h : ApiStep ipText g (.finish name) g') :
    ∃ a, g.attempts name = some a ∧ a.requests = [] ∧ g' = g.setAttempt name none := by
  unfold ApiStep Api.step at h
  simp only at h
  split_ifs at h with hempty
  obtain ⟨a, ha, hreqs⟩ := (Option.any_eq_true _ _).1 hempty
  exact ⟨a, ha, List.isEmpty_iff.1 hreqs, (Option.some.inj h).symm⟩

/-- A call about a challenge that returns `Ok` has published its values. -/
theorem challenge_finished
    (hmanaged : ∀ r ∈ zone.recordsAt ("_acme-challenge." ++ hostname), r.Managed)
    (hrun : ApiRun ipText zone tr g) {g' : Api}
    (hstep : ApiStep ipText g (.finish ("_acme-challenge." ++ hostname)) g') :
    ∃ a, g.attempts ("_acme-challenge." ++ hostname) = some a ∧
      Agrees ((g'.zone.recordsAt ("_acme-challenge." ++ hostname)).map txtContent) a.write := by
  obtain ⟨a, ha, hnil, rfl⟩ := finish_step hstep
  obtain ⟨values, stale, creates, hcall, hreqs, hsettling⟩ :=
    (challengeOrder_run hmanaged hrun).settling a ha
  obtain ⟨rfl, rfl⟩ := challengeRequests_eq_nil (hreqs.symm.trans hnil)
  exact ⟨a, ha, hcall.agrees _ hsettling.published⟩

/-! ## A call made again -/

theorem sortChallenge_keep (h : txtContent record ∈ values ∧ txtContent record ∉ kept)
    (listing : List Record) :
    sortChallenge values kept (record :: listing) =
      sortChallenge values (txtContent record :: kept) listing := by
  rw [sortChallenge, if_pos h]

theorem sortChallenge_drop (h : ¬ (txtContent record ∈ values ∧ txtContent record ∉ kept))
    (listing : List Record) :
    sortChallenge values kept (record :: listing) =
      ((sortChallenge values kept listing).1, record :: (sortChallenge values kept listing).2) := by
  rw [sortChallenge, if_neg h]

theorem sortChallenge_append (values kept : List String) (a b : List Record) :
    sortChallenge values kept (a ++ b) =
      ((sortChallenge values (sortChallenge values kept a).1 b).1,
        (sortChallenge values kept a).2 ++ (sortChallenge values (sortChallenge values kept a).1 b).2) := by
  induction a generalizing kept with
  | nil => rfl
  | cons record rest ih =>
    rw [List.cons_append]
    by_cases h : txtContent record ∈ values ∧ txtContent record ∉ kept
    · rw [sortChallenge_keep h, sortChallenge_keep h, ih]
    · rw [sortChallenge_drop h, sortChallenge_drop h, ih]
      rfl

/-- Deleting the first stale record changes nothing else in the plan. -/
theorem sortChallenge_delete (hids : (rs.map Record.id).Nodup)
    (h : (sortChallenge values kept rs).2 = record :: stale) :
    sortChallenge values kept (rs.filter fun r => r.id ≠ record.id) =
      ((sortChallenge values kept rs).1, stale) := by
  induction rs generalizing kept with
  | nil => cases h
  | cons r rest ih =>
    obtain ⟨hid, hids⟩ := List.nodup_cons.1 hids
    by_cases hwanted : txtContent r ∈ values ∧ txtContent r ∉ kept
    · rw [sortChallenge_keep hwanted] at h ⊢
      have hmem : record ∈ rest :=
        (sortChallenge_sublist values _ rest).subset (h ▸ List.mem_cons_self)
      have hne : r.id ≠ record.id := fun heq => hid (heq ▸ List.mem_map_of_mem hmem)
      rw [List.filter_cons, if_pos (decide_eq_true hne), sortChallenge_keep hwanted, ih hids h]
    · rw [sortChallenge_drop hwanted] at h ⊢
      obtain ⟨rfl, rfl⟩ := List.cons.inj h
      have hself : ¬ decide (r.id ≠ r.id) = true := by simp
      have hrest : (rest.filter fun s => decide (s.id ≠ r.id)) = rest :=
        List.filter_eq_self.2 fun s hs =>
          decide_eq_true fun heq => hid (heq ▸ List.mem_map_of_mem hs)
      rw [List.filter_cons, if_neg hself, hrest]

/-- A created value is found by the next call. -/
theorem sortChallenge_create (hstale : (sortChallenge values kept rs).2 = [])
    (hvalue : value ∈ values) (hmissing : value ∉ (sortChallenge values kept rs).1) :
    sortChallenge values kept ((Request.create (challengeBody name value)).apply id rs) =
      (value :: (sortChallenge values kept rs).1, []) := by
  have hwanted : txtContent ((challengeBody name value).record id) ∈ values ∧
      txtContent ((challengeBody name value).record id) ∉ (sortChallenge values kept rs).1 := by
    rw [txtContent_create]
    exact ⟨hvalue, hmissing⟩
  unfold Request.apply
  rw [sortChallenge_append, sortChallenge_keep hwanted, hstale, txtContent_create]
  rfl

theorem filter_missing_cons {found : List String} (hvalues : values.Nodup)
    (h : (values.filter fun v => v ∉ found) = value :: creates) :
    (values.filter fun v => v ∉ value :: found) = creates := by
  have hnodup : (value :: creates).Nodup := h ▸ hvalues.filter _
  have hsplit : (values.filter fun v => v ∉ value :: found) =
      (values.filter fun v => v ∉ found).filter fun v => v ≠ value := by
    rw [List.filter_filter]
    refine List.filter_congr fun v _ => ?_
    rw [← Bool.decide_and, decide_eq_decide, List.mem_cons, not_or]
  have hself : ¬ decide (value ≠ value) = true := by simp
  rw [hsplit, h, List.filter_cons, if_neg hself]
  exact List.filter_eq_self.2 fun v hv =>
    decide_eq_true fun heq => (List.nodup_cons.1 hnodup).1 (heq ▸ hv)

/-- What is left of a plan after its first request is the plan of a new call. -/
theorem challengePlan_apply (hvalues : values.Nodup) (hids : (rs.map Record.id).Nodup)
    (h : challengePlan name values rs = request :: rest) :
    challengePlan name values (request.apply id rs) = rest := by
  rcases challengeRequests_eq_cons h.symm with ⟨record, stale', hstale, rfl, rfl⟩ |
    ⟨value, creates', hstale, hcreates, rfl, rfl⟩
  · have happly : (Request.delete record).apply id rs = rs.filter fun r => r.id ≠ record.id := rfl
    unfold challengePlan
    rw [happly, sortChallenge_delete hids hstale]
  · have hmem : value ∈ values.filter fun v => v ∉ (sortChallenge values [] rs).1 :=
      hcreates ▸ List.mem_cons_self
    obtain ⟨hvalue, hmissing⟩ := List.mem_filter.1 hmem
    unfold challengePlan
    rw [sortChallenge_create hstale hvalue (of_decide_eq_true hmissing),
      filter_missing_cons hvalues hcreates]

/-- Every start at the name is `write`, on the records in the zone's own order. -/
def Repeats (name : String) (write : Write) (e : Event Api Action) : Prop :=
  ∀ scope w listing, e.label = .start scope w listing → w.recordName = name →
    w = write ∧ listing = e.src.zone.recordsAt name

/-- Only a start puts a call under way. -/
theorem start_of_attempt {g' : Api} {action : Action} {a : Attempt} (h : ApiStep ipText g action g')
    (hidle : g.attempts name = none) (hbusy : g'.attempts name = some a) :
    ∃ scope listing, action = .start scope a.write listing ∧ a.write.recordName = name ∧
      requests ipText scope listing a.write = .ok a.requests := by
  have hstop : ∀ other, (g.setAttempt other none).attempts name = none := fun other => by
    show Function.update g.attempts other none name = none
    by_cases heq : name = other
    · rw [heq, Function.update_self]
    · rw [Function.update_of_ne heq, hidle]
  have hnext : ∀ other id next, g.applyNext other id next = some g' → False :=
    fun other id next h => by
      obtain ⟨write, request, rest, _, hattempt, -, -, hattempts⟩ := Api.applyNext_eq_some h
      by_cases heq : name = other
      · rw [← heq, hidle] at hattempt
        cases hattempt
      · rw [hattempts, Function.update_of_ne heq, hidle] at hbusy
        cases hbusy
  unfold ApiStep Api.step at h
  cases action with
  | start scope write listing =>
    simp only at h
    split_ifs at h with hstart
    cases hreqs : requests ipText scope listing write with
    | error e =>
      simp only [hreqs] at h
      rw [← Option.some.inj h, hidle] at hbusy
      cases hbusy
    | ok reqs =>
      simp only [hreqs] at h
      obtain rfl := Option.some.inj h
      by_cases heq : name = write.recordName
      · have hset : (g.setAttempt write.recordName (some ⟨write, reqs⟩)).attempts name =
            some ⟨write, reqs⟩ := heq ▸ Function.update_self _ _ _
        obtain rfl := Option.some.inj (hset.symm.trans hbusy)
        exact ⟨scope, listing, rfl, heq.symm, hreqs⟩
      · have hsame : (g.setAttempt write.recordName (some ⟨write, reqs⟩)).attempts name = none :=
          (Function.update_of_ne heq _ _).trans hidle
        rw [hsame] at hbusy
        cases hbusy
  | answer other id => exact (hnext other id _ h).elim
  | lose other id => exact (hnext other id _ h).elim
  | drop other =>
    simp only at h
    split_ifs at h
    rw [← Option.some.inj h, hstop] at hbusy
    cases hbusy
  | finish other =>
    simp only at h
    split_ifs at h
    rw [← Option.some.inj h, hstop] at hbusy
    cases hbusy

theorem Applied.snoc {rs₀ : List Record} (h : Applied done rs₀ rs)
    (hids : ((request.apply id rs).map Record.id).Nodup) :
    Applied (done ++ [request]) rs₀ (request.apply id rs) := by
  induction h with
  | nil => exact .cons hids .nil
  | cons hfirst _ ih => exact .cons hfirst (ih hids)

/-- Where the calls of one write stand that are made again and again from the records `rs₀`: the
requests applied so far and the plan of the next call are together the plan of the first. -/
structure Repeating (ipText : IpAddr → String) (name : String) (write : Write) (values : List String)
    (rs₀ : List Record) (attempt : Option Attempt) (rs : List Record) : Prop where
  applied : ∃ done, Applied done rs₀ rs ∧
    done ++ challengePlan name values rs = challengePlan name values rs₀
  left : ∀ a, attempt = some a → a.write = write ∧ a.requests = challengePlan name values rs
  begun : (attempt = none ∧ rs = rs₀) ∨ (values.Nodup ∧
    ∃ scope, requests ipText scope rs₀ write = .ok (challengePlan name values rs₀))

variable {rs₀ : List Record} {attempt attempt' : Option Attempt}

/-- A request of the plan that is applied. -/
theorem Repeating.apply_first (hids : (rs.map Record.id).Nodup)
    (hnew : ((request.apply id rs).map Record.id).Nodup)
    (h : Repeating ipText name write values rs₀ (some ⟨write, request :: rest⟩) rs) :
    Repeating ipText name write values rs₀ (some ⟨write, rest⟩) (request.apply id rs) := by
  obtain ⟨hnodup, hplan⟩ := h.begun.resolve_left fun hnone => by cases hnone.1
  obtain ⟨done, happlied, hdone⟩ := h.applied
  have hleft : challengePlan name values rs = request :: rest := (h.left _ rfl).2.symm
  have hrest : challengePlan name values (request.apply id rs) = rest :=
    challengePlan_apply hnodup hids hleft
  refine ⟨⟨done ++ [request], happlied.snoc hnew, ?_⟩, fun a ha => ?_, .inr ⟨hnodup, hplan⟩⟩
  · rw [hrest, List.append_assoc, List.singleton_append, ← hleft, hdone]
  · obtain rfl := Option.some.inj ha
    exact ⟨rfl, hrest.symm⟩

theorem Repeating.stop (h : Repeating ipText name write values rs₀ (some a) rs) :
    Repeating ipText name write values rs₀ none rs :=
  ⟨h.applied, fun _ hnone => (Option.some_ne_none _ hnone.symm).elim,
    .inr (h.begun.resolve_left fun hnone => Option.some_ne_none _ hnone.1)⟩

theorem Repeating.step (hids : (rs.map Record.id).Nodup)
    (hstart : ∀ a, attempt = none → attempt' = some a → a.write = write ∧ values.Nodup ∧
      a.requests = challengePlan name values rs ∧ ∃ scope, requests ipText scope rs write = .ok a.requests)
    (h : Repeating ipText name write values rs₀ attempt rs)
    (hstep : NameStep ipText name attempt rs attempt' rs') :
    Repeating ipText name write values rs₀ attempt' rs' := by
  cases hstep with
  | same => exact h
  | stop => exact h.stop
  | start _ _ _ =>
    obtain ⟨rfl, hnodup, hreqs, scope, hok⟩ := hstart _ rfl rfl
    refine ⟨h.applied, fun a ha => ?_, ?_⟩
    · obtain rfl := Option.some.inj ha
      exact ⟨rfl, hreqs⟩
    · rcases h.begun with ⟨-, hrs⟩ | hbegun
      · rw [← hrs, ← hreqs]
        exact .inr ⟨hnodup, scope, hok⟩
      · exact .inr hbegun
  | answer hnew =>
    obtain rfl := (h.left _ rfl).1
    exact h.apply_first hids hnew
  | lose hnew =>
    obtain rfl := (h.left _ rfl).1
    exact (h.apply_first hids hnew).stop

theorem repeating_run
    (hmanaged : ∀ r ∈ zone.recordsAt ("_acme-challenge." ++ hostname), r.Managed)
    (hrun : ApiRun ipText zone tr g)
    (hrepeats : ∀ e ∈ tr, Repeats ("_acme-challenge." ++ hostname) write e) :
    Repeating ipText ("_acme-challenge." ++ hostname) write (write.challengeSet?.getD [])
      (zone.recordsAt ("_acme-challenge." ++ hostname)) (g.attempts ("_acme-challenge." ++ hostname))
      (g.zone.recordsAt ("_acme-challenge." ++ hostname)) := by
  induction hrun with
  | refl =>
    exact ⟨⟨[], .nil, rfl⟩, fun _ hnone => (Option.some_ne_none _ hnone.symm).elim, .inl ⟨rfl, rfl⟩⟩
  | @snoc _ g₁ g₂ action hrun hs ih =>
    have hbefore := ih fun e he => hrepeats e (List.mem_cons_of_mem _ he)
    refine hbefore.step (Zone.ids_recordsAt_nodup _ _) (fun a hidle hbusy => ?_)
      (Api.step_at (Api.allConfined_run hrun) hs _)
    obtain ⟨scope, listing, rfl, hname, hreqs⟩ := start_of_attempt hs hidle hbusy
    obtain ⟨hwrite, hlisting⟩ := hrepeats _ List.mem_cons_self scope a.write listing rfl hname
    have hlisting : listing = g₁.zone.recordsAt ("_acme-challenge." ++ hostname) := hlisting
    subst hlisting
    obtain ⟨values, hcall, hplan⟩ := requests_challenge hreqs hname
      (challengeOrder_run hmanaged hrun).managed
    rw [← hwrite, hcall.set]
    exact ⟨rfl, hcall.nodup, hplan, scope, hreqs⟩

/-- A call that is made again until it returns `Ok` has applied, over all its attempts, the requests
of one call that is not cut off. -/
theorem repeated_finished
    (hmanaged : ∀ r ∈ zone.recordsAt ("_acme-challenge." ++ hostname), r.Managed)
    (hrun : ApiRun ipText zone tr g)
    (hrepeats : ∀ e ∈ tr, Repeats ("_acme-challenge." ++ hostname) write e) {g' : Api}
    (hstep : ApiStep ipText g (.finish ("_acme-challenge." ++ hostname)) g') :
    ∃ scope reqs,
      requests ipText scope (zone.recordsAt ("_acme-challenge." ++ hostname)) write = .ok reqs ∧
      Applied reqs (zone.recordsAt ("_acme-challenge." ++ hostname))
        (g'.zone.recordsAt ("_acme-challenge." ++ hostname)) := by
  obtain ⟨a, ha, hnil, rfl⟩ := finish_step hstep
  have h := repeating_run hmanaged hrun hrepeats
  rw [ha] at h
  obtain ⟨-, scope, hok⟩ := h.begun.resolve_left fun hnone => by cases hnone.1
  obtain ⟨done, happlied, hdone⟩ := h.applied
  rw [← (h.left a rfl).2, hnil, List.append_nil] at hdone
  exact ⟨scope, _, hok, hdone ▸ happlied⟩

end BloomRelay.Dns.Cloudflare
