import BloomRelay.Dns.Proofs.PlanProofs
import Mathlib.Data.Fintype.EquivFin

/-!
# The requests of a call stay at its name

Calls at different names do not disturb each other: the requests of a call create records at its own
name and change or delete records that are there. So the records at a name, together with the call
that is under way there, move by steps of their own (`NameStep`), whatever happens at the other names.
-/

namespace BloomRelay.Dns.Cloudflare

open Protocol Store Checked

variable {ipText : IpAddr → String} {scope : Scope} {write : Write} {name : String}
  {listing rs : List Record} {reqs reqs' rest : List Request} {request : Request} {id : String}

/-! ## Requests that stay at a name -/

def Request.body? : Request → Option Body
  | .create body | .update _ body => some body
  | .delete _ => none

/-- The ID of the record that a request changes or deletes. -/
def Request.target? : Request → Option String
  | .create _ => none
  | .update record _ | .delete record => some record.id

/-- The ID of the record that a request deletes. -/
def Request.deletes? : Request → Option String
  | .create _ | .update _ _ => none
  | .delete record => some record.id

/-- Requests that write records at `name` and otherwise only touch records that are there, none of
them after its deletion. -/
structure Confined (name : String) (reqs : List Request) (rs : List Record) : Prop where
  named : ∀ q ∈ reqs, ∀ body ∈ q.body?, body.name = name
  known : ∀ q ∈ reqs, ∀ i ∈ q.target?, i ∈ rs.map Record.id
  once : reqs.Pairwise fun q q' => ∀ i ∈ q.deletes?, i ∉ q'.target?

@[simp] theorem Body.patch_id (body : Body) (record : Record) : (body.patch record).id = record.id :=
  rfl

theorem map_id_update (record : Record) (body : Body) (rs : List Record) :
    ((Request.update record body).apply id rs).map Record.id = rs.map Record.id := by
  unfold Request.apply
  rw [List.map_map]
  refine List.map_congr_left fun r _ => ?_
  show (if r.id = record.id then body.patch r else r).id = r.id
  split_ifs <;> rfl

/-- A record that is not deleted keeps its ID. -/
theorem mem_ids_apply {i : String} (hi : i ∈ rs.map Record.id) (hkept : i ∉ request.deletes?) :
    i ∈ (request.apply id rs).map Record.id := by
  cases request with
  | create body =>
    rw [Request.apply, List.map_append]
    exact List.mem_append_left _ hi
  | update record body =>
    rw [map_id_update]
    exact hi
  | delete record =>
    obtain ⟨r, hr, rfl⟩ := List.mem_map.1 hi
    have hne : r.id ≠ record.id := fun heq => hkept (congrArg some heq.symm)
    exact List.mem_map_of_mem (List.mem_filter.2 ⟨hr, decide_eq_true hne⟩)

namespace Confined

theorem nil : Confined name [] rs :=
  ⟨fun _ h => absurd h List.not_mem_nil, fun _ h => absurd h List.not_mem_nil, .nil⟩

theorem creates {bodies : List Body} (h : ∀ body ∈ bodies, body.name = name) :
    Confined name (bodies.map .create) rs := by
  refine ⟨fun q hq body hbody => ?_, fun q hq i hi => ?_, ?_⟩
  · obtain ⟨body', hmem, rfl⟩ := List.mem_map.1 hq
    obtain rfl := Option.some.inj hbody
    exact h _ hmem
  · obtain ⟨body', -, rfl⟩ := List.mem_map.1 hq
    cases hi
  · rw [List.pairwise_map]
    exact List.pairwise_of_forall fun a b i hi => by cases hi

theorem updates {ups : List (Record × Body)} (hbody : ∀ u ∈ ups, u.2.name = name)
    (hknown : ∀ u ∈ ups, u.1.id ∈ rs.map Record.id) :
    Confined name (ups.map fun u => .update u.1 u.2) rs := by
  refine ⟨fun q hq body hb => ?_, fun q hq i hi => ?_, ?_⟩
  · obtain ⟨u, hmem, rfl⟩ := List.mem_map.1 hq
    obtain rfl := Option.some.inj hb
    exact hbody u hmem
  · obtain ⟨u, hmem, rfl⟩ := List.mem_map.1 hq
    obtain rfl := Option.some.inj hi
    exact hknown u hmem
  · rw [List.pairwise_map]
    exact List.pairwise_of_forall fun a b i hi => by cases hi

theorem deletes {stale : List Record} (hknown : ∀ r ∈ stale, r.id ∈ rs.map Record.id)
    (hids : (stale.map Record.id).Nodup) : Confined name (stale.map .delete) rs := by
  refine ⟨fun q hq body hbody => ?_, fun q hq i hi => ?_, ?_⟩
  · obtain ⟨r, -, rfl⟩ := List.mem_map.1 hq
    cases hbody
  · obtain ⟨r, hmem, rfl⟩ := List.mem_map.1 hq
    obtain rfl := Option.some.inj hi
    exact hknown r hmem
  · rw [List.pairwise_map]
    refine (List.pairwise_map.1 hids).imp fun {a b} hne i hi hi' => hne ?_
    exact (Option.some.inj hi).trans (Option.some.inj hi').symm

theorem append (h : Confined name reqs rs) (h' : Confined name reqs' rs)
    (hcross : ∀ q ∈ reqs, ∀ q' ∈ reqs', ∀ i ∈ q.deletes?, i ∉ q'.target?) :
    Confined name (reqs ++ reqs') rs := by
  refine ⟨fun q hq => ?_, fun q hq => ?_, List.pairwise_append.2 ⟨h.once, h'.once, hcross⟩⟩
  · rcases List.mem_append.1 hq with hq | hq
    · exact h.named q hq
    · exact h'.named q hq
  · rcases List.mem_append.1 hq with hq | hq
    · exact h.known q hq
    · exact h'.known q hq

theorem left (h : Confined name (reqs ++ reqs') rs) : Confined name reqs rs :=
  ⟨fun q hq => h.named q (List.mem_append_left _ hq), fun q hq => h.known q (List.mem_append_left _ hq),
    (List.pairwise_append.1 h.once).1⟩

/-- What is left of the requests after the first one was applied. -/
theorem apply (h : Confined name (request :: rest) rs) :
    Confined name rest (request.apply id rs) := by
  obtain ⟨hfirst, hrest⟩ := List.pairwise_cons.1 h.once
  refine ⟨fun q hq => h.named q (List.mem_cons_of_mem _ hq), fun q hq i hi => ?_, hrest⟩
  have hknown := h.known q (List.mem_cons_of_mem _ hq) i hi
  exact mem_ids_apply hknown fun hdel => hfirst q hq i hdel hi

theorem of_perm (h : Confined name reqs listing) (hperm : listing.Perm rs) :
    Confined name reqs rs :=
  ⟨h.named, fun q hq i hi => (hperm.map Record.id).mem_iff.1 (h.known q hq i hi), h.once⟩

end Confined

/-! ## The requests of a call are confined -/

theorem addressEntry_name (hostname : String) (ip : IpAddr) :
    (addressEntry ipText hostname ip).2.name = hostname := rfl

theorem Desired.hostname {records : NameRecords} {desired : List (RecordKey × Body)}
    (h : Desired ipText records desired) {key : RecordKey} {body : Body}
    (hbody : (Std.TreeMap.ofList desired)[key]? = some body) : body.name = records.hostname := by
  rcases h.entry _ ((ofList_getElem?_iff h.keys).1 hbody) with ⟨ip, he⟩ | he | he
  · rw [show body = (addressEntry ipText records.hostname ip).2 from congrArg Prod.snd he,
      addressEntry_name]
  · rw [show body = caaBody _ _ _ from congrArg Prod.snd he, caaBody]
  · rw [show body = caaBody _ _ _ from congrArg Prod.snd he, caaBody]

theorem servingRequests_confined {records : NameRecords} {desired : List (RecordKey × Body)}
    {sorted : Sorted} {creates : List Body} {stale : List Record}
    (hdesired : Desired ipText records desired)
    (h : Planned listing desired sorted creates stale) (hids : (listing.map Record.id).Nodup) :
    Confined records.hostname (servingRequests creates sorted.updates stale) listing := by
  have hstale : ∀ r ∈ stale, r ∈ listing := fun r hr =>
    h.sorting.stale_sublist.subset (h.stale.mem_iff.1 hr)
  have hnodup : (stale.map Record.id).Nodup :=
    (h.stale.map Record.id).nodup_iff.2 ((h.sorting.stale_sublist.map Record.id).nodup hids)
  have hcreates : Confined records.hostname (creates.map .create) listing := by
    refine .creates fun body hbody => ?_
    obtain ⟨key, -, hkey⟩ := (h.mem_creates body).1 hbody
    exact hdesired.hostname hkey
  have hupdates : Confined records.hostname
      (sorted.updates.map fun u => .update u.1 u.2) listing := by
    refine .updates (fun u hu => ?_) fun u hu => ?_
    · obtain ⟨-, -, key, -, hkey⟩ := h.sorting.of_mem_updates hu
      exact hdesired.hostname hkey
    · exact List.mem_map_of_mem (h.sorting.of_mem_updates hu).1
  have hdeletes : Confined records.hostname (stale.map .delete) listing :=
    .deletes (fun r hr => List.mem_map_of_mem (hstale r hr)) hnodup
  refine (hcreates.append hupdates fun q hq q' _ i hi => ?_).append hdeletes fun q hq q' _ i hi => ?_
  · obtain ⟨body, -, rfl⟩ := List.mem_map.1 hq
    cases hi
  · rcases List.mem_append.1 hq with hq | hq
    · obtain ⟨body, -, rfl⟩ := List.mem_map.1 hq
      cases hi
    · obtain ⟨u, -, rfl⟩ := List.mem_map.1 hq
      cases hi

/-- The records that the requests of a publication change and delete are there. -/
theorem Confined.known_serving {creates : List Body} {updates : List (Record × Body)}
    {stale : List Record} (h : Confined name (servingRequests creates updates stale) rs) :
    (∀ u ∈ updates, u.1.id ∈ rs.map Record.id) ∧ ∀ r ∈ stale, r.id ∈ rs.map Record.id := by
  refine ⟨fun u hu => h.known (.update u.1 u.2) ?_ u.1.id rfl,
    fun r hr => h.known (.delete r) ?_ r.id rfl⟩
  · exact List.mem_append_left _ (List.mem_append_right _ (List.mem_map_of_mem hu))
  · exact List.mem_append_right _ (List.mem_map_of_mem hr)

/-- The deletes and the creates of a challenge set. -/
def challengeRequests (name : String) (stale : List Record) (creates : List String) : List Request :=
  stale.map .delete ++ creates.map fun value => .create (challengeBody name value)

/-- A new record has a new ID. -/
theorem not_mem_ids_of_create {body : Body}
    (h : (((Request.create body).apply id rs).map Record.id).Nodup) : id ∉ rs.map Record.id := by
  intro hmem
  rw [Request.apply, List.map_append] at h
  exact (List.nodup_append.1 h).2.2 id hmem id List.mem_cons_self rfl

theorem listed_ok {records : List Record} (h : listed name listing = .ok records) :
    listing = records := by
  obtain ⟨_, -, h⟩ := bind_eq_ok.1 h
  exact Except.ok.inj h

theorem challengeName_ok {hostname : String} (h : challengeName hostname = .ok name) :
    "_acme-challenge." ++ hostname = name := by
  obtain ⟨_, -, h⟩ := bind_eq_ok.1 h
  exact Except.ok.inj h

theorem publishName_ok {records : NameRecords}
    (h : publishName ipText scope listing records = .ok reqs) :
    ∃ desired sorted creates stale, Desired ipText records desired ∧
      Planned listing desired sorted creates stale ∧
      reqs = servingRequests creates sorted.updates stale := by
  obtain ⟨_, -, h⟩ := bind_eq_ok.1 h
  obtain ⟨desired, hdesired, h⟩ := bind_eq_ok.1 h
  obtain ⟨sorted, creates, stale, hplan, hreqs⟩ := reconcileServing_ok h
  exact ⟨desired, sorted, creates, stale, servingDesired_ok hdesired, hplan, hreqs⟩

theorem retireName_ok {hostname : String} (h : retireName scope listing hostname = .ok reqs) :
    ∃ records : List Record, records.Perm (listing.filter fun r =>
        r.kind = "A" || r.kind = "AAAA" || r.kind = "CAA") ∧
      records.Pairwise (fun a b => deleteRank a ≤ deleteRank b) ∧
      reqs = records.map .delete := by
  obtain ⟨_, -, h⟩ := bind_eq_ok.1 h
  obtain ⟨_, -, h⟩ := bind_eq_ok.1 h
  obtain ⟨all, hall, h⟩ := bind_eq_ok.1 h
  obtain rfl := listed_ok hall
  obtain ⟨_, -, h⟩ := bind_eq_ok.1 h
  obtain ⟨_, -, h⟩ := bind_eq_ok.1 h
  exact ⟨_, List.perm_insertionSort _ _, List.pairwise_insertionSort _ _, (Except.ok.inj h).symm⟩

theorem setChallenge_ok {hostname : String} {values : List String}
    (h : setChallenge scope listing hostname values = .ok reqs) :
    validateChallengeValues values = .ok () ∧
      challengeName hostname = .ok ("_acme-challenge." ++ hostname) ∧
      (∀ r ∈ listing, r.kind = "TXT" ∧ challengeManaged r = true) ∧
      reqs = challengeRequests ("_acme-challenge." ++ hostname) (sortChallenge values [] listing).2
        (values.filter fun value => value ∉ (sortChallenge values [] listing).1) := by
  obtain ⟨_, -, h⟩ := bind_eq_ok.1 h
  obtain ⟨_, hvalues, h⟩ := bind_eq_ok.1 h
  obtain ⟨name, hname, h⟩ := bind_eq_ok.1 h
  obtain rfl := challengeName_ok hname
  obtain ⟨all, hall, h⟩ := bind_eq_ok.1 h
  obtain rfl := listed_ok hall
  obtain ⟨_, hmanaged, h⟩ := bind_eq_ok.1 h
  refine ⟨hvalues, hname, fun r hr => ?_, (Except.ok.inj h).symm⟩
  have hr := List.all_eq_true.1 (require_eq_ok.1 hmanaged) r hr
  rw [Bool.and_eq_true] at hr
  exact ⟨of_decide_eq_true hr.1, hr.2⟩

theorem retireChallenge_ok {hostname : String}
    (h : retireChallenge scope listing hostname = .ok reqs) :
    challengeName hostname = .ok ("_acme-challenge." ++ hostname) ∧
      reqs = (listing.filter fun r => r.kind = "TXT").map .delete := by
  obtain ⟨_, -, h⟩ := bind_eq_ok.1 h
  obtain ⟨name, hname, h⟩ := bind_eq_ok.1 h
  obtain rfl := challengeName_ok hname
  obtain ⟨all, hall, h⟩ := bind_eq_ok.1 h
  obtain rfl := listed_ok hall
  obtain ⟨_, -, h⟩ := bind_eq_ok.1 h
  exact ⟨hname, (Except.ok.inj h).symm⟩

theorem sortChallenge_sublist (values kept : List String) (listing : List Record) :
    (sortChallenge values kept listing).2.Sublist listing := by
  induction listing generalizing kept with
  | nil => exact List.Sublist.refl []
  | cons record rest ih =>
    unfold sortChallenge
    split_ifs
    · exact (ih _).cons _
    · exact (ih _).cons_cons _

theorem requests_confined (h : requests ipText scope listing write = .ok reqs)
    (hids : (listing.map Record.id).Nodup) : Confined write.recordName reqs listing := by
  have hsub : ∀ {stale : List Record}, stale.Sublist listing →
      Confined write.recordName (stale.map .delete) listing := fun hs =>
    .deletes (fun r hr => List.mem_map_of_mem (hs.subset hr)) ((hs.map Record.id).nodup hids)
  cases write with
  | publishName records =>
    obtain ⟨desired, sorted, creates, stale, hdesired, hplan, rfl⟩ := publishName_ok h
    exact servingRequests_confined hdesired hplan hids
  | retireName hostname =>
    obtain ⟨records, hperm, -, rfl⟩ := retireName_ok h
    have hfilter : (listing.filter fun r => r.kind = "A" || r.kind = "AAAA" || r.kind = "CAA").Sublist
      listing := List.filter_sublist
    refine .deletes (fun r hr => List.mem_map_of_mem (hfilter.subset (hperm.mem_iff.1 hr))) ?_
    exact (hperm.map Record.id).nodup_iff.2 ((hfilter.map Record.id).nodup hids)
  | setChallenge hostname values =>
    obtain ⟨-, -, -, rfl⟩ := setChallenge_ok h
    have hcreates : Confined (Write.setChallenge hostname values).recordName
        ((values.filter fun value => value ∉ (sortChallenge values [] listing).1).map fun value =>
          .create (challengeBody ("_acme-challenge." ++ hostname) value)) listing := by
      rw [← Function.comp_def Request.create, ← List.map_map]
      refine .creates fun body hbody => ?_
      obtain ⟨value, -, rfl⟩ := List.mem_map.1 hbody
      rfl
    refine (hsub (sortChallenge_sublist values [] listing)).append hcreates fun q _ q' hq' i _ hi => ?_
    obtain ⟨value, -, rfl⟩ := List.mem_map.1 hq'
    cases hi
  | retireChallenge hostname =>
    obtain ⟨-, rfl⟩ := retireChallenge_ok h
    exact hsub List.filter_sublist

/-! ## What a request changes at each name -/

namespace Zone

variable {zone zone' : Zone} {other : String}

theorem ids_recordsAt_nodup (zone : Zone) (name : String) :
    ((zone.recordsAt name).map Record.id).Nodup :=
  (List.filter_sublist.map Record.id).nodup zone.ids_nodup

theorem attempt_eq_some (h : zone.attempt id request = some zone') :
    zone'.records = request.apply id zone.records := by
  unfold attempt at h
  split_ifs at h
  rw [← Option.some.inj h]

/-- A record with the ID of one at `name` is at `name`. -/
theorem name_of_id_mem {i : String} (hi : i ∈ (zone.recordsAt name).map Record.id) {r : Record}
    (hr : r ∈ zone.records) (hid : r.id = i) : r.name = name := by
  obtain ⟨r', hr', rfl⟩ := List.mem_map.1 hi
  obtain ⟨hmem, hname⟩ := List.mem_filter.1 hr'
  obtain rfl := List.inj_on_of_nodup_map zone.ids_nodup hr hmem hid
  exact of_decide_eq_true hname

/-- At its own name a request is applied to the records that are there. -/
theorem recordsAt_apply (h : zone.attempt id request = some zone')
    (hreq : Confined name (request :: rest) (zone.recordsAt name)) :
    zone'.recordsAt name = request.apply id (zone.recordsAt name) := by
  have hknown := hreq.known request List.mem_cons_self
  have hnamed := hreq.named request List.mem_cons_self
  unfold recordsAt at *
  rw [attempt_eq_some h]
  cases request with
  | create body =>
    have hbody : body.name = name := hnamed body rfl
    rw [Request.apply, List.filter_append, Request.apply]
    congr 1
    exact List.filter_cons_of_pos (decide_eq_true hbody)
  | update record body =>
    have hbody : body.name = name := hnamed body rfl
    have hid := hknown record.id rfl
    rw [Request.apply, List.filter_map, Request.apply]
    congr 1
    refine List.filter_congr fun r hr => ?_
    show decide ((if r.id = record.id then body.patch r else r).name = name) = decide (r.name = name)
    split_ifs with heq
    · rw [name_of_id_mem hid hr heq, show (body.patch r).name = name from hbody]
    · rfl
  | delete record =>
    rw [Request.apply, List.filter_filter, Request.apply, List.filter_filter]
    exact List.filter_congr fun r _ => Bool.and_comm _ _

/-- A request changes nothing at another name. -/
theorem recordsAt_apply_of_ne (h : zone.attempt id request = some zone')
    (hreq : Confined name (request :: rest) (zone.recordsAt name)) (hne : other ≠ name) :
    zone'.recordsAt other = zone.recordsAt other := by
  have hknown := hreq.known request List.mem_cons_self
  have hnamed := hreq.named request List.mem_cons_self
  have hapart : ∀ i ∈ (zone.recordsAt name).map Record.id, ∀ r ∈ zone.records, r.id = i →
      r.name ≠ other := fun i hi r hr hid heq => hne (heq ▸ name_of_id_mem hi hr hid)
  unfold recordsAt at *
  rw [attempt_eq_some h]
  cases request with
  | create body =>
    have hbody : body.name = name := hnamed body rfl
    rw [Request.apply, List.filter_append]
    have hnew : [body.record id].filter (fun r => decide (r.name = other)) = [] :=
      List.filter_cons_of_neg (by simpa [Body.record, hbody] using hne.symm)
    rw [hnew, List.append_nil]
  | update record body =>
    have hbody : body.name = name := hnamed body rfl
    have hid := hknown record.id rfl
    -- a patched record was at `name` and stays there
    have hfilter : zone.records.filter ((fun r => decide (r.name = other)) ∘ fun r =>
        if r.id = record.id then body.patch r else r) =
        zone.records.filter fun r => decide (r.name = other) := by
      refine List.filter_congr fun r hr => ?_
      show decide ((if r.id = record.id then body.patch r else r).name = other) = _
      split_ifs with heq
      · have hpatched : (body.patch r).name ≠ other := fun h => hne (h.symm.trans hbody)
        rw [decide_eq_false hpatched, decide_eq_false (hapart _ hid r hr heq)]
      · rfl
    rw [Request.apply, List.filter_map, hfilter]
    refine (List.map_congr_left fun r hr => ?_).trans (List.map_id _)
    obtain ⟨hr, hother⟩ := List.mem_filter.1 hr
    exact if_neg fun heq => hapart _ hid r hr heq (of_decide_eq_true hother)
  | delete record =>
    have hid := hknown record.id rfl
    rw [Request.apply, List.filter_filter]
    refine List.filter_congr fun r hr => ?_
    by_cases heq : r.id = record.id
    · have hother := hapart _ hid r hr heq
      simp [heq, hother]
    · simp [heq]

end Zone

/-! ## Requests one after the other -/

/-- The requests are applied in order, each new record under a new ID. -/
inductive Applied : List Request → List Record → List Record → Prop where
  | nil {rs : List Record} : Applied [] rs rs
  | cons {request : Request} {rest : List Request} {id : String} {rs rs' : List Record}
      (hids : ((request.apply id rs).map Record.id).Nodup)
      (hrest : Applied rest (request.apply id rs) rs') : Applied (request :: rest) rs rs'

theorem Applied.ids {rs' : List Record} (h : Applied reqs rs rs')
    (hids : (rs.map Record.id).Nodup) : (rs'.map Record.id).Nodup := by
  induction h with
  | nil => exact hids
  | cons hnew _ ih => exact ih hnew

/-- The requests of a call leave the records of its name at that name. -/
theorem Applied.name_eq {rs' : List Record} (h : Applied reqs rs rs')
    (hconfined : Confined name reqs rs) (hname : ∀ r ∈ rs, r.name = name) :
    ∀ r ∈ rs', r.name = name := by
  induction h with
  | nil => exact hname
  | @cons request rest id rs rs' _ _ ih =>
    have hbody := hconfined.named request List.mem_cons_self
    refine ih hconfined.apply fun r hr => ?_
    cases request with
    | create body =>
      rcases List.mem_append.1 hr with hr | hr
      · exact hname r hr
      · rw [List.mem_singleton.1 hr]
        exact hbody body rfl
    | update record body =>
      obtain ⟨old, hold, rfl⟩ := List.mem_map.1 hr
      split_ifs
      · exact hbody body rfl
      · exact hname old hold
    | delete record => exact hname r (List.mem_filter.1 hr).1

/-- There is always a new ID. -/
theorem exists_applied (reqs : List Request) (hids : (rs.map Record.id).Nodup) :
    ∃ rs', Applied reqs rs rs' := by
  induction reqs generalizing rs with
  | nil => exact ⟨rs, .nil⟩
  | cons request rest ih =>
    obtain ⟨id, hid⟩ := Infinite.exists_notMem_finset (rs.map Record.id).toFinset
    have hnew : ((request.apply id rs).map Record.id).Nodup := by
      cases request with
      | create body =>
        rw [Request.apply, List.map_append]
        refine List.nodup_append.2 ⟨hids, List.nodup_singleton _, fun a ha b hb heq => hid ?_⟩
        have hb : b = id := List.mem_singleton.1 hb
        exact List.mem_toFinset.2 (hb ▸ heq ▸ ha)
      | update record body =>
        rw [map_id_update]
        exact hids
      | delete record => exact (List.filter_sublist.map Record.id).nodup hids
    obtain ⟨rs', hrs'⟩ := ih hnew
    exact ⟨rs', .cons hnew hrs'⟩

/-! ## Steps at a name -/

/-- What a step does to the call at a name and to the records there. -/
inductive NameStep (ipText : IpAddr → String) (name : String) :
    Option Attempt → List Record → Option Attempt → List Record → Prop where
  | same {attempt : Option Attempt} {rs : List Record} : NameStep ipText name attempt rs attempt rs
  | start {scope : Scope} {write : Write} {listing rs : List Record} {reqs : List Request}
      (hname : write.recordName = name) (hlisting : listing.Perm rs)
      (hreqs : requests ipText scope listing write = .ok reqs) :
      NameStep ipText name none rs (some ⟨write, reqs⟩) rs
  | answer {write : Write} {request : Request} {rest : List Request} {rs : List Record} {id : String}
      (hids : ((request.apply id rs).map Record.id).Nodup) :
      NameStep ipText name (some ⟨write, request :: rest⟩) rs (some ⟨write, rest⟩)
        (request.apply id rs)
  | lose {write : Write} {request : Request} {rest : List Request} {rs : List Record} {id : String}
      (hids : ((request.apply id rs).map Record.id).Nodup) :
      NameStep ipText name (some ⟨write, request :: rest⟩) rs none (request.apply id rs)
  | stop {attempt : Attempt} {rs : List Record} : NameStep ipText name (some attempt) rs none rs

namespace Api

variable {g g' : Api} {action : Action} {tr : List (Event Api Action)} {zone : Zone}

/-- The requests of every call under way stay at its name. -/
def AllConfined (g : Api) : Prop :=
  ∀ name attempt, g.attempts name = some attempt →
    Confined name attempt.requests (g.zone.recordsAt name)

theorem applyNext_eq_some {next : Attempt → Option Attempt}
    (h : g.applyNext name id next = some g') :
    ∃ write request rest zone, g.attempts name = some ⟨write, request :: rest⟩ ∧
      g.zone.attempt id request = some zone ∧ g'.zone = zone ∧
      g'.attempts = Function.update g.attempts name (next ⟨write, rest⟩) := by
  unfold applyNext at h
  cases hattempt : g.attempts name with
  | none =>
    simp only [hattempt] at h
    cases h
  | some attempt =>
    obtain ⟨write, _ | ⟨request, rest⟩⟩ := attempt
    · simp only [hattempt] at h
      cases h
    · simp only [hattempt] at h
      obtain ⟨zone, hzone, rfl⟩ := Option.map_eq_some_iff.1 h
      exact ⟨write, request, rest, zone, rfl, hzone, rfl, rfl⟩

/-- A request at one name, seen at every name. -/
theorem applyNext_at {next : Attempt → Option Attempt} (hg : g.AllConfined)
    (h : g.applyNext name id next = some g') (other : String) :
    (g'.attempts other = g.attempts other ∧ g'.zone.recordsAt other = g.zone.recordsAt other) ∨
    ∃ write request rest, other = name ∧ g.attempts other = some ⟨write, request :: rest⟩ ∧
      g'.attempts other = next ⟨write, rest⟩ ∧
      g'.zone.recordsAt other = request.apply id (g.zone.recordsAt other) ∧
      ((request.apply id (g.zone.recordsAt other)).map Record.id).Nodup := by
  obtain ⟨write, request, rest, zone, hattempt, hzone, rfl, hattempts⟩ := applyNext_eq_some h
  have hreq := hg name _ hattempt
  by_cases heq : other = name
  · subst heq
    have hrecords := Zone.recordsAt_apply hzone hreq
    refine .inr ⟨write, request, rest, rfl, hattempt, ?_, hrecords, ?_⟩
    · rw [hattempts, Function.update_self]
    · rw [← hrecords]
      exact Zone.ids_recordsAt_nodup _ _
  · refine .inl ⟨?_, Zone.recordsAt_apply_of_ne hzone hreq heq⟩
    rw [hattempts, Function.update_of_ne heq]

/-- A call ends at one name, seen at every name. -/
theorem stop_at {attempt : Attempt} (h : g.attempts name = some attempt) (other : String) :
    NameStep ipText other (g.attempts other) (g.zone.recordsAt other)
      ((g.setAttempt name none).attempts other) (g.zone.recordsAt other) := by
  by_cases heq : other = name
  · subst heq
    have hnext : (g.setAttempt other none).attempts other = none := Function.update_self _ _ _
    rw [h, hnext]
    exact .stop
  · have hnext : (g.setAttempt name none).attempts other = g.attempts other :=
      Function.update_of_ne heq _ _
    rw [hnext]
    exact .same

theorem step_at (hg : g.AllConfined) (h : ApiStep ipText g action g') (name : String) :
    NameStep ipText name (g.attempts name) (g.zone.recordsAt name) (g'.attempts name)
      (g'.zone.recordsAt name) := by
  unfold ApiStep step at h
  cases action with
  | start scope write listing =>
    simp only at h
    split_ifs at h with hstart
    cases hreqs : requests ipText scope listing write with
    | error e =>
      simp only [hreqs] at h
      obtain rfl := Option.some.inj h
      exact .same
    | ok reqs =>
      simp only [hreqs] at h
      obtain rfl := Option.some.inj h
      by_cases heq : write.recordName = name
      · subst heq
        have hnext : (g.setAttempt write.recordName (some ⟨write, reqs⟩)).attempts write.recordName =
          some ⟨write, reqs⟩ := Function.update_self _ _ _
        rw [hstart.1, hnext]
        exact .start rfl hstart.2 hreqs
      · have hnext : (g.setAttempt write.recordName (some ⟨write, reqs⟩)).attempts name =
          g.attempts name := Function.update_of_ne (Ne.symm heq) _ _
        rw [hnext]
        exact .same
  | answer name' id =>
    rcases applyNext_at hg h name with ⟨ha, hr⟩ | ⟨write, request, rest, -, ha, hn, hr, hids⟩
    · rw [ha, hr]
      exact .same
    · rw [ha, hn, hr]
      exact .answer hids
  | lose name' id =>
    rcases applyNext_at hg h name with ⟨ha, hr⟩ | ⟨write, request, rest, -, ha, hn, hr, hids⟩
    · rw [ha, hr]
      exact .same
    · rw [ha, hn, hr]
      exact .lose hids
  | drop name' =>
    simp only at h
    split_ifs at h with hsome
    obtain ⟨attempt, hattempt⟩ := Option.isSome_iff_exists.1 hsome
    obtain rfl := Option.some.inj h
    exact stop_at hattempt name
  | finish name' =>
    simp only at h
    split_ifs at h with hempty
    obtain ⟨attempt, hattempt, -⟩ := (Option.any_eq_true _ _).1 hempty
    obtain rfl := Option.some.inj h
    exact stop_at hattempt name

theorem AllConfined.step (hg : g.AllConfined) (h : ApiStep ipText g action g') :
    g'.AllConfined := by
  intro name attempt hattempt
  have hstep := step_at hg h name
  have hids := Zone.ids_recordsAt_nodup g.zone name
  have hbefore : ∀ a, g.attempts name = some a →
      Confined name a.requests (g.zone.recordsAt name) := hg name
  rw [hattempt] at hstep
  generalize g.attempts name = before at hstep hbefore
  generalize g.zone.recordsAt name = rs at *
  generalize g'.zone.recordsAt name = rs' at *
  cases hstep with
  | same => exact hbefore _ rfl
  | start hname hlisting hreqs =>
    subst hname
    exact (requests_confined hreqs ((hlisting.map Record.id).nodup_iff.2 hids)).of_perm hlisting
  | answer _ => exact (hbefore _ rfl).apply

theorem allConfined_run (h : ApiRun ipText zone tr g) : g.AllConfined :=
  h.state_invariant AllConfined (fun _ _ hnone => by cases hnone) fun _ _ _ hg hs => hg.step hs

/-- What the steps at a name keep holds at that name in every state reached. -/
theorem name_invariant {J : Option Attempt → List Record → Prop} (name : String)
    (h0 : J none (zone.recordsAt name))
    (hstep : ∀ a rs a' rs', (rs.map Record.id).Nodup → J a rs → NameStep ipText name a rs a' rs' →
      J a' rs')
    (h : ApiRun ipText zone tr g) : J (g.attempts name) (g.zone.recordsAt name) := by
  induction h with
  | refl => exact h0
  | snoc hrun hs ih =>
    exact hstep _ _ _ _ (Zone.ids_recordsAt_nodup _ _) ih (step_at (allConfined_run hrun) hs name)

end Api

end BloomRelay.Dns.Cloudflare
