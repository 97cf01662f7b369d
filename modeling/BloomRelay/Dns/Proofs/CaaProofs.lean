import BloomRelay.Dns.Proofs.CloudflareProofs

/-!
# CAA safety at every request

A name that authorizes an account denies wildcards: an `issue` record is never there without an
`issuewild` record with the value `;`. The order of the requests keeps this at each of them. A
publication installs the denial before the authorization and deletes nothing before both are there; a
retirement deletes every authorization before the last denial.

So it holds wherever an attempt is cut off, and the next attempt starts from it.
-/

namespace BloomRelay.Dns.Cloudflare

open Protocol Store Checked

variable {ipText : IpAddr → String} {name : String} {listing rs : List Record}
  {reqs rest : List Request} {request : Request} {id : String}

/-- The tag and the value of a CAA record. -/
def caa? (kind : String) (data : Option CaaData) : Option (String × String) :=
  if kind = "CAA" then data.map fun d => (d.tag, d.value) else none

def Record.caa? (record : Record) : Option (String × String) :=
  Cloudflare.caa? record.kind record.data

def Body.caa? (body : Body) : Option (String × String) := Cloudflare.caa? body.kind body.data

/-- The record authorizes someone to issue. -/
def Record.Issues (record : Record) : Prop := ∃ value, record.caa? = some ("issue", value)

/-- The record denies wildcard certificates. -/
def Record.Denies (record : Record) : Prop := record.caa? = some ("issuewild", ";")

/-- Where there is an authorization there is the denial. -/
def CaaSafe (rs : List Record) : Prop := (∃ r ∈ rs, r.Issues) → ∃ r ∈ rs, r.Denies

/-- The authorization of an account. -/
def Record.Authorizes (record : Record) (acmeAccountUri : String) : Prop :=
  record.caa? = some ("issue", issueValue acmeAccountUri)

theorem Body.record_caa? (body : Body) (id : String) : (body.record id).caa? = body.caa? := rfl

/-- A patch that brings its data along sets the tag and the value. -/
theorem Body.patch_caa? {body : Body} (h : body.kind = "CAA" → body.data.isSome) (r : Record) :
    (body.patch r).caa? = body.caa? := by
  unfold Record.caa? Body.caa? Cloudflare.caa? Body.patch
  by_cases hkind : body.kind = "CAA"
  · obtain ⟨data, hdata⟩ := Option.isSome_iff_exists.1 (h hkind)
    simp only [hkind, hdata, if_true]
    rfl
  · simp only [if_neg hkind]

theorem Record.kind_of_caa? {r : Record} {value : String × String} (h : r.caa? = some value) :
    r.kind = "CAA" := by
  unfold Record.caa? Cloudflare.caa? at h
  split_ifs at h with hkind
  exact hkind

theorem Record.kind_of_key {r : Record} {key : RecordKey} (h : r.key = .ok key) :
    r.kind = key.kind := by
  unfold Record.key at h
  split_ifs at h with hkind
  · obtain ⟨_, -, h⟩ := bind_eq_ok.1 h
    obtain ⟨_, -, h⟩ := bind_eq_ok.1 h
    rw [← Except.ok.inj h]
  · rw [← Except.ok.inj h]

/-- The key of a CAA record is its tag and its value. -/
theorem Record.caa?_of_key {r : Record} {tag value : String}
    (h : r.key = .ok ⟨"CAA", tag ++ ":" ++ value⟩) (htag : tag = "issue" ∨ tag = "issuewild") :
    r.caa? = some (tag, value) := by
  unfold Record.key at h
  split_ifs at h with hkind
  · obtain ⟨data, hdata, h⟩ := bind_eq_ok.1 h
    obtain ⟨_, hchecked, h⟩ := bind_eq_ok.1 h
    obtain ⟨-, htag'⟩ := require_eq_ok.1 hchecked
    obtain ⟨rfl, rfl⟩ := caaContent_inj htag' htag (RecordKey.mk.inj (Except.ok.inj h)).2
    unfold Record.caa? Cloudflare.caa?
    rw [if_pos hkind, found_eq_ok.1 hdata]
    rfl
  · exact absurd (RecordKey.mk.inj (Except.ok.inj h)).1 hkind

/-! ## A publication -/

/-- The value is among the creates, or a record that will stay has it. -/
def Secured (rs : List Record) (creates : List Body) (stale : List Record)
    (value : String × String) : Prop :=
  (∃ body ∈ creates, body.caa? = some value) ∨
    ∃ r ∈ rs, r.caa? = some value ∧ r.id ∉ stale.map Record.id

/-- Where a publication stands: what it has still to create, to change and to delete. -/
structure Publishing (records : NameRecords) (rs : List Record) (creates : List Body)
    (updates : List (Record × Body)) (stale : List Record) : Prop where
  order : creates.Pairwise fun a b => createRank a ≤ createRank b
  issue : Secured rs creates stale ("issue", issueValue records.acmeAccountUri)
  deny : Secured rs creates stale ("issuewild", ";")
  /-- An update leaves the tag and the value as they are. -/
  update : ∀ u ∈ updates, (u.2.kind = "CAA" → u.2.data.isSome) ∧
    ∀ r ∈ rs, r.id = u.1.id → r.caa? = u.2.caa?

/-- What one request of a publication does to the CAA records. -/
structure PublishEffect (records : NameRecords) (rs rs' : List Record) : Prop where
  safe : CaaSafe rs → CaaSafe rs'
  nonempty : (∃ r ∈ rs, r.kind = "CAA") → ∃ r ∈ rs', r.kind = "CAA"
  /-- An authorization stays, or the new one is there and stays. -/
  replaced : ∀ old ∈ rs, old.Issues → (∃ r ∈ rs', r.id = old.id ∧ r.caa? = old.caa?) ∨
    ∃ new ∈ rs, new ∈ rs' ∧ new.Authorizes records.acmeAccountUri

variable {records : NameRecords} {creates : List Body} {updates : List (Record × Body)}
  {stale : List Record} {body : Body} {u : Record × Body} {record : Record}

/-- The ranks of the two CAA records. -/
theorem createRank_of_caa? {tag value : String} (h : body.caa? = some (tag, value)) :
    (tag = "issue" → createRank body = 1) ∧ (tag = "issuewild" → createRank body = 0) := by
  unfold Body.caa? Cloudflare.caa? at h
  split_ifs at h with hkind
  obtain ⟨data, hdata, hpair⟩ := Option.map_eq_some_iff.1 h
  obtain ⟨rfl, rfl⟩ := Prod.mk.inj hpair
  unfold createRank
  rw [hkind, hdata, Option.map_some]
  constructor
  · intro htag
    rw [htag]
    rfl
  · intro htag
    rw [htag]
    rfl

/-- With nothing left to create, a secured value is the value of a record that will stay. -/
theorem Secured.held {value : String × String} (h : Secured rs [] stale value) :
    ∃ r ∈ rs, r.caa? = some value ∧ r.id ∉ stale.map Record.id := by
  rcases h with ⟨_, hmem, _⟩ | h
  · exact absurd hmem List.not_mem_nil
  · exact h

namespace Publishing

theorem create (h : Publishing records rs (body :: creates) updates stale)
    (hstale : ∀ r ∈ stale, r.id ∈ rs.map Record.id)
    (hupdates : ∀ u ∈ updates, u.1.id ∈ rs.map Record.id) (hid : id ∉ rs.map Record.id) :
    Publishing records (rs ++ [body.record id]) creates updates stale := by
  have hsecured : ∀ {value}, Secured rs (body :: creates) stale value →
      Secured (rs ++ [body.record id]) creates stale value := by
    rintro value (⟨b, hb, hvalue⟩ | ⟨r, hr, hvalue, hkept⟩)
    · rcases List.mem_cons.1 hb with rfl | hb
      · refine .inr ⟨b.record id, List.mem_append_right _ List.mem_cons_self, hvalue, fun hmem => ?_⟩
        obtain ⟨r, hr, heq⟩ := List.mem_map.1 hmem
        have heq : r.id = id := heq
        exact hid (heq ▸ hstale r hr)
      · exact .inl ⟨b, hb, hvalue⟩
    · exact .inr ⟨r, List.mem_append_left _ hr, hvalue, hkept⟩
  refine ⟨(List.pairwise_cons.1 h.order).2, hsecured h.issue, hsecured h.deny,
    fun u hu => ⟨(h.update u hu).1, fun r hr heq => ?_⟩⟩
  rcases List.mem_append.1 hr with hr | hr
  · exact (h.update u hu).2 r hr heq
  · rw [List.mem_singleton.1 hr] at heq
    have heq : id = u.1.id := heq
    exact absurd (heq ▸ hupdates u hu) hid

/-- The denial is there before an authorization is created. -/
theorem denied_before_issue (h : Publishing records rs (body :: creates) updates stale)
    {value : String} (hbody : body.caa? = some ("issue", value)) : ∃ r ∈ rs, r.Denies := by
  rcases h.deny with ⟨b, hb, hdeny⟩ | ⟨r, hr, hdeny, -⟩
  · have hissue := (createRank_of_caa? hbody).1 rfl
    have hrank := (createRank_of_caa? hdeny).2 rfl
    rcases List.mem_cons.1 hb with rfl | hb
    · exact absurd (hissue.symm.trans hrank) (by decide)
    · have hle := (List.pairwise_cons.1 h.order).1 b hb
      rw [hissue, hrank] at hle
      exact absurd hle (by decide)
  · exact ⟨r, hr, hdeny⟩

theorem create_effect (h : Publishing records rs (body :: creates) updates stale) :
    PublishEffect records rs (rs ++ [body.record id]) where
  safe := by
    rintro hsafe ⟨r, hr, value, hissue⟩
    have hdenies : ∃ r ∈ rs, r.Denies := by
      rcases List.mem_append.1 hr with hr | hr
      · exact hsafe ⟨r, hr, value, hissue⟩
      · rw [List.mem_singleton.1 hr, Body.record_caa?] at hissue
        exact h.denied_before_issue hissue
    obtain ⟨d, hd, hdenies⟩ := hdenies
    exact ⟨d, List.mem_append_left _ hd, hdenies⟩
  nonempty := fun ⟨r, hr, hkind⟩ => ⟨r, List.mem_append_left _ hr, hkind⟩
  replaced := fun old hold _ => .inl ⟨old, List.mem_append_left _ hold, rfl, rfl⟩

/-- An update changes neither an ID nor a CAA value. -/
theorem update_record (h : Publishing records rs creates (u :: updates) stale) {r : Record}
    (hr : r ∈ rs) : ∃ r' ∈ (Request.update u.1 u.2).apply id rs, r'.id = r.id ∧ r'.caa? = r.caa? := by
  obtain ⟨hdata, hvalue⟩ := h.update u List.mem_cons_self
  refine ⟨if r.id = u.1.id then u.2.patch r else r, List.mem_map_of_mem hr, ?_⟩
  split_ifs with heq
  · exact ⟨rfl, (Body.patch_caa? hdata r).trans (hvalue r hr heq).symm⟩
  · exact ⟨rfl, rfl⟩

theorem update_record_of (h : Publishing records rs creates (u :: updates) stale) {r' : Record}
    (hr' : r' ∈ (Request.update u.1 u.2).apply id rs) :
    ∃ r ∈ rs, r'.id = r.id ∧ r'.caa? = r.caa? := by
  obtain ⟨hdata, hvalue⟩ := h.update u List.mem_cons_self
  obtain ⟨r, hr, rfl⟩ := List.mem_map.1 hr'
  refine ⟨r, hr, ?_⟩
  split_ifs with heq
  · exact ⟨rfl, (Body.patch_caa? hdata r).trans (hvalue r hr heq).symm⟩
  · exact ⟨rfl, rfl⟩

theorem updated (h : Publishing records rs creates (u :: updates) stale) :
    Publishing records ((Request.update u.1 u.2).apply id rs) creates updates stale := by
  have hsecured : ∀ {value}, Secured rs creates stale value →
      Secured ((Request.update u.1 u.2).apply id rs) creates stale value := by
    rintro value (hcreate | ⟨r, hr, hvalue, hkept⟩)
    · exact .inl hcreate
    · obtain ⟨r', hr', hid, hsame⟩ := h.update_record hr
      exact .inr ⟨r', hr', hsame.trans hvalue, hid ▸ hkept⟩
  refine ⟨h.order, hsecured h.issue, hsecured h.deny, fun v hv => ?_⟩
  obtain ⟨hdata, hvalue⟩ := h.update v (List.mem_cons_of_mem _ hv)
  refine ⟨hdata, fun r' hr' heq => ?_⟩
  obtain ⟨r, hr, hid, hsame⟩ := h.update_record_of hr'
  exact hsame.trans (hvalue r hr (hid.symm.trans heq))

theorem update_effect (h : Publishing records rs [] (u :: updates) stale) :
    PublishEffect records rs ((Request.update u.1 u.2).apply id rs) where
  safe := by
    intro _ _
    obtain ⟨d, hd, hdenies, -⟩ := h.deny.held
    obtain ⟨d', hd', -, hsame⟩ := h.update_record hd
    exact ⟨d', hd', hsame.trans hdenies⟩
  nonempty := by
    intro _
    obtain ⟨d, hd, hdenies, -⟩ := h.deny.held
    obtain ⟨d', hd', -, hsame⟩ := h.update_record hd
    exact ⟨d', hd', Record.kind_of_caa? (hsame.trans hdenies)⟩
  replaced := fun old hold _ => .inl (h.update_record hold)

/-- A record that is not stale stays at a delete. -/
theorem mem_delete {r : Record} (hr : r ∈ rs) (hkept : r.id ∉ (record :: stale).map Record.id) :
    r ∈ (Request.delete record).apply id rs := by
  refine List.mem_filter.2 ⟨hr, decide_eq_true fun heq => hkept ?_⟩
  rw [heq]
  exact List.mem_cons_self

theorem deleted (h : Publishing records rs [] [] (record :: stale)) :
    Publishing records ((Request.delete record).apply id rs) [] [] stale := by
  have hsecured : ∀ {value}, Secured rs [] (record :: stale) value →
      Secured ((Request.delete record).apply id rs) [] stale value := by
    intro value hvalue
    obtain ⟨r, hr, hvalue, hkept⟩ := hvalue.held
    exact .inr ⟨r, mem_delete hr hkept, hvalue, fun hmem => hkept (List.mem_cons_of_mem _ hmem)⟩
  exact ⟨h.order, hsecured h.issue, hsecured h.deny, fun u hu => absurd hu List.not_mem_nil⟩

theorem delete_effect (h : Publishing records rs [] [] (record :: stale)) :
    PublishEffect records rs ((Request.delete record).apply id rs) where
  safe := by
    intro _ _
    obtain ⟨d, hd, hdenies, hkept⟩ := h.deny.held
    exact ⟨d, mem_delete hd hkept, hdenies⟩
  nonempty := by
    intro _
    obtain ⟨d, hd, hdenies, hkept⟩ := h.deny.held
    exact ⟨d, mem_delete hd hkept, Record.kind_of_caa? hdenies⟩
  replaced := by
    intro old hold _
    obtain ⟨new, hnew, hissue, hkept⟩ := h.issue.held
    exact .inr ⟨new, hnew, mem_delete hnew hkept, hissue⟩

end Publishing

/-- The records of a serving name and the values their keys stand for. -/
theorem Desired.caa {desired : List (RecordKey × Body)} (h : Desired ipText records desired)
    {key : RecordKey} (hbody : (Std.TreeMap.ofList desired)[key]? = some body) :
    (body.kind = "CAA" → body.data.isSome) ∧
      ∀ r : Record, r.key = .ok key → r.caa? = body.caa? := by
  rcases h.entry _ ((ofList_getElem?_iff h.keys).1 hbody) with ⟨ip, he⟩ | he | he
  · obtain ⟨hkey, hbody⟩ := Prod.mk.inj he
    have hkind : body.kind ≠ "CAA" := by
      rw [hbody]
      exact addressEntry_kind_ne ipText records.hostname ip
    refine ⟨fun hcaa => absurd hcaa hkind, fun r hr => ?_⟩
    have hrecord : r.kind ≠ "CAA" := by
      rw [Record.kind_of_key hr, hkey]
      exact addressEntry_kind_ne ipText records.hostname ip
    unfold Record.caa? Body.caa? Cloudflare.caa?
    rw [if_neg hkind, if_neg hrecord]
  · obtain ⟨rfl, rfl⟩ := Prod.mk.inj he
    exact ⟨fun _ => rfl, fun r hr => Record.caa?_of_key hr (.inl rfl)⟩
  · obtain ⟨rfl, rfl⟩ := Prod.mk.inj he
    exact ⟨fun _ => rfl, fun r hr => Record.caa?_of_key hr (.inr rfl)⟩

/-- A publication starts with both records either there or to be created. -/
theorem Planned.publishing {desired : List (RecordKey × Body)} {sorted : Sorted}
    (hdesired : Desired ipText records desired)
    (h : Planned listing desired sorted creates stale) (hids : (listing.map Record.id).Nodup) :
    Publishing records listing creates sorted.updates stale := by
  have hsecured : ∀ {tag value : String}, (tag = "issue" ∨ tag = "issuewild") →
      caaRecord records.hostname tag value ∈ desired →
      Secured listing creates stale (tag, value) := by
    intro tag value htag hmem
    by_cases hfound : (⟨"CAA", tag ++ ":" ++ value⟩ : RecordKey) ∈ sorted.found
    · rcases h.sorting.of_mem_found hids hfound with hnil | ⟨r, hr, -, hkey, hkept⟩
      · exact absurd hnil List.not_mem_nil
      · refine .inr ⟨r, hr, Record.caa?_of_key hkey htag, fun hstale => hkept ?_⟩
        exact (h.stale.map Record.id).mem_iff.1 hstale
    · refine .inl ⟨caaBody records.hostname tag value, ?_, rfl⟩
      exact (h.mem_creates _).2 ⟨_, hfound, (ofList_getElem?_iff hdesired.keys).2 hmem⟩
  refine ⟨h.createOrder, hsecured (.inl rfl) hdesired.issue, hsecured (.inr rfl) hdesired.deny,
    fun u hu => ?_⟩
  obtain ⟨hu, -, key, hkey, hbody⟩ := h.sorting.of_mem_updates hu
  obtain ⟨hdata, hvalue⟩ := hdesired.caa hbody
  refine ⟨hdata, fun r hr hid => ?_⟩
  obtain rfl := List.inj_on_of_nodup_map hids hr hu hid
  exact hvalue _ hkey

/-! ## A retirement -/

/-- Where a retirement stands: every CAA record that is left is still to be deleted. -/
structure Retiring (rs stale : List Record) : Prop where
  order : stale.Pairwise fun a b => deleteRank a ≤ deleteRank b
  left : ∀ r ∈ rs, r.kind = "CAA" → r ∈ stale

theorem deleteRank_of_caa? {r : Record} {tag value : String} (h : r.caa? = some (tag, value)) :
    (tag = "issue" → deleteRank r = 0) ∧ (tag = "issuewild" → deleteRank r = 2) := by
  unfold Record.caa? Cloudflare.caa? at h
  split_ifs at h with hkind
  obtain ⟨data, hdata, hpair⟩ := Option.map_eq_some_iff.1 h
  obtain ⟨rfl, rfl⟩ := Prod.mk.inj hpair
  unfold deleteRank
  rw [hkind, hdata, Option.map_some]
  constructor
  · intro htag
    rw [htag]
    rfl
  · intro htag
    rw [htag]
    rfl

namespace Retiring

theorem deleted (h : Retiring rs (record :: stale)) :
    Retiring ((Request.delete record).apply id rs) stale := by
  refine ⟨(List.pairwise_cons.1 h.order).2, fun r hr hkind => ?_⟩
  obtain ⟨hr, hne⟩ := List.mem_filter.1 hr
  rcases List.mem_cons.1 (h.left r hr hkind) with rfl | hmem
  · exact absurd rfl (of_decide_eq_true hne)
  · exact hmem

/-- The denial goes last. -/
theorem safe (h : Retiring rs (record :: stale)) (hrecord : record ∈ rs)
    (hids : (rs.map Record.id).Nodup) (hsafe : CaaSafe rs) :
    CaaSafe ((Request.delete record).apply id rs) := by
  rintro ⟨r, hr, value, hissue⟩
  have hstale := h.deleted.left r hr (Record.kind_of_caa? hissue)
  obtain ⟨hr, -⟩ := List.mem_filter.1 hr
  obtain ⟨d, hd, hdenies⟩ := hsafe ⟨r, hr, value, hissue⟩
  refine ⟨d, List.mem_filter.2 ⟨hd, decide_eq_true fun heq => ?_⟩, hdenies⟩
  obtain rfl := List.inj_on_of_nodup_map hids hd hrecord heq
  have hle := (List.pairwise_cons.1 h.order).1 r hstale
  rw [(deleteRank_of_caa? hdenies).2 rfl, (deleteRank_of_caa? hissue).1 rfl] at hle
  exact absurd hle (by decide)

end Retiring

/-! ## A challenge set -/

/-- The request leaves CAA records alone. -/
def Request.Plain (rs : List Record) : Request → Prop
  | .create body => body.caa? = none
  | .update _ _ => False
  | .delete record => ∀ r ∈ rs, r.id = record.id → r.caa? = none

theorem Request.Plain.safe (h : request.Plain rs) (hsafe : CaaSafe rs) :
    CaaSafe (request.apply id rs) := by
  cases request with
  | create body =>
    rintro ⟨r, hr, value, hissue⟩
    have hold : r ∈ rs := by
      rcases List.mem_append.1 hr with hr | hr
      · exact hr
      · rw [List.mem_singleton.1 hr, Body.record_caa?, show body.caa? = none from h] at hissue
        cases hissue
    obtain ⟨d, hd, hdenies⟩ := hsafe ⟨r, hold, value, hissue⟩
    exact ⟨d, List.mem_append_left _ hd, hdenies⟩
  | update record body => exact h.elim
  | delete record =>
    rintro ⟨r, hr, hissue⟩
    obtain ⟨d, hd, hdenies⟩ := hsafe ⟨r, (List.mem_filter.1 hr).1, hissue⟩
    refine ⟨d, List.mem_filter.2 ⟨hd, decide_eq_true fun heq => ?_⟩, hdenies⟩
    have hnone : d.caa? = none := h d hd heq
    cases hnone.symm.trans hdenies

/-- A plain request is plain after another one too. -/
theorem Request.Plain.apply {other : Request} (h : other.Plain rs) (hplain : request.Plain rs) :
    other.Plain (request.apply id rs) := by
  cases other with
  | create body => exact h
  | update record body => exact h
  | delete record =>
    intro r hr heq
    cases request with
    | create body =>
      rcases List.mem_append.1 hr with hr | hr
      · exact h r hr heq
      · rw [List.mem_singleton.1 hr]
        exact hplain
    | update _ _ => exact hplain.elim
    | delete _ => exact h r (List.mem_filter.1 hr).1 heq

theorem Request.Plain.of_mem (h : request.Plain listing) (hmem : ∀ r, r ∈ rs → r ∈ listing) :
    request.Plain rs := by
  cases request with
  | create body => exact h
  | update record body => exact h
  | delete record => exact fun r hr => h r (hmem r hr)

theorem caa?_of_txt {r : Record} (h : r.kind = "TXT") : r.caa? = none := by
  unfold Record.caa? Cloudflare.caa?
  rw [if_neg (by rw [h]; decide)]

theorem deletes_plain {records : List Record} (hsub : ∀ r ∈ records, r ∈ listing ∧ r.kind = "TXT")
    (hids : (listing.map Record.id).Nodup) :
    ∀ q ∈ records.map Request.delete, q.Plain listing := by
  intro q hq
  obtain ⟨record, hrecord, rfl⟩ := List.mem_map.1 hq
  intro r hr heq
  obtain rfl := List.inj_on_of_nodup_map hids hr (hsub record hrecord).1 heq
  exact caa?_of_txt (hsub r hrecord).2

/-! ## The calls at a name -/

/-- What the order of its requests gives a call under way. -/
def Attempt.Ordered (attempt : Attempt) (rs : List Record) : Prop :=
  match attempt.write with
  | .publishName records => ∃ creates updates stale,
      attempt.requests = servingRequests creates updates stale ∧
      Publishing records rs creates updates stale
  | .retireName _ => ∃ stale, attempt.requests = stale.map .delete ∧
      (∀ r ∈ stale, r ∈ rs) ∧ Retiring rs stale
  | .setChallenge _ _ | .retireChallenge _ => ∀ q ∈ attempt.requests, q.Plain rs

theorem start_ordered {scope : Scope} {write : Write}
    (h : requests ipText scope listing write = .ok reqs) (hids : (listing.map Record.id).Nodup) :
    Attempt.Ordered ⟨write, reqs⟩ listing := by
  cases write with
  | publishName records =>
    obtain ⟨desired, sorted, creates, stale, hdesired, hplan, rfl⟩ := publishName_ok h
    exact ⟨creates, sorted.updates, stale, rfl, hplan.publishing hdesired hids⟩
  | retireName hostname =>
    obtain ⟨records, hperm, horder, rfl⟩ := retireName_ok h
    refine ⟨records, rfl, fun r hr => (List.mem_filter.1 (hperm.mem_iff.1 hr)).1, horder,
      fun r hr hkind => hperm.mem_iff.2 (List.mem_filter.2 ⟨hr, ?_⟩)⟩
    rw [hkind]
    rfl
  | setChallenge hostname values =>
    obtain ⟨-, -, hmanaged, rfl⟩ := setChallenge_ok h
    intro q hq
    rcases List.mem_append.1 hq with hq | hq
    · refine deletes_plain (fun r hr => ?_) hids q hq
      have hmem := (sortChallenge_sublist values [] listing).subset hr
      exact ⟨hmem, (hmanaged r hmem).1⟩
    · obtain ⟨value, -, rfl⟩ := List.mem_map.1 hq
      rfl
  | retireChallenge hostname =>
    obtain ⟨-, rfl⟩ := retireChallenge_ok h
    exact deletes_plain (fun r hr => (List.mem_filter.1 hr).imp_right of_decide_eq_true) hids

theorem Secured.of_perm {value : String × String} (h : Secured listing creates stale value)
    (hperm : listing.Perm rs) : Secured rs creates stale value := by
  rcases h with hcreate | ⟨r, hr, hvalue, hkept⟩
  · exact .inl hcreate
  · exact .inr ⟨r, hperm.mem_iff.1 hr, hvalue, hkept⟩

/-- The order of the listing plays no part. -/
theorem Attempt.Ordered.of_perm {attempt : Attempt} (h : attempt.Ordered listing)
    (hperm : listing.Perm rs) : attempt.Ordered rs := by
  have hmem : ∀ r, r ∈ rs → r ∈ listing := fun _ => hperm.mem_iff.2
  obtain ⟨write, reqs⟩ := attempt
  cases write with
  | publishName records =>
    obtain ⟨creates, updates, stale, hreqs, hplan⟩ := h
    refine ⟨creates, updates, stale, hreqs, hplan.order, hplan.issue.of_perm hperm,
      hplan.deny.of_perm hperm, fun u hu => ⟨(hplan.update u hu).1, fun r hr => ?_⟩⟩
    exact (hplan.update u hu).2 r (hmem r hr)
  | retireName hostname =>
    obtain ⟨stale, hreqs, hsub, hretiring⟩ := h
    exact ⟨stale, hreqs, fun r hr => hperm.mem_iff.1 (hsub r hr), hretiring.order,
      fun r hr => hretiring.left r (hmem r hr)⟩
  | setChallenge hostname values => exact fun q hq => (h q hq).of_mem hmem
  | retireChallenge hostname => exact fun q hq => (h q hq).of_mem hmem

/-- The first request of a publication: a create, an update when nothing is left to create, or a
delete when nothing else is left. -/
theorem servingRequests_eq_cons (h : request :: rest = servingRequests creates updates stale) :
    (∃ body creates', creates = body :: creates' ∧ request = .create body ∧
      rest = servingRequests creates' updates stale) ∨
    (∃ u updates', creates = [] ∧ updates = u :: updates' ∧ request = .update u.1 u.2 ∧
      rest = servingRequests [] updates' stale) ∨
    ∃ record stale', creates = [] ∧ updates = [] ∧ stale = record :: stale' ∧
      request = .delete record ∧ rest = servingRequests [] [] stale' := by
  cases creates with
  | cons body creates' =>
    obtain ⟨rfl, rfl⟩ := List.cons.inj h
    exact .inl ⟨body, creates', rfl, rfl, rfl⟩
  | nil =>
    cases updates with
    | cons u updates' =>
      obtain ⟨rfl, rfl⟩ := List.cons.inj h
      exact .inr (.inl ⟨u, updates', rfl, rfl, rfl, rfl⟩)
    | nil =>
      cases stale with
      | cons record stale' =>
        obtain ⟨rfl, rfl⟩ := List.cons.inj h
        exact .inr (.inr ⟨record, stale', rfl, rfl, rfl, rfl, rfl⟩)
      | nil => cases h

/-- One request of a publication. -/
theorem Publishing.apply (h : Publishing records rs creates updates stale)
    (hreqs : request :: rest = servingRequests creates updates stale)
    (hconfined : Confined name (request :: rest) rs)
    (hids : ((request.apply id rs).map Record.id).Nodup) :
    Attempt.Ordered ⟨.publishName records, rest⟩ (request.apply id rs) ∧
      PublishEffect records rs (request.apply id rs) := by
  obtain ⟨hupdates, hstale⟩ := (hreqs ▸ hconfined).known_serving
  rcases servingRequests_eq_cons hreqs with ⟨body, creates', rfl, rfl, rfl⟩ |
    ⟨u, updates', rfl, rfl, rfl, rfl⟩ | ⟨record, stale', rfl, rfl, rfl, rfl, rfl⟩
  · have hid := not_mem_ids_of_create hids
    exact ⟨⟨_, _, _, rfl, h.create hstale hupdates hid⟩, h.create_effect⟩
  · exact ⟨⟨_, _, _, rfl, h.updated⟩, h.update_effect⟩
  · exact ⟨⟨_, _, _, rfl, h.deleted⟩, h.delete_effect⟩

/-- One request of any call. -/
theorem Attempt.Ordered.apply {write : Write} (h : Attempt.Ordered ⟨write, request :: rest⟩ rs)
    (hconfined : Confined name (request :: rest) rs) (hold : (rs.map Record.id).Nodup)
    (hids : ((request.apply id rs).map Record.id).Nodup) :
    Attempt.Ordered ⟨write, rest⟩ (request.apply id rs) ∧
      (CaaSafe rs → CaaSafe (request.apply id rs)) ∧
      ∀ records, write = .publishName records → PublishEffect records rs (request.apply id rs) := by
  have hplain : (∀ q ∈ request :: rest, q.Plain rs) →
      (∀ q ∈ rest, q.Plain (request.apply id rs)) ∧ (CaaSafe rs → CaaSafe (request.apply id rs)) :=
    fun hq => ⟨fun q hmem => (hq q (List.mem_cons_of_mem _ hmem)).apply (hq _ List.mem_cons_self),
      (hq _ List.mem_cons_self).safe⟩
  cases write with
  | publishName records =>
    obtain ⟨creates, updates, stale, hreqs, hplan⟩ := h
    obtain ⟨hnext, heffect⟩ := hplan.apply hreqs hconfined hids
    exact ⟨hnext, heffect.safe, fun _ heq => Write.publishName.inj heq ▸ heffect⟩
  | retireName hostname =>
    obtain ⟨stale, hreqs, hsub, hretiring⟩ := h
    cases stale with
    | nil => cases hreqs
    | cons record stale' =>
      obtain ⟨rfl, rfl⟩ := List.cons.inj hreqs
      refine ⟨⟨stale', rfl, fun r hr => ?_, hretiring.deleted⟩,
        hretiring.safe (hsub _ List.mem_cons_self) hold, fun _ heq => by cases heq⟩
      have hr' := hsub r (List.mem_cons_of_mem _ hr)
      refine List.mem_filter.2 ⟨hr', decide_eq_true fun heq => ?_⟩
      have honce := (List.pairwise_cons.1 hconfined.once).1 _ (List.mem_map_of_mem hr)
      exact honce record.id rfl (congrArg some heq)
  | setChallenge hostname values => exact ⟨(hplain h).1, (hplain h).2, fun _ heq => by cases heq⟩
  | retireChallenge hostname => exact ⟨(hplain h).1, (hplain h).2, fun _ heq => by cases heq⟩

/-! ## Every run -/

/-- What holds at a name: CAA safety, and the order of what its call has still to do. -/
structure CaaOrder (name : String) (attempt : Option Attempt) (rs : List Record) : Prop where
  safe : CaaSafe rs
  ordered : ∀ a, attempt = some a → a.Ordered rs ∧ Confined name a.requests rs

theorem CaaOrder.step {attempt attempt' : Option Attempt} {rs' : List Record}
    (hids : (rs.map Record.id).Nodup) (h : CaaOrder name attempt rs)
    (hstep : NameStep ipText name attempt rs attempt' rs') :
    CaaOrder name attempt' rs' ∧
      ∀ a records, attempt = some a → a.write = .publishName records →
        rs' = rs ∨ PublishEffect records rs rs' := by
  cases hstep with
  | same => exact ⟨h, fun _ _ _ _ => .inl rfl⟩
  | stop => exact ⟨⟨h.safe, fun _ hnone => by cases hnone⟩, fun _ _ _ _ => .inl rfl⟩
  | start hname hlisting hreqs =>
    refine ⟨⟨h.safe, fun a ha => ?_⟩, fun _ _ _ _ => .inl rfl⟩
    obtain rfl := Option.some.inj ha
    subst hname
    have hlisted := (hlisting.map Record.id).nodup_iff.2 hids
    exact ⟨(start_ordered hreqs hlisted).of_perm hlisting,
      (requests_confined hreqs hlisted).of_perm hlisting⟩
  | answer hnew =>
    obtain ⟨hordered, hconfined⟩ := h.ordered _ rfl
    obtain ⟨hnext, hsafe, heffect⟩ := hordered.apply hconfined hids hnew
    refine ⟨⟨hsafe h.safe, fun a ha => ?_⟩, fun a records ha hwrite => .inr ?_⟩
    · obtain rfl := Option.some.inj ha
      exact ⟨hnext, hconfined.apply⟩
    · obtain rfl := Option.some.inj ha
      exact heffect records hwrite
  | lose hnew =>
    obtain ⟨hordered, hconfined⟩ := h.ordered _ rfl
    obtain ⟨-, hsafe, heffect⟩ := hordered.apply hconfined hids hnew
    refine ⟨⟨hsafe h.safe, fun _ hnone => by cases hnone⟩, fun a records ha hwrite => .inr ?_⟩
    obtain rfl := Option.some.inj ha
    exact heffect records hwrite

variable {zone : Zone} {host : String} {tr : List (Event Api Action)} {g : Api}

theorem caaOrder_run (hsafe : CaaSafe (zone.recordsAt host)) (hrun : ApiRun ipText zone tr g) :
    CaaOrder host (g.attempts host) (g.zone.recordsAt host) :=
  Api.name_invariant host ⟨hsafe, fun _ hnone => by cases hnone⟩
    (fun _ _ _ _ hids h hstep => (h.step hids hstep).1) hrun

/-- A publication of `records` is under way. -/
def Api.Publishes (g : Api) (host : String) (records : NameRecords) : Prop :=
  ∃ a, g.attempts host = some a ∧ a.write = .publishName records

/-- After every request of every attempt, answered, lost or not made: where there is an
authorization there is the denial. While a publication is under way the CAA records never run out,
and an authorization goes only when the one of the new account is there. -/
theorem caa_safe_throughout (hsafe : CaaSafe (zone.recordsAt host))
    (hrun : ApiRun ipText zone tr g) :
    CaaSafe (g.zone.recordsAt host) ∧
      ∀ e ∈ tr, ∀ records, e.src.Publishes host records →
        ((∃ r ∈ e.src.zone.recordsAt host, r.kind = "CAA") →
          ∃ r ∈ e.dst.zone.recordsAt host, r.kind = "CAA") ∧
        ∀ old ∈ e.src.zone.recordsAt host, old.Issues →
          (∃ r ∈ e.dst.zone.recordsAt host, r.id = old.id ∧ r.caa? = old.caa?) ∨
          ∃ new ∈ e.src.zone.recordsAt host, new ∈ e.dst.zone.recordsAt host ∧
            new.Authorizes records.acmeAccountUri := by
  refine ⟨(caaOrder_run hsafe hrun).safe, fun e he records ⟨a, ha, hwrite⟩ => ?_⟩
  obtain ⟨later, earlier, rfl⟩ := List.append_of_mem he
  obtain ⟨hbefore, hstep, -⟩ := hrun.split
  have hname := Api.step_at (Api.allConfined_run hbefore) hstep host
  have heffect := ((caaOrder_run hsafe hbefore).step (Zone.ids_recordsAt_nodup _ _) hname).2
  rcases heffect a records ha hwrite with hsame | heffect
  · rw [hsame]
    exact ⟨id, fun old hold _ => .inl ⟨old, hold, rfl, rfl⟩⟩
  · exact ⟨heffect.nonempty, heffect.replaced⟩

/-! The account of a name changes, and the attempt is cut off twice. -/

def caaHost : String := "abcdefghijklmnopqrstuv2345.relay.bloom.directory"

def caaRecords : NameRecords where
  hostname := caaHost
  addresses := [.v4 0xC0000202]
  acmeAccountUri := "https://acme-v02.api.letsencrypt.org/acme/acct/456"

def denyRecord : Record :=
  (caaBody caaHost "issuewild" ";").record "aaaaaaaaaaaaaaaaaaaaaaaaaaaaaaaa"

def oldIssue : Record :=
  (caaBody caaHost "issue" (issueValue "https://acme-v02.api.letsencrypt.org/acme/acct/123")).record
    "bbbbbbbbbbbbbbbbbbbbbbbbbbbbbbbb"

def newIssue : Record :=
  (caaBody caaHost "issue" (issueValue caaRecords.acmeAccountUri)).record
    "cccccccccccccccccccccccccccccccc"

def caaZone : Zone := ⟨[oldIssue, denyRecord], by decide +kernel⟩

def accountChange : List Action :=
  [.start .serving (.publishName caaRecords) [denyRecord, oldIssue],
    .lose caaHost "cccccccccccccccccccccccccccccccc",
    .start .serving (.publishName caaRecords) [oldIssue, newIssue, denyRecord],
    .answer caaHost "dddddddddddddddddddddddddddddddd", .lose caaHost ""]

theorem caa_safe_throughout_account_change :
    ∃ tr g, ApiRun (fun _ => "192.0.2.2") caaZone tr g ∧ CaaSafe (caaZone.recordsAt caaHost) ∧
      oldIssue ∉ g.zone.records ∧ CaaSafe (g.zone.recordsAt caaHost) := by
  have hplay : (Run.play (Api.step fun _ => "192.0.2.2") (Api.idle caaZone) accountChange).map
      (fun g => decide (oldIssue ∉ g.zone.records)) = some true := by decide +kernel
  obtain ⟨g, hg, hold⟩ := Option.map_eq_some_iff.1 hplay
  obtain ⟨tr, hrun, -⟩ := Run.of_play hg
  have hsafe : CaaSafe (caaZone.recordsAt caaHost) := fun _ =>
    ⟨denyRecord, by decide +kernel, rfl⟩
  exact ⟨tr, g, hrun, hsafe, of_decide_eq_true hold, (caa_safe_throughout hsafe hrun).1⟩

end BloomRelay.Dns.Cloudflare
