import BloomRelay.Dns.Proofs.CaaProofs

/-!
# A serving plan converges

The records a plan keeps and the ones it has still to create are, key by key, the desired ones. The
requests of the plan keep this: a create moves its key from the second kind to the first, an update
settles a record in place, and a delete takes away a record that counts for neither. At the end only
the desired records are left of the served kinds. From wherever the plan is cut off the next plan
starts with records of the same kind, and so it ends in the same place.
-/

namespace BloomRelay.Dns.Cloudflare

open Protocol Store Checked

variable {ipText : IpAddr → String} {name : String} {records : NameRecords}
  {listing rs rs' base : List Record} {desired : List (RecordKey × Body)}
  {reqs rest : List Request} {request : Request} {id : String}
  {creates : List Body} {updates : List (Record × Body)} {stale : List Record}
  {body : Body} {u : Record × Body} {record : Record} {k : RecordKey}

instance : DecidablePred Record.Served := fun r =>
  inferInstanceAs (Decidable (r.kind = "A" ∨ r.kind = "AAAA" ∨ r.kind = "CAA"))

/-- A record the relay did not write, or does not understand. -/
def Record.Foreign (r : Record) : Prop :=
  r.kind = "CNAME" ∨ r.kind = "NS" ∨ (r.Served ∧ r.comment ≠ servingComment) ∨
    (r.kind = "CAA" ∧
      ∀ d, r.data = some d → d.flags ≠ 0 ∨ (d.tag ≠ "issue" ∧ d.tag ≠ "issuewild"))

/-- The record has the lifetime it should have and is not proxied. -/
def Record.Settled (r : Record) : Prop := r.ttl = ttlSeconds ∧ r.proxied = false

/-- The key of the record that a create makes. -/
def Body.key (body : Body) : Except DnsError RecordKey := (body.record "").key

/-- The served records that a plan does not delete. -/
def keptRecords (rs stale : List Record) : List Record :=
  rs.filter fun r => r.Served ∧ r.id ∉ stale.map Record.id

/-- At a name, of the served kinds: the desired records, each key once, settled and marked as the
relay's; of the other kinds: what was there before. -/
structure Exact (desired : List (RecordKey × Body)) (before rs : List Record) : Prop where
  keys : ((rs.filter fun r => r.Served).map Record.key).Perm (desired.map fun e => .ok e.1)
  settled : ∀ r ∈ rs, r.Served → r.Settled ∧ r.comment = servingComment
  others : (rs.filter fun r => ¬ r.Served) = before.filter fun r => ¬ r.Served

/-! ## Keys -/

theorem Record.key_of_caa {r : Record} {tag value : String} (hkind : r.kind = "CAA")
    (hdata : r.data = some ⟨0, tag, value⟩) (htag : tag = "issue" ∨ tag = "issuewild") :
    r.key = .ok ⟨"CAA", tag ++ ":" ++ value⟩ := by
  unfold Record.key
  rw [if_pos hkind, hdata, hkind]
  refine bind_eq_ok.2 ⟨_, rfl, bind_eq_ok.2 ⟨(), ?_, rfl⟩⟩
  exact require_eq_ok.2 ⟨rfl, htag⟩

theorem Record.key_of_not_caa {r : Record} (hkind : r.kind ≠ "CAA") :
    r.key = .ok ⟨r.kind, r.content⟩ := by
  unfold Record.key
  rw [if_neg hkind]

/-- A record with a key is not one that the relay does not understand. -/
theorem Record.key_of_not_foreign {r : Record} (h : ¬ r.Foreign) : ∃ key, r.key = .ok key := by
  by_cases hkind : r.kind = "CAA"
  · have hdata : ∃ d, r.data = some d ∧ d.flags = 0 ∧ (d.tag = "issue" ∨ d.tag = "issuewild") := by
      by_contra hnone
      refine h (.inr (.inr (.inr ⟨hkind, fun d hd => ?_⟩)))
      by_contra hbad
      rw [not_or, not_and_or, not_not, not_not, not_not] at hbad
      exact hnone ⟨d, hd, hbad⟩
    obtain ⟨⟨flags, tag, value⟩, hdata, hflags, htag⟩ := hdata
    obtain rfl : flags = 0 := hflags
    exact ⟨_, Record.key_of_caa hkind hdata htag⟩
  · exact ⟨_, Record.key_of_not_caa hkind⟩

theorem Record.not_foreign_of_key {r : Record} (hserved : r.Served)
    (hcomment : r.comment = servingComment) (hkey : r.key = .ok k) : ¬ r.Foreign := by
  rintro (hkind | hkind | ⟨-, hforeign⟩ | ⟨hkind, hdata⟩)
  · unfold Record.Served at hserved
    rw [hkind] at hserved
    exact absurd hserved (by decide)
  · unfold Record.Served at hserved
    rw [hkind] at hserved
    exact absurd hserved (by decide)
  · exact hforeign hcomment
  · unfold Record.key at hkey
    rw [if_pos hkind] at hkey
    obtain ⟨data, hfound, hkey⟩ := bind_eq_ok.1 hkey
    obtain ⟨_, hchecked, -⟩ := bind_eq_ok.1 hkey
    obtain ⟨hflags, htag⟩ := require_eq_ok.1 hchecked
    rcases hdata data (found_eq_ok.1 hfound) with hbad | ⟨hissue, hwild⟩
    · exact hbad hflags
    · exact htag.elim hissue hwild

/-- What a desired entry writes: a record of its own key, settled and marked. -/
structure Writes (key : RecordKey) (body : Body) : Prop where
  record : ∀ id, (body.record id).key = .ok key ∧ (body.record id).Served ∧
    (body.record id).Settled
  patch : ∀ r : Record, r.key = .ok key → (r.kind = "CAA" → r.proxied = false) →
    (body.patch r).key = .ok key ∧ (body.patch r).Served ∧ (body.patch r).Settled
  comment : body.comment = servingComment

theorem addressEntry_writes (hostname : String) (ip : IpAddr) :
    Writes (addressEntry ipText hostname ip).1 (addressEntry ipText hostname ip).2 := by
  cases ip with
  | v4 bits =>
    have hkind : ("A" : String) ≠ "CAA" := by decide
    exact ⟨fun _ => ⟨Record.key_of_not_caa hkind, .inl rfl, rfl, rfl⟩,
      fun _ _ _ => ⟨Record.key_of_not_caa hkind, .inl rfl, rfl, rfl⟩, rfl⟩
  | v6 bits =>
    have hkind : ("AAAA" : String) ≠ "CAA" := by decide
    exact ⟨fun _ => ⟨Record.key_of_not_caa hkind, .inr (.inl rfl), rfl, rfl⟩,
      fun _ _ _ => ⟨Record.key_of_not_caa hkind, .inr (.inl rfl), rfl, rfl⟩, rfl⟩

theorem caaRecord_writes (hostname : String) {tag value : String}
    (htag : tag = "issue" ∨ tag = "issuewild") :
    Writes (caaRecord hostname tag value).1 (caaRecord hostname tag value).2 where
  record := fun _ => ⟨Record.key_of_caa rfl rfl htag, .inr (.inr rfl), rfl, rfl⟩
  patch := fun _ hkey hproxied =>
    ⟨Record.key_of_caa rfl rfl htag, .inr (.inr rfl), rfl, hproxied (Record.kind_of_key hkey)⟩
  comment := rfl

theorem Desired.writes (h : Desired ipText records desired) (hmem : (k, body) ∈ desired) :
    Writes k body := by
  rcases h.entry _ hmem with ⟨ip, he⟩ | he | he
  · obtain ⟨rfl, rfl⟩ := Prod.mk.inj he
    exact addressEntry_writes records.hostname ip
  · obtain ⟨rfl, rfl⟩ := Prod.mk.inj he
    exact caaRecord_writes records.hostname (.inl rfl)
  · obtain ⟨rfl, rfl⟩ := Prod.mk.inj he
    exact caaRecord_writes records.hostname (.inr rfl)

/-! ## Planning fails or succeeds -/

/-- Only records of the relay, and kinds it does not serve, get through. -/
theorem Sorting.not_foreign {map : Std.TreeMap RecordKey Body} {found : List RecordKey}
    {sorted : Sorted} (h : Sorting map found listing sorted) : ∀ r ∈ listing, ¬ r.Foreign := by
  induction h with
  | nil => exact fun r hr => absurd hr List.not_mem_nil
  | skip hkind hplain _ ih =>
    intro r hr
    rcases List.mem_cons.1 hr with rfl | hr
    · rintro (hcname | hns | ⟨hserved, -⟩ | ⟨hcaa, -⟩)
      · exact hplain (.inl hcname)
      · exact hplain (.inr hns)
      · exact hkind hserved
      · exact hkind (.inr (.inr hcaa))
    · exact ih r hr
  | keep hkind hcomment hkey _ _ _ ih =>
    intro r hr
    rcases List.mem_cons.1 hr with rfl | hr
    · exact Record.not_foreign_of_key hkind hcomment hkey
    · exact ih r hr
  | stale hkind hcomment hkey _ _ ih =>
    intro r hr
    rcases List.mem_cons.1 hr with rfl | hr
    · exact Record.not_foreign_of_key hkind hcomment hkey
    · exact ih r hr

theorem sortRecords_total (map : Std.TreeMap RecordKey Body) (found : List RecordKey)
    (h : ∀ r ∈ listing, ¬ r.Foreign) : ∃ sorted, sortRecords map found listing = .ok sorted := by
  induction listing generalizing found with
  | nil => exact ⟨_, rfl⟩
  | cons r rest ih =>
    have hrest : ∀ r ∈ rest, ¬ r.Foreign := fun r hr => h r (List.mem_cons_of_mem _ hr)
    have hr := h r List.mem_cons_self
    have hkind : ¬ (r.kind = "CNAME" ∨ r.kind = "NS") := fun hk =>
      hr (hk.elim .inl fun hk => .inr (.inl hk))
    unfold sortRecords
    rw [if_neg hkind]
    split_ifs with hserved hcomment
    · exact ih found hrest
    · refine absurd (.inr (.inr (.inl ⟨?_, hcomment⟩))) hr
      by_contra hnone
      exact hserved (by simpa only [Record.Served, not_or] using hnone)
    · obtain ⟨key, hkey⟩ := Record.key_of_not_foreign hr
      rw [hkey]
      cases hbody : map[key]? with
      | none =>
        obtain ⟨sorted, hsorted⟩ := ih found hrest
        exact ⟨_, by simp only [bind, Except.bind, hbody, hsorted]; rfl⟩
      | some body =>
        by_cases hfound : key ∈ found
        · obtain ⟨sorted, hsorted⟩ := ih found hrest
          exact ⟨_, by simp only [bind, Except.bind, hbody, hsorted, if_pos hfound]; rfl⟩
        · obtain ⟨sorted, hsorted⟩ := ih (key :: found) hrest
          exact ⟨_, by simp only [bind, Except.bind, hbody, hsorted, if_neg hfound]; rfl⟩

/-! ## What a plan keeps -/

theorem mem_keptRecords {r : Record} :
    r ∈ keptRecords rs stale ↔ r ∈ rs ∧ r.Served ∧ r.id ∉ stale.map Record.id := by
  unfold keptRecords
  rw [List.mem_filter, decide_eq_true_iff]

theorem keptRecords_cons_of_served (hserved : record.Served) (hkept : record.id ∉ stale.map Record.id) :
    keptRecords (record :: rs) stale = record :: keptRecords rs stale :=
  List.filter_cons_of_pos (decide_eq_true ⟨hserved, hkept⟩)

theorem keptRecords_cons_of_not (h : ¬ (record.Served ∧ record.id ∉ stale.map Record.id)) :
    keptRecords (record :: rs) stale = keptRecords rs stale :=
  List.filter_cons_of_neg (by simpa only [decide_eq_true_iff] using h)

/-- Deleting a record takes nothing from what is kept. -/
theorem keptRecords_delete (rs stale : List Record) (record : Record) :
    keptRecords ((Request.delete record).apply id rs) stale = keptRecords rs (record :: stale) := by
  unfold keptRecords Request.apply
  rw [List.filter_filter]
  refine List.filter_congr fun r _ => ?_
  rw [← Bool.decide_and, decide_eq_decide, List.map_cons, List.mem_cons, not_or]
  constructor
  · rintro ⟨⟨hserved, hkept⟩, hne⟩
    exact ⟨hserved, hne, hkept⟩
  · rintro ⟨hserved, hne, hkept⟩
    exact ⟨⟨hserved, hkept⟩, hne⟩

theorem keptRecords_of_fresh (hid : record.id ∉ rs.map Record.id) :
    keptRecords rs (record :: stale) = keptRecords rs stale := by
  refine List.filter_congr fun r hr => ?_
  have hne : r.id ≠ record.id := fun heq => hid (heq ▸ List.mem_map_of_mem hr)
  rw [decide_eq_decide, List.map_cons, List.mem_cons, not_or]
  exact ⟨fun h => ⟨h.1, h.2.2⟩, fun h => ⟨h.1, hne, h.2⟩⟩

namespace Sorting

variable {map : Std.TreeMap RecordKey Body} {found : List RecordKey} {sorted : Sorted}

/-- The keys of the records a plan keeps: desired, each once, and the ones it counts as found. -/
theorem keptKeys (h : Sorting map found listing sorted) (hids : (listing.map Record.id).Nodup) :
    ∃ keys : List RecordKey, (keptRecords listing sorted.stale).map Record.key = keys.map .ok ∧
      keys.Nodup ∧ (∀ k ∈ keys, k ∉ found ∧ (map[k]?).isSome) ∧
      ∀ k, k ∈ sorted.found ↔ k ∈ found ∨ k ∈ keys := by
  induction h with
  | nil => exact ⟨[], rfl, .nil, fun k hk => absurd hk List.not_mem_nil, fun k => by simp⟩
  | skip hkind _ _ ih =>
    obtain ⟨keys, hkeys, h⟩ := ih (List.nodup_cons.1 hids).2
    refine ⟨keys, ?_, h⟩
    rw [keptRecords_cons_of_not fun hr => hkind hr.1, hkeys]
  | @keep found record rest sorted key body hkind _ hkey hbody hnew hrest ih =>
    obtain ⟨hid, hids⟩ := List.nodup_cons.1 hids
    obtain ⟨keys, hkeys, hnodup, hmem, hfound⟩ := ih hids
    have hstale : record.id ∉ sorted.stale.map Record.id := fun hmem =>
      hid ((hrest.stale_sublist.map Record.id).subset hmem)
    have hkey' : key ∉ keys := fun hk => (hmem key hk).1 List.mem_cons_self
    refine ⟨key :: keys, ?_, List.nodup_cons.2 ⟨hkey', hnodup⟩, fun k hk => ?_, fun k => ?_⟩
    · rw [Sorted.keep_stale, keptRecords_cons_of_served hkind hstale, List.map_cons, hkeys, hkey,
        List.map_cons]
    · rcases List.mem_cons.1 hk with rfl | hk
      · exact ⟨hnew, by rw [hbody]; rfl⟩
      · exact ⟨fun hf => (hmem k hk).1 (List.mem_cons_of_mem _ hf), (hmem k hk).2⟩
    · rw [Sorted.keep_found, hfound, List.mem_cons, List.mem_cons]
      tauto
  | @stale found record rest sorted key hkind _ hkey hother hrest ih =>
    obtain ⟨hid, hids⟩ := List.nodup_cons.1 hids
    obtain ⟨keys, hkeys, h⟩ := ih hids
    refine ⟨keys, ?_, h⟩
    have hdeleted : record.id ∈ (record :: sorted.stale).map Record.id := List.mem_cons_self
    rw [keptRecords_cons_of_not fun hr => hr.2 hdeleted, keptRecords_of_fresh hid, hkeys]

theorem mem_found_of_kept (h : Sorting map found listing sorted)
    (hids : (listing.map Record.id).Nodup) {r : Record}
    (hr : r ∈ keptRecords listing sorted.stale) (hk : r.key = .ok k) : k ∈ sorted.found := by
  obtain ⟨keys, hkept, -, -, hfound⟩ := h.keptKeys hids
  have hmem := List.mem_map_of_mem (f := Record.key) hr
  rw [hkept, hk] at hmem
  obtain ⟨k', hk', heq⟩ := List.mem_map.1 hmem
  exact (hfound k).2 (.inr (Except.ok.inj heq ▸ hk'))

/-- A kept record is settled, or the plan changes it in place. -/
theorem kept_settled (h : Sorting map found listing sorted) (hids : (listing.map Record.id).Nodup) :
    ∀ r ∈ keptRecords listing sorted.stale, r.Settled ∨ ∃ u ∈ sorted.updates, u.1.id = r.id := by
  induction h with
  | nil => exact fun r hr => absurd hr List.not_mem_nil
  | skip hkind _ _ ih =>
    rw [keptRecords_cons_of_not fun hr => hkind hr.1]
    exact ih (List.nodup_cons.1 hids).2
  | @keep found record rest sorted key body hkind _ hkey hbody hnew hrest ih =>
    obtain ⟨hid, hids⟩ := List.nodup_cons.1 hids
    have hstale : record.id ∉ sorted.stale.map Record.id := fun hmem =>
      hid ((hrest.stale_sublist.map Record.id).subset hmem)
    rw [Sorted.keep_stale, keptRecords_cons_of_served hkind hstale]
    unfold Sorted.keep
    intro r hr
    split_ifs with hdrift
    · rcases List.mem_cons.1 hr with rfl | hr
      · exact .inr ⟨(r, body), List.mem_cons_self, rfl⟩
      · rcases ih hids r hr with hsettled | ⟨u, hu, heq⟩
        · exact .inl hsettled
        · exact .inr ⟨u, List.mem_cons_of_mem _ hu, heq⟩
    · rcases List.mem_cons.1 hr with rfl | hr
      · rw [not_or, not_not, Bool.not_eq_true] at hdrift
        exact .inl hdrift
      · exact ih hids r hr
  | @stale found record rest sorted key hkind _ hkey hother hrest ih =>
    obtain ⟨hid, hids⟩ := List.nodup_cons.1 hids
    have hdeleted : record.id ∈ (record :: sorted.stale).map Record.id := List.mem_cons_self
    rw [keptRecords_cons_of_not fun hr => hr.2 hdeleted, keptRecords_of_fresh hid]
    exact ih hids

theorem stale_served (h : Sorting map found listing sorted) : ∀ r ∈ sorted.stale, r.Served := by
  induction h with
  | nil => exact fun r hr => absurd hr List.not_mem_nil
  | skip _ _ _ ih => exact ih
  | keep _ _ _ _ _ _ ih =>
    rw [Sorted.keep_stale]
    exact ih
  | stale hkind _ _ _ _ ih =>
    intro r hr
    rcases List.mem_cons.1 hr with rfl | hr
    · exact hkind
    · exact ih r hr

end Sorting

/-! ## Where a plan stands -/

/-- Where the requests of a plan stand: what they keep and what they have still to create are the
desired records, and they leave alone what was there of other kinds. -/
structure Converging (desired : List (RecordKey × Body)) (before rs : List Record)
    (creates : List Body) (updates : List (Record × Body)) (stale : List Record) : Prop where
  keys : ((keptRecords rs stale).map Record.key ++ creates.map Body.key).Perm
    (desired.map fun e => .ok e.1)
  settled : ∀ r ∈ keptRecords rs stale, r.Settled ∨ ∃ u ∈ updates, u.1.id = r.id
  creates : ∀ body ∈ creates, ∃ k, (k, body) ∈ desired
  updates : ∀ u ∈ updates, ∀ r ∈ rs, r.id = u.1.id →
    r.Served ∧ ∃ k, r.key = .ok k ∧ (k, u.2) ∈ desired
  stale : ∀ s ∈ stale, ∀ r ∈ rs, r.id = s.id → r.Served
  managed : ∀ r ∈ rs, ¬ r.Foreign
  unproxied : ∀ r ∈ rs, r.kind = "CAA" → r.proxied = false
  others : (rs.filter fun r => ¬ r.Served) = before.filter fun r => ¬ r.Served

theorem ofList_toList_perm (hkeys : desired.Pairwise fun a b => a.1 ≠ b.1) :
    (Std.TreeMap.ofList desired).toList.Perm desired := by
  have hdistinct : (Std.TreeMap.ofList desired).toList.Nodup :=
    Std.TreeMap.distinct_keys_toList.imp fun {a b} hne heq => hne (by
      rw [heq]
      exact Std.ReflOrd.compare_self)
  have hnodup : desired.Nodup := hkeys.imp fun hne heq => hne (congrArg Prod.fst heq)
  refine (List.perm_ext_iff_of_nodup hdistinct hnodup).2 fun ⟨key, body⟩ => ?_
  rw [Std.TreeMap.mem_toList_iff_getElem?_eq_some, ofList_getElem?_iff hkeys]

/-- The desired entries whose key is not among `keys`, and `keys` themselves. -/
theorem keys_append_missing (hdesired : Desired ipText records desired) {keys : List RecordKey}
    (hnodup : keys.Nodup) (hmem : ∀ k ∈ keys, k ∈ desired.map Prod.fst) :
    (keys.map (fun k => (.ok k : Except DnsError RecordKey)) ++
      ((desired.filter fun e => e.1 ∉ keys).map Prod.snd).map Body.key).Perm
      (desired.map fun e => .ok e.1) := by
  have hpresent : keys.Perm ((desired.filter fun e => e.1 ∈ keys).map Prod.fst) := by
    have hfilter : ((desired.filter fun e => e.1 ∈ keys).map Prod.fst).Nodup :=
      List.pairwise_map.2 (hdesired.keys.sublist List.filter_sublist)
    refine (List.perm_ext_iff_of_nodup hnodup hfilter).2 fun k => ?_
    rw [List.mem_map]
    constructor
    · intro hk
      obtain ⟨e, he, rfl⟩ := List.mem_map.1 (hmem k hk)
      exact ⟨e, List.mem_filter.2 ⟨he, decide_eq_true hk⟩, rfl⟩
    · rintro ⟨e, he, rfl⟩
      exact of_decide_eq_true (List.mem_filter.1 he).2
  have hmissing : ((desired.filter fun e => e.1 ∉ keys).map Prod.snd).map Body.key =
      (desired.filter fun e => !decide (e.1 ∈ keys)).map fun e => .ok e.1 := by
    rw [List.map_map, show (fun e : RecordKey × Body => decide (e.1 ∉ keys)) =
      fun e => !decide (e.1 ∈ keys) from funext fun e => decide_not]
    refine List.map_congr_left fun e he => ?_
    exact ((hdesired.writes (List.mem_filter.1 he).1).record "").1
  rw [hmissing]
  have hall := (List.filter_append_perm (fun e : RecordKey × Body => decide (e.1 ∈ keys)) desired).map
    fun e => (Except.ok e.1 : Except DnsError RecordKey)
  rw [List.map_append] at hall
  refine List.Perm.trans (List.Perm.append_right _ ?_) hall
  have hok := hpresent.map fun k => (.ok k : Except DnsError RecordKey)
  rwa [List.map_map] at hok

theorem keptRecords_perm {stale' : List Record} (h : stale.Perm stale') :
    keptRecords rs stale = keptRecords rs stale' := by
  refine List.filter_congr fun r _ => ?_
  rw [decide_eq_decide, (h.map Record.id).mem_iff]

theorem Planned.converging {sorted : Sorted} (hdesired : Desired ipText records desired)
    (h : Planned listing desired sorted creates stale) (hids : (listing.map Record.id).Nodup)
    (hproxied : ∀ r ∈ listing, r.kind = "CAA" → r.proxied = false) :
    Converging desired listing listing creates sorted.updates stale := by
  obtain ⟨keys, hkept, hnodup, hmem, hfound⟩ := h.sorting.keptKeys hids
  have hin : ∀ k ∈ keys, k ∈ desired.map Prod.fst := by
    intro k hk
    obtain ⟨body, hbody⟩ := Option.isSome_iff_exists.1 (hmem k hk).2
    exact List.mem_map_of_mem ((ofList_getElem?_iff hdesired.keys).1 hbody)
  have hcreates : (creates.map Body.key).Perm
      (((desired.filter fun e => e.1 ∉ keys).map Prod.snd).map Body.key) := by
    have hsame : (fun e : RecordKey × Body => decide (e.1 ∉ sorted.found)) =
        fun e => decide (e.1 ∉ keys) := by
      funext e
      rw [decide_eq_decide, hfound, or_iff_right List.not_mem_nil]
    have hmissing := h.missing
    rw [hsame] at hmissing
    exact (hmissing.trans (((ofList_toList_perm hdesired.keys).filter _).map _)).map _
  refine ⟨?_, ?_, fun body hbody => ?_, fun u hu r hr heq => ?_, fun s hs r hr heq => ?_,
    h.sorting.not_foreign, hproxied, rfl⟩
  · rw [keptRecords_perm h.stale, hkept]
    exact (hcreates.append_left _).trans (keys_append_missing hdesired hnodup hin)
  · rw [keptRecords_perm h.stale]
    exact h.sorting.kept_settled hids
  · obtain ⟨key, -, hkey⟩ := (h.mem_creates body).1 hbody
    exact ⟨key, (ofList_getElem?_iff hdesired.keys).1 hkey⟩
  · obtain ⟨hu, hserved, key, hkey, hbody⟩ := h.sorting.of_mem_updates hu
    obtain rfl := List.inj_on_of_nodup_map hids hr hu heq
    exact ⟨hserved, key, hkey, (ofList_getElem?_iff hdesired.keys).1 hbody⟩
  · have hs := h.stale.mem_iff.1 hs
    obtain rfl := List.inj_on_of_nodup_map hids hr (h.sorting.stale_sublist.subset hs) heq
    exact h.sorting.stale_served r hs

/-! ## One request -/

namespace Converging

theorem create (hdesired : Desired ipText records desired)
    (h : Converging desired base rs (body :: creates) updates stale)
    (hstale : id ∉ stale.map Record.id) (hupdates : ∀ u ∈ updates, u.1.id ≠ id) :
    Converging desired base ((Request.create body).apply id rs) creates updates stale := by
  obtain ⟨k, hk⟩ := h.creates body List.mem_cons_self
  have hwrites := hdesired.writes hk
  obtain ⟨hkey, hserved, hsettled⟩ := hwrites.record id
  have hkept : keptRecords (rs ++ [body.record id]) stale =
      keptRecords rs stale ++ [body.record id] := by
    have hone : keptRecords [body.record id] stale = [body.record id] :=
      keptRecords_cons_of_served hserved hstale
    exact (List.filter_append _ _).trans (congrArg (keptRecords rs stale ++ ·) hone)
  have hbodyKey : body.key = .ok k := (hwrites.record "").1
  have hnew : ∀ r ∈ rs ++ [body.record id], r ∈ rs ∨ r = body.record id := fun r hr =>
    (List.mem_append.1 hr).imp_right List.mem_singleton.1
  unfold Request.apply
  refine ⟨?_, fun r hr => ?_, fun b hb => h.creates b (List.mem_cons_of_mem _ hb),
    fun u hu r hr heq => ?_, fun s hs r hr heq => ?_, fun r hr => ?_, fun r hr hkind => ?_, ?_⟩
  · have hkeys := h.keys
    rw [List.map_cons, hbodyKey] at hkeys
    rw [hkept, List.map_append, List.map_singleton, hkey, List.append_assoc, List.singleton_append]
    exact hkeys
  · rw [hkept] at hr
    rcases List.mem_append.1 hr with hr | hr
    · exact h.settled r hr
    · exact .inl (List.mem_singleton.1 hr ▸ hsettled)
  · rcases hnew r hr with hr | rfl
    · exact h.updates u hu r hr heq
    · exact absurd heq.symm (hupdates u hu)
  · rcases hnew r hr with hr | rfl
    · exact h.stale s hs r hr heq
    · exact hserved
  · rcases hnew r hr with hr | rfl
    · exact h.managed r hr
    · exact Record.not_foreign_of_key hserved hwrites.comment hkey
  · rcases hnew r hr with hr | rfl
    · exact h.unproxied r hr hkind
    · exact hsettled.2
  · rw [List.filter_append, List.filter_cons_of_neg (by simpa using hserved), List.filter_nil,
      List.append_nil]
    exact h.others

/-- What an update makes of a record. -/
theorem update_record (hdesired : Desired ipText records desired)
    (h : Converging desired base rs creates (u :: updates) stale) {r : Record} (hr : r ∈ rs) :
    let r' := if r.id = u.1.id then u.2.patch r else r
    r'.id = r.id ∧ r'.key = r.key ∧ (r'.Served ↔ r.Served) ∧ ¬ r'.Foreign ∧
      (r.id = u.1.id → r'.Settled) := by
  intro r'
  by_cases heq : r.id = u.1.id
  · obtain ⟨hserved, k, hkey, hmem⟩ := h.updates u List.mem_cons_self r hr heq
    have hwrites := hdesired.writes hmem
    obtain ⟨hkey', hserved', hsettled⟩ := hwrites.patch r hkey (h.unproxied r hr)
    have hr' : r' = u.2.patch r := if_pos heq
    rw [hr', hkey']
    exact ⟨rfl, hkey.symm, ⟨fun _ => hserved, fun _ => hserved'⟩,
      Record.not_foreign_of_key hserved' hwrites.comment hkey', fun _ => hsettled⟩
  · have hr' : r' = r := if_neg heq
    rw [hr']
    exact ⟨rfl, rfl, Iff.rfl, h.managed r hr, fun hid => absurd hid heq⟩

theorem update (hdesired : Desired ipText records desired)
    (h : Converging desired base rs creates (u :: updates) stale) :
    Converging desired base ((Request.update u.1 u.2).apply id rs) creates updates stale := by
  have hrecord := fun r (hr : r ∈ rs) => h.update_record hdesired hr
  have hkept : keptRecords ((Request.update u.1 u.2).apply id rs) stale =
      (keptRecords rs stale).map fun r => if r.id = u.1.id then u.2.patch r else r := by
    unfold keptRecords Request.apply
    rw [List.filter_map]
    congr 1
    refine List.filter_congr fun r hr => ?_
    obtain ⟨hid, -, hserved, -⟩ := hrecord r hr
    rw [Function.comp_apply, decide_eq_decide, hid, hserved]
  refine ⟨?_, fun r' hr' => ?_, h.creates, fun v hv r' hr' heq => ?_, fun s hs r' hr' heq => ?_,
    fun r' hr' => ?_, fun r' hr' hkind => ?_, ?_⟩
  · have hsame : (keptRecords rs stale).map (Record.key ∘ fun r =>
        if r.id = u.1.id then u.2.patch r else r) = (keptRecords rs stale).map Record.key :=
      List.map_congr_left fun r hr => (hrecord r (mem_keptRecords.1 hr).1).2.1
    rw [hkept, List.map_map, hsame]
    exact h.keys
  · rw [hkept] at hr'
    obtain ⟨r, hr, rfl⟩ := List.mem_map.1 hr'
    obtain ⟨hid, -, -, -, hsettled⟩ := hrecord r (mem_keptRecords.1 hr).1
    by_cases heq : r.id = u.1.id
    · exact .inl (hsettled heq)
    · rw [if_neg heq]
      rcases h.settled r hr with hs | ⟨v, hv, hvid⟩
      · exact .inl hs
      · rcases List.mem_cons.1 hv with rfl | hv
        · exact absurd hvid.symm heq
        · exact .inr ⟨v, hv, hvid⟩
  · obtain ⟨r, hr, rfl⟩ := List.mem_map.1 hr'
    obtain ⟨hid, hkey, hserved, -⟩ := hrecord r hr
    obtain ⟨hr', k, hk, hmem⟩ := h.updates v (List.mem_cons_of_mem _ hv) r hr (hid.symm.trans heq)
    exact ⟨hserved.2 hr', k, hkey.trans hk, hmem⟩
  · obtain ⟨r, hr, rfl⟩ := List.mem_map.1 hr'
    obtain ⟨hid, -, hserved, -⟩ := hrecord r hr
    exact hserved.2 (h.stale s hs r hr (hid.symm.trans heq))
  · obtain ⟨r, hr, rfl⟩ := List.mem_map.1 hr'
    exact (hrecord r hr).2.2.2.1
  · obtain ⟨r, hr, rfl⟩ := List.mem_map.1 hr'
    obtain ⟨-, hkey, -, -, hsettled⟩ := hrecord r hr
    by_cases heq : r.id = u.1.id
    · exact (hsettled heq).2
    · rw [if_neg heq] at hkind ⊢
      exact h.unproxied r hr hkind
  · rw [← h.others, Request.apply, List.filter_map]
    have hsame : (rs.filter ((fun r => decide (¬ r.Served)) ∘ fun r =>
        if r.id = u.1.id then u.2.patch r else r)) = rs.filter fun r => decide (¬ r.Served) := by
      refine List.filter_congr fun r hr => ?_
      rw [Function.comp_apply, decide_eq_decide, (hrecord r hr).2.2.1]
    rw [hsame]
    refine (List.map_congr_left fun r hr => ?_).trans (List.map_id _)
    obtain ⟨hr, hother⟩ := List.mem_filter.1 hr
    exact if_neg fun heq =>
      of_decide_eq_true hother (h.updates u List.mem_cons_self r hr heq).1

theorem delete (h : Converging desired base rs creates updates (record :: stale)) :
    Converging desired base ((Request.delete record).apply id rs) creates updates stale := by
  have hsub : ∀ r ∈ (Request.delete record).apply id rs, r ∈ rs := fun r hr =>
    (List.mem_filter.1 hr).1
  refine ⟨?_, ?_, h.creates, fun u hu r hr => h.updates u hu r (hsub r hr),
    fun s hs r hr => h.stale s (List.mem_cons_of_mem _ hs) r (hsub r hr),
    fun r hr => h.managed r (hsub r hr), fun r hr => h.unproxied r (hsub r hr), ?_⟩
  · rw [keptRecords_delete]
    exact h.keys
  · rw [keptRecords_delete]
    exact h.settled
  · rw [← h.others, Request.apply, List.filter_filter]
    refine List.filter_congr fun r hr => ?_
    rw [← Bool.decide_and, decide_eq_decide, and_iff_left_iff_imp]
    exact fun hother heq => hother (h.stale record List.mem_cons_self r hr heq)

/-- With no request left the records are the desired ones. -/
theorem exact (h : Converging desired base rs [] [] []) : Exact desired base rs := by
  have hkept : keptRecords rs [] = rs.filter fun r => r.Served := by
    refine List.filter_congr fun r _ => ?_
    rw [decide_eq_decide, and_iff_left_iff_imp]
    exact fun _ => List.not_mem_nil
  refine ⟨?_, fun r hr hserved => ⟨?_, ?_⟩, h.others⟩
  · have hkeys := h.keys
    rwa [List.map_nil, List.append_nil, hkept] at hkeys
  · have hmem : r ∈ keptRecords rs [] := mem_keptRecords.2 ⟨hr, hserved, List.not_mem_nil⟩
    rcases h.settled r hmem with hsettled | ⟨u, hu, -⟩
    · exact hsettled
    · exact absurd hu List.not_mem_nil
  · by_contra hcomment
    exact h.managed r hr (.inr (.inr (.inl ⟨hserved, hcomment⟩)))

/-- The order of the listing plays no part. -/
theorem of_perm (h : Converging desired base listing creates updates stale)
    (hperm : listing.Perm rs) : Converging desired rs rs creates updates stale := by
  have hmem : ∀ r ∈ rs, r ∈ listing := fun _ => hperm.mem_iff.2
  have hkept : (keptRecords listing stale).Perm (keptRecords rs stale) := hperm.filter _
  exact ⟨((hkept.map _).symm.append_right _).trans h.keys,
    fun r hr => h.settled r (hkept.mem_iff.2 hr), h.creates,
    fun u hu r hr => h.updates u hu r (hmem r hr), fun s hs r hr => h.stale s hs r (hmem r hr),
    fun r hr => h.managed r (hmem r hr), fun r hr => h.unproxied r (hmem r hr), rfl⟩

/-- Any part of the requests leaves the rest where a plan may stand. -/
theorem applied (hdesired : Desired ipText records desired) {done : List Request}
    (happlied : Applied done rs rs')
    (hreqs : done ++ rest = servingRequests creates updates stale)
    (h : Converging desired base rs creates updates stale)
    (hconfined : Confined name (done ++ rest) rs) :
    ∃ creates' updates' stale', rest = servingRequests creates' updates' stale' ∧
      Converging desired base rs' creates' updates' stale' := by
  induction happlied generalizing creates updates stale with
  | nil => exact ⟨creates, updates, stale, hreqs, h⟩
  | @cons request done id rs rs' hids _ ih =>
    obtain ⟨hupdates, hstale⟩ := (hreqs ▸ hconfined).known_serving
    rcases servingRequests_eq_cons hreqs with ⟨body, creates', rfl, rfl, heq⟩ |
      ⟨u, updates', rfl, rfl, rfl, heq⟩ | ⟨record, stale', rfl, rfl, rfl, rfl, heq⟩
    · have hid := not_mem_ids_of_create hids
      refine ih heq (h.create hdesired (fun hmem => hid ?_) fun u hu hu' => hid ?_) hconfined.apply
      · obtain ⟨r, hr, rfl⟩ := List.mem_map.1 hmem
        exact hstale r hr
      · exact hu' ▸ hupdates u hu
    · exact ih heq (h.update hdesired) hconfined.apply
    · exact ih heq h.delete hconfined.apply

end Converging

/-! ## Planning again -/

/-- Listed records that are all desired, settled and of different keys are kept as they are. -/
theorem Sorting.nothing_to_do {map : Std.TreeMap RecordKey Body} {found : List RecordKey}
    {sorted : Sorted} (h : Sorting map found listing sorted)
    (hlisted : ∀ r ∈ listing, r.Served →
      r.Settled ∧ ∀ k, r.key = .ok k → (map[k]?).isSome ∧ k ∉ found)
    (hkeys : ((listing.filter fun r => r.Served).map Record.key).Nodup) :
    sorted.stale = [] ∧ sorted.updates = [] := by
  induction h with
  | nil => exact ⟨rfl, rfl⟩
  | skip hkind _ _ ih =>
    rw [List.filter_cons_of_neg (by simpa using hkind)] at hkeys
    exact ih (fun r hr => hlisted r (List.mem_cons_of_mem _ hr)) hkeys
  | @keep found record rest sorted key body hkind _ hkey hbody hnew hrest ih =>
    rw [List.filter_cons_of_pos (by simpa using hkind), List.map_cons, List.nodup_cons] at hkeys
    obtain ⟨hstale, hupdates⟩ := ih (fun r hr hserved => by
      obtain ⟨hsettled, hk⟩ := hlisted r (List.mem_cons_of_mem _ hr) hserved
      refine ⟨hsettled, fun k hrk => ⟨(hk k hrk).1, fun hmem => ?_⟩⟩
      rcases List.mem_cons.1 hmem with rfl | hmem
      · have hmem : r ∈ rest.filter fun r => r.Served :=
          List.mem_filter.2 ⟨hr, decide_eq_true hserved⟩
        exact hkeys.1 (hkey.trans hrk.symm ▸ List.mem_map_of_mem hmem)
      · exact (hk k hrk).2 hmem) hkeys.2
    obtain ⟨hsettled, -⟩ := hlisted record List.mem_cons_self hkind
    have hdrift : ¬ (record.ttl ≠ ttlSeconds ∨ record.proxied = true) := by
      rw [not_or, not_not, Bool.not_eq_true]
      exact hsettled
    unfold Sorted.keep
    rw [if_neg hdrift]
    exact ⟨hstale, hupdates⟩
  | stale hkind _ hkey hother _ _ =>
    obtain ⟨-, hk⟩ := hlisted _ List.mem_cons_self hkind
    obtain ⟨hsome, hnew⟩ := hk _ hkey
    rcases hother with hnone | hfound
    · rw [hnone] at hsome
      cases hsome
    · exact absurd hfound hnew

theorem planServing_exact (hdesired : Desired ipText records desired)
    (h : Converging desired base rs [] [] []) (hids : (rs.map Record.id).Nodup)
    (hperm : listing.Perm rs) : planServing listing desired = .ok ⟨[], [], []⟩ := by
  have hexact := h.exact
  have hlistedKeys : ((listing.filter fun r => r.Served).map Record.key).Perm
      (desired.map fun e => .ok e.1) := ((hperm.filter _).map _).trans hexact.keys
  have hnodup : ((listing.filter fun r => r.Served).map Record.key).Nodup := by
    refine hlistedKeys.nodup_iff.2 (List.pairwise_map.2 (hdesired.keys.imp fun hne heq => hne ?_))
    exact Except.ok.inj heq
  have hmem : ∀ r ∈ listing, r.Served → ∀ k, r.key = .ok k → k ∈ desired.map Prod.fst := by
    intro r hr hserved k hk
    have hr : r ∈ listing.filter fun r => r.Served :=
      List.mem_filter.2 ⟨hr, decide_eq_true hserved⟩
    obtain ⟨e, he, hek⟩ := List.mem_map.1 (hlistedKeys.mem_iff.1 (List.mem_map_of_mem hr))
    rw [hk] at hek
    exact Except.ok.inj hek ▸ List.mem_map_of_mem he
  obtain ⟨sorted, hsorted⟩ := sortRecords_total (.ofList desired) []
    fun r hr => h.managed r (hperm.mem_iff.1 hr)
  have hsorting := sortRecords_ok hsorted
  obtain ⟨hstale, hupdates⟩ := hsorting.nothing_to_do (fun r hr hserved => by
    refine ⟨(hexact.settled r (hperm.mem_iff.1 hr) hserved).1, fun k hk => ⟨?_, List.not_mem_nil⟩⟩
    obtain ⟨e, he, rfl⟩ := List.mem_map.1 (hmem r hr hserved k hk)
    rw [(ofList_getElem?_iff hdesired.keys).2 he]
    rfl) hnodup
  have hfound : ∀ e ∈ (Std.TreeMap.ofList desired).toList, e.1 ∈ sorted.found := by
    intro e he
    have he := (ofList_toList_perm hdesired.keys).mem_iff.1 he
    obtain ⟨r, hr, hkey⟩ := List.mem_map.1
      (hlistedKeys.mem_iff.2 (List.mem_map_of_mem (f := fun e => Except.ok e.1) he))
    obtain ⟨hr, hserved⟩ := List.mem_filter.1 hr
    refine hsorting.mem_found_of_kept ((hperm.map Record.id).nodup_iff.2 hids) ?_ hkey
    rw [hstale]
    exact mem_keptRecords.2 ⟨hr, of_decide_eq_true hserved, List.not_mem_nil⟩
  have hmissing := missing_eq_nil hfound
  refine bind_eq_ok.2 ⟨sorted, hsorted, ?_⟩
  show Except.ok _ = _
  rw [hmissing, hstale, hupdates]
  rfl

/-! ## Every plan -/

/-- The requests of a plan, in the order in which they are made. -/
def ServingPlan.requests (plan : ServingPlan) : List Request :=
  servingRequests plan.missing plan.updates plan.stale

theorem servingDesired_total (ipText : IpAddr → String) (h : validateRecords records = .ok ()) :
    ∃ desired, servingDesired ipText records = .ok desired := by
  obtain ⟨_, -, hchecked⟩ := bind_eq_ok.1 h
  obtain ⟨-, -, -, huri⟩ := require_eq_ok.1 hchecked
  refine ⟨_, bind_eq_ok.2 ⟨(), h, bind_eq_ok.2 ⟨_, bind_eq_ok.2 ⟨(), ?_, rfl⟩, rfl⟩⟩⟩
  exact require_eq_ok.2 huri

/-- From any records of the relay, and wherever it is cut off, a plan can be made and its requests
lead to the desired records. -/
theorem plan_reaches (hdesired : Desired ipText records desired) (hids : (rs.map Record.id).Nodup)
    (hmanaged : ∀ r ∈ rs, ¬ r.Foreign) (hproxied : ∀ r ∈ rs, r.kind = "CAA" → r.proxied = false)
    (hperm : listing.Perm rs) :
    ∃ plan, planServing listing desired = .ok plan ∧
      Converging desired rs rs plan.missing plan.updates plan.stale ∧
      Confined records.hostname plan.requests rs := by
  have hlisted := (hperm.map Record.id).nodup_iff.2 hids
  obtain ⟨sorted, hsorted⟩ := sortRecords_total (.ofList desired) []
    fun r hr => hmanaged r (hperm.mem_iff.1 hr)
  have hplan : ∃ plan, planServing listing desired = .ok plan :=
    ⟨_, bind_eq_ok.2 ⟨sorted, hsorted, rfl⟩⟩
  obtain ⟨plan, hplan⟩ := hplan
  obtain ⟨sorted, hplanned, hupdates⟩ := planServing_ok hplan
  refine ⟨plan, hplan, ?_, ?_⟩
  · rw [hupdates]
    refine (hplanned.converging hdesired hlisted fun r hr => ?_).of_perm hperm
    exact hproxied r (hperm.mem_iff.1 hr)
  · unfold ServingPlan.requests
    rw [hupdates]
    exact (servingRequests_confined hdesired hplanned hlisted).of_perm hperm

/-- A plan that has made all its requests. -/
theorem Converging.finished (hdesired : Desired ipText records desired)
    (h : Converging desired base rs creates updates stale)
    (hconfined : Confined name (servingRequests creates updates stale) rs)
    (happlied : Applied (servingRequests creates updates stale) rs rs') :
    Converging desired base rs' [] [] [] := by
  have hreqs : servingRequests creates updates stale ++ [] =
      servingRequests creates updates stale := List.append_nil _
  obtain ⟨creates', updates', stale', hnil, hend⟩ :=
    h.applied hdesired happlied hreqs (hreqs.symm ▸ hconfined)
  obtain ⟨hleft, hstale⟩ := List.append_eq_nil_iff.1 hnil.symm
  obtain ⟨hcreates, hupdates⟩ := List.append_eq_nil_iff.1 hleft
  rw [List.map_eq_nil_iff] at hcreates hupdates hstale
  rwa [hcreates, hupdates, hstale] at hend

/-- A publication fails on a record that is not the relay's. Otherwise its plan leads to the desired
records and touches no other kind; there is nothing left to plan then, and a plan made after any
part of the requests leads to the same records. -/
theorem serving_plans_converge (hvalid : validateRecords records = .ok ())
    (hids : (rs.map Record.id).Nodup) (hname : ∀ r ∈ rs, r.name = records.hostname)
    (hproxied : ∀ r ∈ rs, r.kind = "CAA" → r.proxied = false) :
    ∃ desired, servingDesired ipText records = .ok desired ∧
      ((∃ r ∈ rs, r.Foreign) → ∀ scope, ∃ e, publishName ipText scope rs records = .error e) ∧
      ((∀ r ∈ rs, ¬ r.Foreign) → ∃ plan, planServing rs desired = .ok plan ∧
        (∃ rs', Applied plan.requests rs rs') ∧
        (∀ rs', Applied plan.requests rs rs' → Exact desired rs rs' ∧
          (∀ r ∈ rs', r.name = records.hostname) ∧
          ∀ listing, listing.Perm rs' → planServing listing desired = .ok ⟨[], [], []⟩) ∧
        ∀ done rest, done ++ rest = plan.requests → ∀ cut, Applied done rs cut →
          ∀ listing, listing.Perm cut → ∃ plan', planServing listing desired = .ok plan' ∧
            (∃ rs', Applied plan'.requests cut rs') ∧
            ∀ rs', Applied plan'.requests cut rs' → Exact desired rs rs' ∧
              ∀ r ∈ rs', r.name = records.hostname) := by
  obtain ⟨desired, hserving⟩ := servingDesired_total ipText hvalid
  have hdesired := servingDesired_ok hserving
  refine ⟨desired, hserving, ?_, fun hmanaged => ?_⟩
  · rintro ⟨r, hr, hforeign⟩ scope
    cases hpublish : publishName ipText scope rs records with
    | error e => exact ⟨e, rfl⟩
    | ok reqs =>
      obtain ⟨_, sorted, creates, stale, -, hplan, -⟩ := publishName_ok hpublish
      exact absurd hforeign (hplan.sorting.not_foreign r hr)
  · obtain ⟨plan, hplan, hstart, hconfined⟩ :=
      plan_reaches hdesired hids hmanaged hproxied (.refl rs)
    refine ⟨plan, hplan, exists_applied _ hids, fun rs' happlied => ?_, ?_⟩
    · have hend := hstart.finished hdesired hconfined happlied
      exact ⟨hend.exact, happlied.name_eq hconfined hname, fun listing hperm =>
        planServing_exact hdesired hend (happlied.ids hids) hperm⟩
    · intro done rest hsplit cut hcut listing hperm
      have hcutIds := hcut.ids hids
      have hcutName := hcut.name_eq (hsplit ▸ hconfined).left hname
      obtain ⟨_, _, _, -, hthere⟩ := hstart.applied hdesired hcut hsplit (hsplit ▸ hconfined)
      obtain ⟨plan', hplan', hagain, hconfined'⟩ :=
        plan_reaches hdesired hcutIds hthere.managed hthere.unproxied hperm
      refine ⟨plan', hplan', exists_applied _ hcutIds, fun rs' happlied => ?_⟩
      have hexact := (hagain.finished hdesired hconfined' happlied).exact
      exact ⟨⟨hexact.keys, hexact.settled, hexact.others.trans hthere.others⟩,
        happlied.name_eq hconfined' hcutName⟩

/-! A name with a drifted address, the authorization of an old account and a record of another
kind. -/

def driftedAddress : Record where
  id := "eeeeeeeeeeeeeeeeeeeeeeeeeeeeeeee"
  name := caaHost
  kind := "A"
  content := "192.0.2.2"
  ttl := 120
  proxied := true
  comment := servingComment
  data := none

def mailRecord : Record where
  id := "ffffffffffffffffffffffffffffffff"
  name := caaHost
  kind := "MX"
  content := "mail.example"
  ttl := 3600
  proxied := false
  comment := ""
  data := none

def driftedRecords : List Record := [driftedAddress, mailRecord, oldIssue]

theorem serving_plans_converge_drifted :
    ∃ desired plan rs', planServing driftedRecords desired = .ok plan ∧
      Applied plan.requests driftedRecords rs' ∧ Exact desired driftedRecords rs' := by
  have hvalid : validateRecords caaRecords = .ok () := by decide +kernel
  have hname : ∀ r ∈ driftedRecords, r.name = caaRecords.hostname := by decide +kernel
  obtain ⟨desired, -, -, hplan⟩ := @serving_plans_converge (fun _ => "192.0.2.2") caaRecords
    driftedRecords hvalid (by decide +kernel) hname (by decide +kernel)
  obtain ⟨plan, hplan, ⟨rs', happlied⟩, hexact, -⟩ := hplan fun r hr => by
    rcases List.mem_cons.1 hr with rfl | hr
    · exact Record.not_foreign_of_key (.inl rfl) rfl (Record.key_of_not_caa (by decide))
    rcases List.mem_cons.1 hr with rfl | hr
    · rintro (h | h | ⟨h, -⟩ | ⟨h, -⟩) <;> revert h <;> decide
    · rw [List.mem_singleton.1 hr]
      exact Record.not_foreign_of_key (.inr (.inr rfl)) rfl (Record.key_of_caa rfl rfl (.inl rfl))
  exact ⟨desired, plan, rs', hplan, happlied, (hexact rs' happlied).1⟩

end BloomRelay.Dns.Cloudflare
