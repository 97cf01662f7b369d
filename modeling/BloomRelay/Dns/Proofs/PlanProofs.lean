import BloomRelay.Dns.Cloudflare

/-!
# What a publication plans

`sortRecords` record by record, the entries a serving name should hold, and the requests that
`planServing` makes of the two.
-/

namespace BloomRelay.Dns.Cloudflare

open Protocol Store Checked

variable {ipText : IpAddr → String} {name : String} {listing : List Record} {reqs : List Request}

/-! ## Sorting the listed records -/

/-- `A`, `AAAA` or `CAA`. -/
def Record.Served (record : Record) : Prop :=
  record.kind = "A" ∨ record.kind = "AAAA" ∨ record.kind = "CAA"

@[simp] theorem Sorted.keep_found (sorted : Sorted) (record : Record) (body : Body) :
    (sorted.keep record body).found = sorted.found := by
  unfold Sorted.keep
  split <;> rfl

@[simp] theorem Sorted.keep_stale (sorted : Sorted) (record : Record) (body : Body) :
    (sorted.keep record body).stale = sorted.stale := by
  unfold Sorted.keep
  split <;> rfl

theorem Sorted.mem_updates_keep {sorted : Sorted} {record : Record} {body : Body}
    {u : Record × Body} (h : u ∈ (sorted.keep record body).updates) :
    u = (record, body) ∨ u ∈ sorted.updates := by
  unfold Sorted.keep at h
  split at h
  · exact List.mem_cons.1 h
  · exact .inr h

/-- `sortRecords`, record by record. -/
inductive Sorting (desired : Std.TreeMap RecordKey Body) :
    List RecordKey → List Record → Sorted → Prop where
  | nil {found} : Sorting desired found [] ⟨found, [], []⟩
  | skip {found record rest sorted} (hkind : ¬ record.Served)
      (hplain : ¬ (record.kind = "CNAME" ∨ record.kind = "NS"))
      (hrest : Sorting desired found rest sorted) : Sorting desired found (record :: rest) sorted
  | keep {found record rest sorted key body} (hkind : record.Served)
      (hcomment : record.comment = servingComment)
      (hkey : record.key = .ok key) (hbody : desired[key]? = some body) (hnew : key ∉ found)
      (hrest : Sorting desired (key :: found) rest sorted) :
      Sorting desired found (record :: rest) (sorted.keep record body)
  | stale {found record rest sorted key} (hkind : record.Served)
      (hcomment : record.comment = servingComment)
      (hkey : record.key = .ok key) (hother : desired[key]? = none ∨ key ∈ found)
      (hrest : Sorting desired found rest sorted) :
      Sorting desired found (record :: rest) { sorted with stale := record :: sorted.stale }

theorem sortRecords_ok {desired : Std.TreeMap RecordKey Body} {found : List RecordKey}
    {sorted : Sorted} (h : sortRecords desired found listing = .ok sorted) :
    Sorting desired found listing sorted := by
  induction listing generalizing found sorted with
  | nil =>
    obtain rfl := Except.ok.inj h
    exact .nil
  | cons record rest ih =>
    unfold sortRecords at h
    split_ifs at h with hforeign hserved hcomment
    · exact .skip (by simpa only [Record.Served, not_or] using hserved) hforeign (ih h)
    · have hkind : record.Served := by
        by_contra hnone
        exact hserved (by simpa only [Record.Served, not_or] using hnone)
      have hcomment := not_not.1 hcomment
      obtain ⟨key, hkey, h⟩ := bind_eq_ok.1 h
      cases hbody : desired[key]? with
      | none =>
        simp only [hbody] at h
        obtain ⟨sorted, hrest, h⟩ := bind_eq_ok.1 h
        obtain rfl := Except.ok.inj h
        exact .stale hkind hcomment hkey (.inl hbody) (ih hrest)
      | some body =>
        simp only [hbody] at h
        split_ifs at h with hfound
        · obtain ⟨sorted, hrest, h⟩ := bind_eq_ok.1 h
          obtain rfl := Except.ok.inj h
          exact .stale hkind hcomment hkey (.inr hfound) (ih hrest)
        · obtain ⟨sorted, hrest, h⟩ := bind_eq_ok.1 h
          obtain rfl := Except.ok.inj h
          exact .keep hkind hcomment hkey hbody hfound (ih hrest)

namespace Sorting

variable {desired : Std.TreeMap RecordKey Body} {found : List RecordKey} {sorted : Sorted}

theorem stale_sublist (h : Sorting desired found listing sorted) :
    sorted.stale.Sublist listing := by
  induction h with
  | nil => exact List.Sublist.refl []
  | skip _ _ _ ih => exact ih.cons _
  | keep _ _ _ _ _ _ ih =>
    rw [Sorted.keep_stale]
    exact ih.cons _
  | stale _ _ _ _ _ ih => exact ih.cons_cons _

/-- An update writes a listed record with the body of its own key. -/
theorem of_mem_updates (h : Sorting desired found listing sorted) {record : Record} {body : Body}
    (hmem : (record, body) ∈ sorted.updates) :
    record ∈ listing ∧ record.Served ∧ ∃ key, record.key = .ok key ∧ desired[key]? = some body := by
  induction h with
  | nil => exact absurd hmem List.not_mem_nil
  | skip _ _ _ ih => exact (ih hmem).imp_left (List.mem_cons_of_mem _)
  | stale _ _ _ _ _ ih => exact (ih hmem).imp_left (List.mem_cons_of_mem _)
  | keep hkind _ hkey hbody _ _ ih =>
    rcases Sorted.mem_updates_keep hmem with heq | hmem
    · obtain ⟨rfl, rfl⟩ := Prod.mk.inj heq
      exact ⟨List.mem_cons_self, hkind, _, hkey, hbody⟩
    · exact (ih hmem).imp_left (List.mem_cons_of_mem _)

/-- A key counts as found by a listed record that is not stale. -/
theorem of_mem_found (h : Sorting desired found listing sorted)
    (hids : (listing.map Record.id).Nodup) {key : RecordKey} (hmem : key ∈ sorted.found) :
    key ∈ found ∨ ∃ record ∈ listing, record.Served ∧ record.key = .ok key ∧
      record.id ∉ sorted.stale.map Record.id := by
  induction h with
  | nil => exact .inl hmem
  | skip _ _ _ ih =>
    rcases ih (List.nodup_cons.1 hids).2 hmem with hfound | ⟨r, hr, h⟩
    · exact .inl hfound
    · exact .inr ⟨r, List.mem_cons_of_mem _ hr, h⟩
  | @keep found record rest sorted key' body hkind hcomment hkey hbody hnew hrest ih =>
    obtain ⟨hid, hids⟩ := List.nodup_cons.1 hids
    rw [Sorted.keep_found] at hmem
    rw [Sorted.keep_stale]
    rcases ih hids hmem with hfound | ⟨r, hr, h⟩
    · rcases List.mem_cons.1 hfound with rfl | hfound
      · refine .inr ⟨record, List.mem_cons_self, hkind, hkey, fun hstale => hid ?_⟩
        exact (hrest.stale_sublist.map Record.id).subset hstale
      · exact .inl hfound
    · exact .inr ⟨r, List.mem_cons_of_mem _ hr, h⟩
  | @stale found record rest sorted key' hkind hcomment hkey hother hrest ih =>
    obtain ⟨hid, hids⟩ := List.nodup_cons.1 hids
    rcases ih hids hmem with hfound | ⟨r, hr, hserved, hk, hfree⟩
    · exact .inl hfound
    · refine .inr ⟨r, List.mem_cons_of_mem _ hr, hserved, hk, ?_⟩
      rw [List.map_cons, List.mem_cons, not_or]
      exact ⟨fun heq => hid (heq ▸ List.mem_map_of_mem hr), hfree⟩

end Sorting

/-! ## What the requests of a call are -/

instance : Std.TransOrd RecordKey :=
  inferInstanceAs (Std.TransCmp (compareLex (compareOn RecordKey.kind) (compareOn RecordKey.content)))

instance : Std.LawfulEqOrd RecordKey where
  eq_of_compare := by
    intro a b h
    obtain ⟨hkind, hcontent⟩ : compare a.kind b.kind = .eq ∧ compare a.content b.content = .eq := by
      simpa only [compare, compareLex_eq_eq, compareOn] using h
    obtain ⟨akind, acontent⟩ := a
    obtain ⟨bkind, bcontent⟩ := b
    obtain rfl := Std.LawfulEqOrd.eq_of_compare hkind
    obtain rfl := Std.LawfulEqOrd.eq_of_compare hcontent
    rfl

/-- The creates, the updates and the deletes of a publication. -/
def servingRequests (creates : List Body) (updates : List (Record × Body)) (stale : List Record) :
    List Request :=
  creates.map .create ++ updates.map (fun u => .update u.1 u.2) ++ stale.map .delete

/-- What `planServing` returns: what is missing, what has drifted and what is stale. -/
structure Planned (listing : List Record) (desired : List (RecordKey × Body)) (sorted : Sorted)
    (creates : List Body) (stale : List Record) : Prop where
  sorting : Sorting (.ofList desired) [] listing sorted
  createOrder : creates.Pairwise fun a b => createRank a ≤ createRank b
  missing : creates.Perm (((Std.TreeMap.ofList desired).toList.filter
    fun e => e.1 ∉ sorted.found).map Prod.snd)
  stale : stale.Perm sorted.stale

theorem missing_eq (found : List RecordKey) (entries : List (RecordKey × Body)) :
    (entries.filterMap fun (key, body) => if key ∈ found then none else some body) =
      (entries.filter fun e => e.1 ∉ found).map Prod.snd := by
  induction entries with
  | nil => rfl
  | cons e entries ih =>
    obtain ⟨key, body⟩ := e
    by_cases hfound : key ∈ found
    · simp only [List.filterMap_cons, if_pos hfound, ih]
      rw [List.filter_cons_of_neg (by simpa using hfound)]
    · simp only [List.filterMap_cons, if_neg hfound, ih]
      rw [List.filter_cons_of_pos (by simpa using hfound), List.map_cons]

theorem missing_eq_nil {found : List RecordKey} {entries : List (RecordKey × Body)}
    (hfound : ∀ e ∈ entries, e.1 ∈ found) :
    (entries.filterMap fun (key, body) => if key ∈ found then none else some body) = [] := by
  rw [missing_eq, List.filter_eq_nil_iff.2, List.map_nil]
  intro e he
  simpa using hfound e he

theorem planServing_ok {desired : List (RecordKey × Body)} {plan : ServingPlan}
    (h : planServing listing desired = .ok plan) :
    ∃ sorted, Planned listing desired sorted plan.missing plan.stale ∧
      plan.updates = sorted.updates := by
  obtain ⟨sorted, hsorted, h⟩ := bind_eq_ok.1 h
  obtain rfl := Except.ok.inj h
  refine ⟨sorted, ⟨sortRecords_ok hsorted, List.pairwise_insertionSort _ _, ?_,
    List.perm_insertionSort _ _⟩, rfl⟩
  exact missing_eq sorted.found _ ▸ List.perm_insertionSort _ _

theorem Planned.mem_creates {desired : List (RecordKey × Body)} {sorted : Sorted}
    {creates : List Body} {stale : List Record}
    (h : Planned listing desired sorted creates stale) (body : Body) :
    body ∈ creates ↔ ∃ key ∉ sorted.found, (Std.TreeMap.ofList desired)[key]? = some body := by
  rw [h.missing.mem_iff, List.mem_map]
  constructor
  · rintro ⟨⟨key, _⟩, hmem, rfl⟩
    obtain ⟨hmem, hfound⟩ := List.mem_filter.1 hmem
    exact ⟨key, of_decide_eq_true hfound, Std.TreeMap.mem_toList_iff_getElem?_eq_some.1 hmem⟩
  · rintro ⟨key, hfound, hbody⟩
    refine ⟨(key, body), List.mem_filter.2 ⟨?_, decide_eq_true hfound⟩, rfl⟩
    exact Std.TreeMap.mem_toList_iff_getElem?_eq_some.2 hbody

theorem reconcileServing_ok {desired : List (RecordKey × Body)}
    (h : reconcileServing name listing desired = .ok reqs) :
    ∃ sorted creates stale, Planned listing desired sorted creates stale ∧
      reqs = servingRequests creates sorted.updates stale := by
  obtain ⟨_, hlisted, h⟩ := bind_eq_ok.1 h
  obtain ⟨_, -, hlisted⟩ := bind_eq_ok.1 hlisted
  obtain rfl := Except.ok.inj hlisted
  obtain ⟨plan, hplan, h⟩ := bind_eq_ok.1 h
  obtain rfl := Except.ok.inj h
  obtain ⟨sorted, hplanned, hupdates⟩ := planServing_ok hplan
  exact ⟨sorted, plan.missing, plan.stale, hplanned, by rw [← hupdates]; rfl⟩

/-! ## The desired entries -/

/-- An account URI is its environment's prefix and digits. -/
theorem validateAccountUri_chars {uri : String} {environment : AcmeEnvironment}
    (h : environment.validateAccountUri uri = .ok ()) {c : Char} (hc : c ∈ uri.toList) :
    c ∈ environment.accountUriPrefix.toList ∨ c.isDigit = true := by
  unfold AcmeEnvironment.validateAccountUri at h
  split_ifs at h with hlen
  cases hid : stripPrefix? environment.accountUriPrefix uri with
  | none => simp only [hid] at h; cases h
  | some accountId =>
    simp only [hid] at h
    split_ifs at h with hdigits
    unfold stripPrefix? at hid
    split_ifs at hid with hpre
    obtain rfl := Option.some.inj hid
    obtain ⟨t, ht⟩ := List.isPrefixOf_iff_prefix.1 hpre
    rw [← ht] at hc hdigits
    rcases List.mem_append.1 hc with hc | hc
    · exact .inl hc
    · right
      simp only [List.drop_left, String.toList_ofList, Bool.or_eq_true, Bool.not_eq_true', not_or, Bool.not_eq_false] at hdigits
      exact List.all_eq_true.1 hdigits.2 c hc

theorem mem_toList_append {c : Char} {a b : String} (h : c ∈ (a ++ b).toList) :
    c ∈ a.toList ∨ c ∈ b.toList :=
  List.mem_append.1 (String.toList_append ▸ h)

/-- No account URI, and so no `issue` value, has the letter that tells the two tags apart. -/
theorem issuewild_not_within {uri : String} {environment : AcmeEnvironment}
    (h : environment.validateAccountUri uri = .ok ()) :
    ¬ " issuewild ".toList <:+: ("0 issue \"" ++ issueValue uri ++ "\"").toList := by
  intro hinfix
  have hletter : 'w' ∈ " issuewild ".toList := by decide +kernel
  have hw := hinfix.subset hletter
  have huri : 'w' ∉ uri.toList := by
    intro hmem
    rcases validateAccountUri_chars h hmem with hpre | hdigit
    · revert hpre
      cases environment <;> decide +kernel
    · exact absurd hdigit (by decide)
  have hquote : 'w' ∉ "\"".toList := by decide +kernel
  have htag : 'w' ∉ "0 issue \"".toList := by decide +kernel
  have hissuer : 'w' ∉ "letsencrypt.org; validationmethods=dns-01; accounturi=".toList := by
    decide +kernel
  exact (mem_toList_append hw).elim
    (fun hw => (mem_toList_append hw).elim htag fun hw => (mem_toList_append hw).elim hissuer huri)
    hquote
theorem caaContent_inj {tag tag' value value' : String} (htag : tag = "issue" ∨ tag = "issuewild")
    (htag' : tag' = "issue" ∨ tag' = "issuewild")
    (h : tag ++ ":" ++ value = tag' ++ ":" ++ value') : tag = tag' ∧ value = value' := by
  have hshort : ¬ ("issue" ++ ":").toList <+: ("issuewild" ++ ":").toList := by decide +kernel
  have hlength : ("issue" ++ ":").toList.length ≤ ("issuewild" ++ ":").toList.length := by
    decide +kernel
  have hclash : ∀ v w : String, "issue" ++ ":" ++ v ≠ "issuewild" ++ ":" ++ w := by
    intro v w heq
    have hv : ("issue" ++ ":").toList <+: ("issue" ++ ":" ++ v).toList :=
      ⟨v.toList, String.toList_append.symm⟩
    have hw : ("issuewild" ++ ":").toList <+: ("issuewild" ++ ":" ++ w).toList :=
      ⟨w.toList, String.toList_append.symm⟩
    rw [heq] at hv
    exact hshort (List.prefix_of_prefix_length_le hv hw hlength)
  rcases htag with rfl | rfl <;> rcases htag' with rfl | rfl
  · exact ⟨rfl, (String.append_right_inj _).1 h⟩
  · exact absurd h (hclash _ _)
  · exact absurd h.symm (hclash _ _)
  · exact ⟨rfl, (String.append_right_inj _).1 h⟩

/-- The body of a CAA record of the relay. -/
def caaBody (hostname tag value : String) : Body where
  kind := "CAA"
  name := hostname
  content := none
  ttl := ttlSeconds
  proxied := none
  comment := servingComment
  data := some ⟨0, tag, value⟩

/-- The entry of a CAA record of the relay. -/
def caaRecord (hostname tag value : String) : RecordKey × Body :=
  (⟨"CAA", tag ++ ":" ++ value⟩, caaBody hostname tag value)

theorem pushAddress_foldl (entries : List (RecordKey × Body)) {acc : List (RecordKey × Body)}
    (hacc : acc.Pairwise fun a b => a.1 ≠ b.1) :
    ((entries.foldl pushAddress acc).Pairwise fun a b => a.1 ≠ b.1) ∧
      ∀ e ∈ entries.foldl pushAddress acc, e ∈ acc ∨ e ∈ entries := by
  induction entries generalizing acc with
  | nil => exact ⟨hacc, fun e he => .inl he⟩
  | cons entry entries ih =>
    rw [List.foldl_cons]
    have hpush : (pushAddress acc entry).Pairwise fun a b => a.1 ≠ b.1 := by
      unfold pushAddress
      split_ifs with hany
      · exact hacc
      · refine List.pairwise_append.2 ⟨hacc, List.pairwise_singleton _ _, fun a ha b hb => ?_⟩
        obtain rfl := List.mem_singleton.1 hb
        intro heq
        exact hany (List.any_eq_true.2 ⟨a, ha, decide_eq_true heq⟩)
    obtain ⟨hnodup, hmem⟩ := ih hpush
    refine ⟨hnodup, fun e he => ?_⟩
    rcases hmem e he with he | he
    · unfold pushAddress at he
      split_ifs at he
      · exact .inl he
      · rcases List.mem_append.1 he with he | he
        · exact .inl he
        · exact .inr (List.mem_cons.2 (.inl (List.mem_singleton.1 he)))
    · exact .inr (List.mem_cons_of_mem _ he)

theorem validateAcmeAccountUri_ok {uri : String} (h : (validateAcmeAccountUri uri).toBool = true) :
    ∃ environment : AcmeEnvironment, environment.validateAccountUri uri = .ok () := by
  unfold validateAcmeAccountUri at h
  split_ifs at h with hproduction hstaging
  · exact ⟨_, hproduction⟩
  · exact ⟨_, hstaging⟩
  · cases h

/-- What a serving name should hold: its addresses, the account authorization and the wildcard
denial, each key once. -/
structure Desired (ipText : IpAddr → String) (records : NameRecords)
    (desired : List (RecordKey × Body)) : Prop where
  keys : desired.Pairwise fun a b => a.1 ≠ b.1
  entry : ∀ e ∈ desired, (∃ ip, e = addressEntry ipText records.hostname ip) ∨
    e = caaRecord records.hostname "issue" (issueValue records.acmeAccountUri) ∨
    e = caaRecord records.hostname "issuewild" ";"
  issue : caaRecord records.hostname "issue" (issueValue records.acmeAccountUri) ∈ desired
  deny : caaRecord records.hostname "issuewild" ";" ∈ desired

theorem addressEntry_kind_ne (ipText : IpAddr → String) (hostname : String) (ip : IpAddr) :
    (addressEntry ipText hostname ip).1.kind ≠ "CAA" := by
  cases ip with
  | v4 bits =>
    show "A" ≠ "CAA"
    decide
  | v6 bits =>
    show "AAAA" ≠ "CAA"
    decide

theorem servingDesired_ok {records : NameRecords} {desired : List (RecordKey × Body)}
    (h : servingDesired ipText records = .ok desired) : Desired ipText records desired := by
  obtain ⟨_, -, h⟩ := bind_eq_ok.1 h
  obtain ⟨values, hvalues, h⟩ := bind_eq_ok.1 h
  obtain ⟨_, huri, hvalues⟩ := bind_eq_ok.1 hvalues
  obtain rfl := Except.ok.inj hvalues
  obtain rfl := Except.ok.inj h
  obtain ⟨environment, huri⟩ := validateAcmeAccountUri_ok (require_eq_ok.1 huri)
  have hissue : caaEntry records.hostname records.acmeAccountUri
      ("0 issue \"" ++ issueValue records.acmeAccountUri ++ "\"") =
      caaRecord records.hostname "issue" (issueValue records.acmeAccountUri) := by
    unfold caaEntry
    rw [if_neg (issuewild_not_within huri)]
    rfl
  have hdeny : caaEntry records.hostname records.acmeAccountUri "0 issuewild \";\"" =
      caaRecord records.hostname "issuewild" ";" := by
    have hinfix : " issuewild ".toList <:+: "0 issuewild \";\"".toList := by decide +kernel
    unfold caaEntry
    rw [if_pos hinfix]
    rfl
  obtain ⟨hkeys, hentries⟩ :=
    pushAddress_foldl (records.addresses.map (addressEntry ipText records.hostname)) .nil
  have haddress : ∀ e ∈ (records.addresses.map (addressEntry ipText records.hostname)).foldl
      pushAddress [], ∃ ip, e = addressEntry ipText records.hostname ip := by
    intro e he
    rcases hentries e he with he | he
    · exact absurd he List.not_mem_nil
    · obtain ⟨ip, -, rfl⟩ := List.mem_map.1 he
      exact ⟨ip, rfl⟩
  have htags : (caaRecord records.hostname "issue" (issueValue records.acmeAccountUri)).1 ≠
      (caaRecord records.hostname "issuewild" ";").1 := by
    intro heq
    have htag := (caaContent_inj (.inl rfl) (.inr rfl) (RecordKey.mk.inj heq).2).1
    exact absurd htag (by decide)
  rw [List.map_cons, List.map_cons, List.map_nil, hissue, hdeny]
  refine ⟨?_, fun e he => ?_, ?_, ?_⟩
  · refine List.pairwise_append.2 ⟨hkeys, ?_, fun a ha b hb heq => ?_⟩
    · exact List.pairwise_cons.2
        ⟨fun e he => by rwa [List.mem_singleton.1 he], List.pairwise_singleton _ _⟩
    · obtain ⟨ip, rfl⟩ := haddress a ha
      have hkind : b.1.kind = "CAA" := by
        rcases List.mem_cons.1 hb with rfl | hb
        · rfl
        · rw [List.mem_singleton.1 hb]
          rfl
      exact addressEntry_kind_ne ipText records.hostname ip (heq ▸ hkind)
  · rcases List.mem_append.1 he with he | he
    · exact .inl (haddress e he)
    · rcases List.mem_cons.1 he with he | he
      · exact .inr (.inl he)
      · exact .inr (.inr (List.mem_singleton.1 he))
  · exact List.mem_append_right _ List.mem_cons_self
  · exact List.mem_append_right _ (List.mem_cons_of_mem _ List.mem_cons_self)

/-- A look-up among entries whose keys are all different finds them. -/
theorem ofList_getElem?_iff {desired : List (RecordKey × Body)}
    (hkeys : desired.Pairwise fun a b => a.1 ≠ b.1) {key : RecordKey} {body : Body} :
    (Std.TreeMap.ofList desired)[key]? = some body ↔ (key, body) ∈ desired := by
  have hdistinct : desired.Pairwise fun a b => ¬ compare a.1 b.1 = .eq :=
    hkeys.imp fun hne heq => hne (Std.LawfulEqOrd.eq_of_compare heq)
  constructor
  · intro h
    by_cases hmem : key ∈ desired.map Prod.fst
    · obtain ⟨⟨key', body'⟩, hentry, rfl⟩ := List.mem_map.1 hmem
      have hfound := Std.TreeMap.getElem?_ofList_of_mem Std.ReflOrd.compare_self hdistinct hentry
      rw [hfound] at h
      rwa [← Option.some.inj h]
    · have hnone : (Std.TreeMap.ofList desired)[key]? = none :=
        Std.TreeMap.getElem?_ofList_of_contains_eq_false (by simpa using hmem)
      rw [hnone] at h
      cases h
  · exact Std.TreeMap.getElem?_ofList_of_mem Std.ReflOrd.compare_self hdistinct

end BloomRelay.Dns.Cloudflare
