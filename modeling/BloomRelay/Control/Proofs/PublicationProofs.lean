import BloomRelay.Control.DnsWorker
import BloomRelay.Dns.Proofs.ChallengeProofs
import BloomRelay.Lib.Decimal
import Mathlib.Data.String.Basic

/-!
# What a worker that started can publish

An installation's hostname comes from 16 random bytes, its account URI from `register_acme_account`,
and its addresses from the environment of the worker. The checks that a publication has to pass look
at the same data again, each in its own way.
-/

namespace BloomRelay.Control

open Protocol Store Dns Checked

variable {ipText : IpAddr → String} {parseIpv6 : String → Option (BitVec 128)} {uri value : String}
  {environment : AcmeEnvironment} {ingress : List IpAddr}

/-! ## The hostname -/

/-- Every character of the alphabet is a lowercase letter or a digit. -/
theorem alphabet_ok {n : Nat} (h : n < 32) :
    (("abcdefghijklmnopqrstuvwxyz234567".toList.getD n 'a').isLower ||
      ("abcdefghijklmnopqrstuvwxyz234567".toList.getD n 'a').isDigit) = true ∧
    ("abcdefghijklmnopqrstuvwxyz234567".toList.getD n 'a').utf8Size = 1 := by
  have hall : ∀ n : Fin 32, (("abcdefghijklmnopqrstuvwxyz234567".toList.getD n 'a').isLower ||
      ("abcdefghijklmnopqrstuvwxyz234567".toList.getD n 'a').isDigit) = true ∧
      ("abcdefghijklmnopqrstuvwxyz234567".toList.getD n 'a').utf8Size = 1 := by decide +kernel
  exact hall ⟨n, h⟩

theorem utf8Len_of_single {cs : List Char} (h : ∀ c ∈ cs, c.utf8Size = 1) :
    String.utf8Len cs = cs.length := by
  induction cs with
  | nil => rfl
  | cons c cs ih =>
    rw [String.utf8Len_cons, ih fun d hd => h d (List.mem_cons_of_mem _ hd),
      h c List.mem_cons_self, List.length_cons]

theorem stripSuffix?_append (label suffix : String) :
    stripSuffix? suffix (label ++ suffix) = some label := by
  have hsuffix : suffix.toList.isSuffixOf (label.toList ++ suffix.toList) = true :=
    List.isSuffixOf_iff_suffix.2 (List.suffix_append _ _)
  unfold stripSuffix?
  rw [String.toList_append, if_pos hsuffix, List.length_append, Nat.add_sub_cancel, List.take_left,
    String.ofList_toList]

/-- Every allocated hostname is a valid one. -/
theorem validateHostname_allocated (random : BitVec 128) :
    validateHostname (allocatedHostname random) = .ok () := by
  have hchars : ∀ c ∈ (base32Nopad random).toList,
      (c.isLower || c.isDigit) = true ∧ c.utf8Size = 1 := by
    intro c hc
    unfold base32Nopad at hc
    rw [String.toList_ofList] at hc
    obtain ⟨k, -, rfl⟩ := List.mem_map.1 hc
    exact alphabet_ok (Nat.mod_lt _ (by decide))
  have hlength : (base32Nopad random).toList.length = 26 := by
    unfold base32Nopad
    rw [String.toList_ofList, List.length_map, List.length_range]
  have hsize : (base32Nopad random).utf8ByteSize = 26 := by
    rw [← hlength, ← utf8Len_of_single fun c hc => (hchars c hc).2, ← String.utf8ByteSize_ofList,
      String.ofList_toList]
  have hall : (base32Nopad random).toList.all (fun c => c.isLower || c.isDigit) = true :=
    List.all_eq_true.2 fun c hc => (hchars c hc).1
  unfold validateHostname allocatedHostname
  simp only [stripSuffix?_append]
  exact if_neg fun hbad => hbad.elim (fun h => h hsize) fun h => absurd (hall.symm.trans h) (by decide)

/-! ## The account URI -/

theorem validateAcmeAccountUri_of_environment (h : environment.validateAccountUri uri = .ok ()) :
    (validateAcmeAccountUri uri).toBool = true := by
  unfold validateAcmeAccountUri
  split_ifs with hproduction hstaging
  · rfl
  · rfl
  · cases environment with
    | production => exact absurd h hproduction
    | staging => exact absurd h hstaging

/-- The value of the `issue` record fits into one field of a CAA record. -/
theorem issueValue_size (h : environment.validateAccountUri uri = .ok ()) :
    (issueValue uri).utf8ByteSize ≤ 255 := by
  have huri : uri.utf8ByteSize ≤ 200 := by
    unfold AcmeEnvironment.validateAccountUri at h
    split_ifs at h with hlong
    exact Nat.not_lt.1 hlong
  have hfront : ("letsencrypt.org; validationmethods=dns-01; accounturi=").utf8ByteSize = 54 := by
    decide +kernel
  unfold issueValue
  rw [String.utf8ByteSize_append, hfront]
  omega

/-! ## The addresses -/

/-- The addresses that the value names, in its order. -/
def namedAddresses (parseIpv6 : String → Option (BitVec 128)) (value : String) : List IpAddr :=
  (splitCommas value).filterMap (parseIp parseIpv6)

theorem mapM_eq_filterMap {α β : Type} {f : α → Option β} {as : List α} {bs : List β}
    (h : as.mapM f = some bs) : bs = as.filterMap f := by
  induction as generalizing bs with
  | nil =>
    obtain rfl := Option.some.inj h
    rfl
  | cons a as ih =>
    rw [List.mapM_cons] at h
    obtain ⟨b, hb, h⟩ := Option.bind_eq_some_iff.1 h
    obtain ⟨bs', hbs, h⟩ := Option.bind_eq_some_iff.1 h
    obtain rfl := Option.some.inj h
    rw [List.filterMap_cons, hb, ← ih hbs]

/-- What a worker that started has checked. -/
theorem addresses_eq_some (h : addresses parseIpv6 value = some ingress) :
    ingress = namedAddresses parseIpv6 value ∧ ingress ≠ [] ∧ ingress.length ≤ 8 ∧
      ingress.any isUnspecified = false := by
  obtain ⟨parsed, hparsed, h⟩ := Option.bind_eq_some_iff.1 h
  split_ifs at h with hbad
  obtain rfl := Option.some.inj h
  rw [Bool.not_eq_true, Bool.or_eq_false_iff, Bool.or_eq_false_iff, decide_eq_false_iff_not,
    List.isEmpty_eq_false_iff] at hbad
  exact ⟨mapM_eq_filterMap hparsed, hbad.1.1, Nat.not_lt.1 hbad.1.2, hbad.2⟩

/-- The addresses of both families are named once each exactly if their texts are. -/
theorem nodup_texts_iff (hip : Function.Injective ipText) (addresses : List IpAddr) :
    ((Route53.ipv4Texts ipText addresses).Nodup ∧ (Route53.ipv6Texts ipText addresses).Nodup) ↔
      addresses.Nodup := by
  constructor
  · rintro ⟨h4, h6⟩
    induction addresses with
    | nil => exact .nil
    | cons ip rest ih =>
      cases ip with
      | v4 bits =>
        obtain ⟨hnew, h4⟩ := List.nodup_cons.1 h4
        refine List.nodup_cons.2 ⟨fun hmem => hnew ?_, ih h4 h6⟩
        exact List.mem_filterMap.2 ⟨_, hmem, rfl⟩
      | v6 bits =>
        obtain ⟨hnew, h6⟩ := List.nodup_cons.1 h6
        refine List.nodup_cons.2 ⟨fun hmem => hnew ?_, ih h4 h6⟩
        exact List.mem_filterMap.2 ⟨_, hmem, rfl⟩
  · intro h
    constructor
    · refine h.filterMap fun ip ip' text htext htext' => ?_
      cases ip <;> cases ip' <;> simp only [Option.mem_def, Option.some.injEq, reduceCtorEq] at htext htext'
      exact hip (htext.trans htext'.symm)
    · refine h.filterMap fun ip ip' text htext htext' => ?_
      cases ip <;> cases ip' <;> simp only [Option.mem_def, Option.some.injEq, reduceCtorEq] at htext htext'
      exact hip (htext.trans htext'.symm)

/-! ## The providers -/

variable {records : NameRecords}

/-- Everything that a publication checks and submits is in order. -/
structure Publishable (ipText : IpAddr → String) (records : NameRecords) : Prop where
  hostname : validateHostname records.hostname = .ok ()
  challenge : ∃ name, challengeName records.hostname = .ok name
  caa : ∃ values, caaValues records.acmeAccountUri = .ok values
  issue : (issueValue records.acmeAccountUri).utf8ByteSize ≤ 255
  valid : validateRecords records = .ok ()
  /-- Whatever is listed, Route 53 gets a batch whose record sets hold no value twice. -/
  route53 : ∀ listing, ∃ batch, Route53.publishName ipText listing records = .ok batch ∧
    ∀ c ∈ batch, c.action = .upsert → c.recordSet.values.Nodup
  /-- Cloudflare is to hold records of which no two have one type and content. -/
  cloudflare : ∃ desired, Cloudflare.servingDesired ipText records = .ok desired ∧
    (desired.map Prod.fst).Nodup
  /-- Whatever is listed, Cloudflare's provider does not fail with `InvalidChange`. -/
  cloudflareAccepts : ∀ listing,
    Cloudflare.publishName ipText .serving listing records ≠ .error .invalidChange

theorem upsertAddresses_eq (name : String) (kind : Route53.RrType) (texts : List String) :
    Route53.upsertAddresses name kind texts =
      .ok (if texts.isEmpty then [] else [⟨.upsert, ⟨name, kind, ttlSeconds, texts⟩⟩]) := by
  unfold Route53.upsertAddresses
  split_ifs with hempty
  · rfl
  · have hne : texts ≠ [] := fun hnil => hempty (List.isEmpty_iff.2 hnil)
    have hchange : Route53.change name kind ttlSeconds texts .upsert =
        .ok ⟨.upsert, ⟨name, kind, ttlSeconds, texts⟩⟩ :=
      bind_eq_ok.2 ⟨(), require_eq_ok.2 hne, rfl⟩
    rw [hchange]
    rfl

theorem forall_upsertAddresses {name : String} {kind : Route53.RrType} {texts : List String} :
    (∀ c ∈ (if texts.isEmpty then [] else
        [(⟨.upsert, ⟨name, kind, ttlSeconds, texts⟩⟩ : Route53.Change)]),
      c.action = .upsert → c.recordSet.values.Nodup) ↔ texts.Nodup := by
  split_ifs with hempty
  · rw [List.isEmpty_iff.1 hempty]
    exact iff_of_true (fun c hc => absurd hc List.not_mem_nil) .nil
  · rw [List.forall_mem_singleton]
    exact ⟨fun h => h rfl, fun h _ => h⟩

/-- The two CAA values are different. -/
theorem caaValues_nodup (h : (validateAcmeAccountUri uri).toBool = true) :
    ∃ values, caaValues uri = .ok values ∧ values ≠ [] ∧ values.Nodup := by
  obtain ⟨environment, henvironment⟩ := Cloudflare.validateAcmeAccountUri_ok h
  refine ⟨_, bind_eq_ok.2 ⟨(), require_eq_ok.2 h, rfl⟩, List.cons_ne_nil _ _, ?_⟩
  refine List.nodup_cons.2 ⟨fun hmem => ?_, List.nodup_singleton _⟩
  have hsame := List.mem_singleton.1 hmem
  have hinfix : " issuewild ".toList <:+: "0 issuewild \";\"".toList := by decide +kernel
  rw [← hsame] at hinfix
  exact Cloudflare.issuewild_not_within henvironment hinfix

/-- The batch of a publication: its upserts hold the texts of the addresses and the CAA values. -/
theorem route53_publish (hrecords : validateRecords records = .ok ())
    (listing : List Route53.ResourceRecordSet) :
    ∃ batch, Route53.publishName ipText listing records = .ok batch ∧
      ((∀ c ∈ batch, c.action = .upsert → c.recordSet.values.Nodup) ↔
        (Route53.ipv4Texts ipText records.addresses).Nodup ∧
          (Route53.ipv6Texts ipText records.addresses).Nodup) := by
  obtain ⟨_, -, hchecks⟩ := bind_eq_ok.1 hrecords
  obtain ⟨-, -, -, huri⟩ := require_eq_ok.1 hchecks
  obtain ⟨values, hvalues, hne, hnodup⟩ := caaValues_nodup huri
  have hcaa : Route53.change records.hostname .caa ttlSeconds values .upsert =
      .ok ⟨.upsert, ⟨records.hostname, .caa, ttlSeconds, values⟩⟩ :=
    bind_eq_ok.2 ⟨(), require_eq_ok.2 hne, rfl⟩
  have hok : Route53.publishName ipText listing records = .ok _ :=
    bind_eq_ok.2 ⟨(), hrecords, bind_eq_ok.2 ⟨_, upsertAddresses_eq _ _ _,
      bind_eq_ok.2 ⟨_, upsertAddresses_eq _ _ _, bind_eq_ok.2 ⟨values, hvalues,
        bind_eq_ok.2 ⟨_, hcaa, rfl⟩⟩⟩⟩⟩
  have hstale : ∀ (sets : List Route53.ResourceRecordSet),
      ∀ c ∈ sets.map (fun s => (⟨.delete, s⟩ : Route53.Change)),
        c.action = .upsert → c.recordSet.values.Nodup := by
    intro sets c hc haction
    obtain ⟨s, -, rfl⟩ := List.mem_map.1 hc
    cases haction
  refine ⟨_, hok, ?_⟩
  rw [List.forall_mem_append, List.forall_mem_append, List.forall_mem_append,
    forall_upsertAddresses, forall_upsertAddresses, List.forall_mem_singleton]
  constructor
  · rintro ⟨⟨⟨-, h4⟩, h6⟩, -⟩
    exact ⟨h4, h6⟩
  · rintro ⟨h4, h6⟩
    exact ⟨⟨⟨hstale _, h4⟩, h6⟩, fun _ => hnodup⟩

theorem key_error {record : Cloudflare.Record} {e : DnsError} (h : record.key = .error e) :
    e = .conflict := by
  unfold Cloudflare.Record.key at h
  split_ifs at h
  rcases bind_eq_error.1 h with h | ⟨data, -, h⟩
  · exact (found_eq_error.1 h).2.symm
  · rcases bind_eq_error.1 h with h | ⟨_, -, h⟩
    · exact (require_eq_error.1 h).2.symm
    · cases h

/-- A listed record that is in the way is a conflict. -/
theorem sortRecords_error {desired : Std.TreeMap Cloudflare.RecordKey Cloudflare.Body}
    {found : List Cloudflare.RecordKey} {listing : List Cloudflare.Record} {e : DnsError}
    (h : Cloudflare.sortRecords desired found listing = .error e) : e = .conflict := by
  induction listing generalizing found with
  | nil => cases h
  | cons record rest ih =>
    have hrest : ∀ {α : Type} {found : List Cloudflare.RecordKey} {f : Cloudflare.Sorted → α},
        (Cloudflare.sortRecords desired found rest >>= fun sorted => .ok (f sorted)) = .error e →
        e = .conflict := by
      intro α found f h
      rcases bind_eq_error.1 h with h | ⟨_, -, h⟩
      · exact ih h
      · cases h
    unfold Cloudflare.sortRecords at h
    split_ifs at h
    · exact (Except.error.inj h).symm
    · exact ih h
    · exact (Except.error.inj h).symm
    · rcases bind_eq_error.1 h with h | ⟨key, -, h⟩
      · exact key_error h
      · cases hbody : desired[key]? with
        | none =>
          simp only [hbody] at h
          exact hrest h
        | some body =>
          simp only [hbody] at h
          split_ifs at h
          · exact hrest h
          · exact hrest h

theorem publishName_error {desired : List (Cloudflare.RecordKey × Cloudflare.Body)}
    (hdesired : Cloudflare.servingDesired ipText records = .ok desired)
    (listing : List Cloudflare.Record) :
    Cloudflare.publishName ipText .serving listing records ≠ .error .invalidChange := by
  intro h
  rcases bind_eq_error.1 h with h | ⟨_, -, h⟩
  · exact (require_eq_error.1 h).1 rfl
  rcases bind_eq_error.1 h with h | ⟨desired', -, h⟩
  · rw [hdesired] at h
    cases h
  rcases bind_eq_error.1 h with h | ⟨existing, -, h⟩
  · rcases bind_eq_error.1 h with h | ⟨_, -, h⟩
    · cases (require_eq_error.1 h).2
    · cases h
  rcases bind_eq_error.1 h with h | ⟨_, -, h⟩
  · rcases bind_eq_error.1 h with h | ⟨_, -, h⟩
    · cases sortRecords_error h
    · cases h
  · cases h

/-! ## What is admitted can be published -/

theorem validateRecords_eq_ok (hhostname : validateHostname records.hostname = .ok ())
    (huri : (validateAcmeAccountUri records.acmeAccountUri).toBool = true)
    (hne : records.addresses ≠ []) (hspecified : records.addresses.any isUnspecified = false) :
    validateRecords records = .ok () ↔ records.addresses.length ≤ 4 := by
  unfold validateRecords
  constructor
  · intro h
    obtain ⟨_, -, h⟩ := bind_eq_ok.1 h
    exact (require_eq_ok.1 h).2.1
  · intro h
    exact bind_eq_ok.2 ⟨(), require_eq_ok.2 hhostname, require_eq_ok.2 ⟨hne, h, hspecified, huri⟩⟩

/-- **Admission and publication.** For every hostname that `allocate` builds, every account URI that
`register_acme_account` accepts and every value with which a worker starts, the records can be
published exactly if the value names at most four addresses and none of them twice. -/
theorem admitted_publishable_iff (hip : Function.Injective ipText) (random : BitVec 128)
    (huri : environment.validateAccountUri uri = .ok ())
    (hstarted : addresses parseIpv6 value = some ingress) :
    Publishable ipText ⟨allocatedHostname random, ingress, uri⟩ ↔
      (namedAddresses parseIpv6 value).length ≤ 4 ∧ (namedAddresses parseIpv6 value).Nodup := by
  obtain ⟨rfl, hne, -, hspecified⟩ := addresses_eq_some hstarted
  have hhostname := validateHostname_allocated random
  have hvalid := validateAcmeAccountUri_of_environment huri
  have hrecords : validateRecords ⟨allocatedHostname random, namedAddresses parseIpv6 value, uri⟩ =
      .ok () ↔ (namedAddresses parseIpv6 value).length ≤ 4 :=
    validateRecords_eq_ok hhostname hvalid hne hspecified
  constructor
  · intro h
    refine ⟨hrecords.1 h.valid, (nodup_texts_iff hip _).1 ?_⟩
    obtain ⟨batch, hbatch, hnodup⟩ := h.route53 []
    obtain ⟨batch', hbatch', hiff⟩ := @route53_publish ipText _ h.valid []
    obtain rfl := Except.ok.inj (hbatch.symm.trans hbatch')
    exact hiff.1 hnodup
  · rintro ⟨hlength, hnodup⟩
    have hok := hrecords.2 hlength
    obtain ⟨values, hvalues, -, -⟩ := caaValues_nodup hvalid
    obtain ⟨desired, hdesired⟩ : ∃ desired, Cloudflare.servingDesired ipText
        ⟨allocatedHostname random, namedAddresses parseIpv6 value, uri⟩ = .ok desired :=
      ⟨_, bind_eq_ok.2 ⟨(), hok, bind_eq_ok.2 ⟨values, hvalues, rfl⟩⟩⟩
    refine ⟨hhostname, ⟨_, bind_eq_ok.2 ⟨(), require_eq_ok.2 hhostname, rfl⟩⟩, ⟨values, hvalues⟩,
      issueValue_size huri, hok, fun listing => ?_, ⟨desired, hdesired, ?_⟩,
      publishName_error hdesired⟩
    · obtain ⟨batch, hbatch, hiff⟩ := @route53_publish ipText _ hok listing
      exact ⟨batch, hbatch, hiff.2 ((nodup_texts_iff hip _).2 hnodup)⟩
    · exact List.pairwise_map.2 (Cloudflare.servingDesired_ok hdesired).keys

/-- A text for every address, different for different ones. -/
def numberText : IpAddr → String
  | .v4 bits => String.ofList ('4' :: Nat.toDigits 10 bits.toNat)
  | .v6 bits => String.ofList ('6' :: Nat.toDigits 10 bits.toNat)

theorem numberText_injective : Function.Injective numberText := by
  have hdigits : ∀ m n : Nat, Nat.toDigits 10 m = Nat.toDigits 10 n → m = n := by
    intro m n h
    have hm := Decimal.parse?_toDigits (show m < max m n + 1 by omega)
    have hn := Decimal.parse?_toDigits (show n < max m n + 1 by omega)
    rw [h] at hm
    exact Option.some.inj (hm.symm.trans hn)
  have hchars : ∀ {a b : List Char}, String.ofList a = String.ofList b → a = b := fun h =>
    String.ofList_injective h
  intro a b h
  cases a with
  | v4 x =>
    cases b with
    | v4 y => rw [BitVec.eq_of_toNat_eq (hdigits _ _ (List.cons.inj (hchars h)).2)]
    | v6 y => exact absurd (List.cons.inj (hchars h)).1 (by decide)
  | v6 x =>
    cases b with
    | v4 y => exact absurd (List.cons.inj (hchars h)).1 (by decide)
    | v6 y => rw [BitVec.eq_of_toNat_eq (hdigits _ _ (List.cons.inj (hchars h)).2)]

def productionUri : String := "https://acme-v02.api.letsencrypt.org/acme/acct/123"

/-- A worker with two addresses. -/
theorem admitted_publishable_iff_two :
    Publishable numberText ⟨allocatedHostname 9, [.v4 0xC000020A, .v4 0xC000020B], productionUri⟩ := by
  have huri : AcmeEnvironment.production.validateAccountUri productionUri = .ok () := by
    decide +kernel
  have hstarted : addresses (fun _ => none) "192.0.2.10,192.0.2.11" =
      some [.v4 0xC000020A, .v4 0xC000020B] := by decide +kernel
  have hnamed : (namedAddresses (fun _ => none) "192.0.2.10,192.0.2.11").length ≤ 4 ∧
      (namedAddresses (fun _ => none) "192.0.2.10,192.0.2.11").Nodup := by decide +kernel
  exact (admitted_publishable_iff numberText_injective 9 huri hstarted).2 hnamed

/-- A worker starts with five addresses and fails every publication with `InvalidChange`; one that
starts with an address twice hands Route 53 a record set that holds a value twice. -/
theorem admitted_not_publishable :
    addresses (fun _ => none) "192.0.2.1,192.0.2.2,192.0.2.3,192.0.2.4,192.0.2.5" =
        some [.v4 0xC0000201, .v4 0xC0000202, .v4 0xC0000203, .v4 0xC0000204, .v4 0xC0000205] ∧
      AcmeEnvironment.production.validateAccountUri productionUri = .ok () ∧
      (∀ ipText listing, Route53.publishName ipText listing ⟨allocatedHostname 9,
        [.v4 0xC0000201, .v4 0xC0000202, .v4 0xC0000203, .v4 0xC0000204, .v4 0xC0000205],
        productionUri⟩ = .error .invalidChange) ∧
      (∀ ipText listing, Cloudflare.publishName ipText .serving listing ⟨allocatedHostname 9,
        [.v4 0xC0000201, .v4 0xC0000202, .v4 0xC0000203, .v4 0xC0000204, .v4 0xC0000205],
        productionUri⟩ = .error .invalidChange) ∧
      addresses (fun _ => none) "192.0.2.1,192.0.2.1" = some [.v4 0xC0000201, .v4 0xC0000201] ∧
      ∀ ipText, ∃ batch, Route53.publishName ipText [] ⟨allocatedHostname 9,
          [.v4 0xC0000201, .v4 0xC0000201], productionUri⟩ = .ok batch ∧
        ∃ c ∈ batch, c.action = .upsert ∧ ¬ c.recordSet.values.Nodup := by
  have hinvalid : validateRecords ⟨allocatedHostname 9,
      [.v4 0xC0000201, .v4 0xC0000202, .v4 0xC0000203, .v4 0xC0000204, .v4 0xC0000205],
      productionUri⟩ = .error .invalidChange := by decide +kernel
  have hvalid : validateRecords ⟨allocatedHostname 9, [.v4 0xC0000201, .v4 0xC0000201],
      productionUri⟩ = .ok () := by decide +kernel
  refine ⟨by decide +kernel, by decide +kernel, fun ipText listing => ?_, fun ipText listing => ?_,
    by decide +kernel, fun ipText => ?_⟩
  · exact bind_eq_error.2 (.inl hinvalid)
  · exact bind_eq_error.2 (.inr ⟨(), rfl, bind_eq_error.2 (.inl (bind_eq_error.2 (.inl hinvalid)))⟩)
  · obtain ⟨batch, hbatch, hiff⟩ := @route53_publish ipText _ hvalid []
    have htwice : ¬ (Route53.ipv4Texts ipText [.v4 0xC0000201, .v4 0xC0000201]).Nodup := fun h =>
      (List.nodup_cons.1 h).1 List.mem_cons_self
    refine ⟨batch, hbatch, ?_⟩
    by_contra hnone
    refine htwice (hiff.1 fun c hc haction => ?_).1
    by_contra hdup
    exact hnone ⟨c, hc, haction, hdup⟩

end BloomRelay.Control
