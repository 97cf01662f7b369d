import BloomRelay.Ct.Proofs.ConsistencyProofs
import BloomRelay.Store.Proofs.RetirementProofs
import BloomRelay.Protocol.Auth

/-!
# Spellings of a fingerprint

A key digest has a spelling for every choice of upper and lower case, and `validate_fingerprint`
accepts them all. The inventory, its key and the check of a repeated entry compare the texts.
-/

namespace BloomRelay.Ct

open Protocol Store Checked

variable {sha256 : Bytes → Bytes32} {tr : List (Event Db Call)} {db db' : Db} {now : Time}
  {source : String} {entry : CtEntry} {id : Uuid} {certificate : CertificateMetadata}

/-! ## What has been reported stays -/

/-- The run has a committed report of the certificate. -/
def Reported (sha256 : Bytes → Bytes32) (tr : List (Event Db Call)) (id : Uuid)
    (certificate : CertificateMetadata) : Prop :=
  ∃ e ∈ tr, e.label.op = .recordExpectedCertificate id certificate ∧
    e.label.exec sha256 e.src = .ok (.unit, e.dst)

/-- The owner of the hostname has the fingerprint in its inventory. -/
structure Held (db : Db) (id : Uuid) (hostname fingerprint : String) : Prop where
  owner : ownerOf db hostname = some id
  inventory : (db.certificateInventory.find? (id, fingerprint)).isSome = true

theorem ownerOf_of_find (h : Named db) {row : Installation}
    (hrow : db.installations.find? id = some row) : ownerOf db row.hostname = some id := by
  have hmem := db.installations.find?_mem hrow
  unfold ownerOf
  cases hfind : db.installations.rows.find? (fun i => i.hostname = row.hostname) with
  | none =>
    have hnot := List.find?_eq_none.mp hfind row hmem
    exact absurd (decide_eq_true rfl) hnot
  | some row' =>
    have hname : row'.hostname = row.hostname := by
      have hfound := List.find?_some hfind
      exact of_decide_eq_true hfound
    have heq := h.owner hmem (List.mem_of_find?_eq_some hfind) hname
    rw [heq, Option.map_some]
    exact congrArg some (db.installations.find?_key hrow)

/-- A certificate that is there stays when another one is added. -/
theorem isSome_addCertificate (certificate : Certificate) {key : Uuid × String}
    (h : (db.certificateInventory.find? key).isSome = true) :
    ((db.certificateInventory.insertNew certificate).find? key).isSome = true := by
  by_cases hkey : certificate.key = key
  · subst hkey
    rw [Table.find?_insertNew_self]
    rfl
  · rw [Table.find?_insertNew_ne _ hkey]
    exact h

/-- `observe_ct` reads the inventory and does not write it. -/
theorem inventory_observeCt (entry : CtEntry) {b : Bool}
    (h : observeCt db now source entry.position entry.hostname entry.keyFingerprint = .ok (b, db')) :
    db'.certificateInventory = db.certificateInventory := by
  rw [observeCt_eq, bind_eq_ok] at h
  obtain ⟨answer, -, hrest⟩ := h
  cases answer with
  | some v =>
    cases hrest
    rfl
  | none =>
    cases hrec : recordVerdict db now source entry (ownerOf db entry.hostname)
        (issuanceExpected db entry.hostname entry.keyFingerprint) with
    | error e =>
      rw [hrec] at hrest
      cases hrest
    | ok db₁ =>
      rw [hrec] at hrest
      cases hrest
      exact (recordVerdict_ok hrec).inventory

/-- Only a committed report writes the inventory. -/
theorem call_inventory (sha256 : Bytes → Bytes32) (call : Call) (db : Db) :
    (call.after sha256 db).certificateInventory = db.certificateInventory ∨
      ∃ id certificate, call.op = .recordExpectedCertificate id certificate ∧
        certificate.notBeforeMs < certificate.notAfterMs ∧ storable certificate = true ∧
        (call.after sha256 db).certificateInventory = db.certificateInventory.insertNew
          ⟨id, certificate.keyFingerprint, certificate.lineage, i64OfU64 certificate.notBeforeMs,
            i64OfU64 certificate.notAfterMs⟩ := by
  obtain heq | ⟨reply, -, htx, -⟩ := after_cases sha256 call db
  · exact .inl (by rw [heq])
  by_cases hwrites : call.op.writesCt = false
  · exact .inl (congrArg CtTables.inventory ((call_effect sha256 call db).ct hwrites))
  generalize call.after sha256 db = db' at htx
  cases hop : call.op with
  | ensureCtSource source =>
    rw [hop] at htx
    obtain ⟨u, hu, -⟩ := answer_ok.mp htx
    rw [ensureCtSource_ok hu]
    exact .inl (ensureCheckpoint_keeps db call.now source).2.2.1
  | markCtFeedHealthy source position =>
    rw [hop] at htx
    obtain ⟨u, hu, -⟩ := answer_ok.mp htx
    rw [markCtFeedHealthy_ok hu]
    exact .inl rfl
  | recordExpectedCertificate id certificate =>
    rw [hop] at htx
    obtain ⟨u, hu, -⟩ := answer_ok.mp htx
    have hchecked : certificate.notBeforeMs < certificate.notAfterMs ∧ storable certificate = true := by
      simp only [recordExpectedCertificate, bind_eq_ok, require_eq_ok] at hu
      obtain ⟨-, -, _, -, -, ⟨-, -, hordered⟩, _, -, -, -, -, hstorable, -⟩ := hu
      exact ⟨hordered, hstorable⟩
    obtain ⟨row, -, -, rfl⟩ := recordExpectedCertificate_ok hu
    exact .inr ⟨id, certificate, rfl, hchecked.1, hchecked.2, rfl⟩
  | observeCt source position hostname fingerprint =>
    rw [hop] at htx
    obtain ⟨b, hb, -⟩ := answer_ok.mp htx
    exact .inl (inventory_observeCt ⟨position, hostname, fingerprint⟩ hb)
  | markCtAlertDelivered id =>
    rw [hop] at htx
    cases htx
    obtain heq | ⟨t, heq⟩ := markCtAlertDelivered_cases db call.now id
    · exact .inl (by rw [heq])
    · exact .inl (by rw [heq]; rfl)
  | _ =>
    rw [hop] at hwrites
    exact absurd rfl hwrites

theorem inventory_call (sha256 : Bytes → Bytes32) (call : Call) {key : Uuid × String}
    (h : (db.certificateInventory.find? key).isSome = true) :
    ((call.after sha256 db).certificateInventory.find? key).isSome = true := by
  rcases call_inventory sha256 call db with hsame | ⟨id, certificate, -, -, -, hnew⟩
  · rw [hsame]
    exact h
  · rw [hnew]
    exact isSome_addCertificate _ h

theorem Held.call {hostname fingerprint : String} (h : Held db id hostname fingerprint)
    (sha256 : Bytes → Bytes32) (call : Call) :
    Held (call.after sha256 db) id hostname fingerprint :=
  ⟨ownerOf_call sha256 call h.owner, inventory_call sha256 call h.inventory⟩

/-- A committed report is held from then on. -/
theorem held_of_report {call : Call} (hdb : Named db)
    (hop : call.op = .recordExpectedCertificate id certificate)
    (h : call.exec sha256 db = .ok (.unit, db')) :
    Held db' id certificate.hostname certificate.keyFingerprint ∧
      validateHostname certificate.hostname = .ok () ∧
      validateFingerprint certificate.keyFingerprint = .ok () := by
  obtain ⟨htx, -⟩ := exec_ok h
  rw [hop] at htx
  obtain ⟨u, hu, -⟩ := answer_ok.mp htx
  simp only [recordExpectedCertificate, bind_eq_ok, require_eq_ok, found_eq_ok, Except.ok.injEq,
    Prod.mk.injEq] at hu
  obtain ⟨-, hhost, _, hprint, -, -, row, hrow, -, ⟨hname, -⟩, -, -, -, rfl⟩ := hu
  obtain ⟨hrow, -⟩ := Option.filter_eq_some_iff.mp hrow
  refine ⟨⟨?_, ?_⟩, hhost, hprint⟩
  · rw [← hname]
    exact ownerOf_of_find hdb hrow
  · show ((db.certificateInventory.insertNew _).find? (id, certificate.keyFingerprint)).isSome = true
    rw [Table.find?_insertNew_self]
    rfl

/-- What has been reported in a run is held at its end. -/
theorem held_of_reported (h : StoreRun sha256 tr db) (hreported : Reported sha256 tr id certificate) :
    Held db id certificate.hostname certificate.keyFingerprint ∧
      validateHostname certificate.hostname = .ok () ∧
      validateFingerprint certificate.keyFingerprint = .ok () := by
  induction h with
  | refl =>
    obtain ⟨e, he, -⟩ := hreported
    exact absurd he List.not_mem_nil
  | snoc hrun hstep ih =>
    obtain ⟨e, he, hop, hexec⟩ := hreported
    rcases List.mem_cons.mp he with rfl | he
    · exact held_of_report (Named.run hrun) hop hexec
    · obtain ⟨hheld, hvalid⟩ := ih ⟨e, he, hop, hexec⟩
      rw [hstep]
      exact ⟨hheld.call sha256 _, hvalid⟩

/-! ## Two spellings in one database -/

/-- What becomes of an entry in the spelling `fingerprint`, compared with the spelling `reported`: the
same verdict, the same alerts, the same entry when it is repeated, and no alarm if it is new. -/
structure ComparedAsDigest (db : Db) (now later : Time) (source : String) (position : Nat)
    (hostname reported fingerprint : String) : Prop where
  verdict : (observeCt db now source position hostname fingerprint).map Prod.fst =
    (observeCt db now source position hostname reported).map Prod.fst
  alerts : (observeCt db now source position hostname fingerprint).map
      (fun answer => answer.2.ctAlerts.rows.map fun a => (a.source, a.position, a.hostname)) =
    (observeCt db now source position hostname reported).map
      (fun answer => answer.2.ctAlerts.rows.map fun a => (a.source, a.position, a.hostname))
  repeated : ∀ b db₁, observeCt db now source position hostname reported = .ok (b, db₁) →
    observeCt db₁ later source position hostname fingerprint = .ok (b, db₁)
  unflagged : position = ctPosition db source + 1 → ∀ b db₁,
    observeCt db now source position hostname fingerprint = .ok (b, db₁) → b = true

/-- The entry gets as far as a comparison of texts: it is the next one, or it is recorded in one of
the two spellings. -/
structure Reached (db : Db) (source : String) (position : Nat)
    (hostname reported fingerprint : String) : Prop where
  validSource : validateSource source = .ok ()
  validPosition : 0 < position ∧ position < 2 ^ 63
  compared : position = ctPosition db source + 1 ∨
    ∃ o, db.ctObservations.find? (source, position) = some o ∧ o.hostname = hostname ∧
      (o.fingerprint = reported ∨ o.fingerprint = fingerprint)

section Spellings

variable {later : Time} {position : Nat} {hostname reported fingerprint : String}

/-- Two texts that get to a comparison are two entries. -/
theorem eq_of_compared (hdb : Consistent db) (hhost : validateHostname hostname = .ok ())
    (hreported : validateFingerprint reported = .ok ())
    (hfingerprint : validateFingerprint fingerprint = .ok ())
    (hreached : Reached db source position hostname reported fingerprint)
    (h : ComparedAsDigest db now later source position hostname reported fingerprint) :
    fingerprint = reported := by
  have hvalid : ValidEntry source ⟨position, hostname, reported⟩ :=
    ⟨hhost, hreported, hreached.validSource, hreached.validPosition⟩
  have hvalid' : ValidEntry source ⟨position, hostname, fingerprint⟩ :=
    ⟨hhost, hfingerprint, hreached.validSource, hreached.validPosition⟩
  rcases hreached.compared with hnext | ⟨o, ho, hname, hprint⟩
  · -- recorded in the one spelling, the entry conflicts with the other
    obtain ⟨db₁, hok, hrec⟩ := observeCt_next now hdb hvalid hnext
    have hdb₁ := hdb.record hnext hreached.validPosition.2 hrec
    have ho₁ : db₁.ctObservations.find? (source, position) = some _ :=
      Table.find?_insert?_self hrec.observation
    have hagain := h.repeated _ _ hok
    rw [observeCt_recorded later hdb₁ hvalid' ho₁] at hagain
    by_contra hne
    rw [if_neg fun hsame => hne hsame.2.symm] at hagain
    cases hagain
  · have hverdict := h.verdict
    rw [observeCt_recorded now hdb hvalid ho, observeCt_recorded now hdb hvalid' ho] at hverdict
    by_contra hne
    rcases hprint with hprint | hprint
    · rw [if_neg fun hsame => hne (hsame.2.symm.trans hprint), if_pos ⟨hname, hprint⟩] at hverdict
      cases hverdict
    · rw [if_pos ⟨hname, hprint⟩, if_neg fun hsame => hne (hprint.symm.trans hsame.2)] at hverdict
      cases hverdict

/-- An entry that is not reached is refused in every spelling alike. -/
theorem observeCt_unreached (hdb : Consistent db) (hhost : validateHostname hostname = .ok ())
    (hreported : validateFingerprint reported = .ok ())
    (hfingerprint : validateFingerprint fingerprint = .ok ())
    (hunreached : ¬ Reached db source position hostname reported fingerprint) :
    ∃ e, observeCt db now source position hostname reported = .error e ∧
      observeCt db now source position hostname fingerprint = .error e := by
  by_cases hargs : validateSource source = .ok () ∧ 0 < position ∧ position < 2 ^ 63
  · obtain ⟨hsource, hposition⟩ := hargs
    have hvalid : ValidEntry source ⟨position, hostname, reported⟩ :=
      ⟨hhost, hreported, hsource, hposition⟩
    have hvalid' : ValidEntry source ⟨position, hostname, fingerprint⟩ :=
      ⟨hhost, hfingerprint, hsource, hposition⟩
    have hentry : ¬ (position = ctPosition db source + 1 ∨
        ∃ o, db.ctObservations.find? (source, position) = some o ∧ o.hostname = hostname ∧
          (o.fingerprint = reported ∨ o.fingerprint = fingerprint)) :=
      fun hentry => hunreached ⟨hsource, hposition, hentry⟩
    rw [not_or] at hentry
    obtain ⟨hnext, hstored⟩ := hentry
    refine ⟨.conflict, ?_⟩
    cases ho : db.ctObservations.find? (source, position) with
    | some o =>
      rw [observeCt_recorded now hdb hvalid ho, observeCt_recorded now hdb hvalid' ho,
        if_neg fun hsame => hstored ⟨o, ho, hsame.1, .inl hsame.2⟩,
        if_neg fun hsame => hstored ⟨o, ho, hsame.1, .inr hsame.2⟩]
      exact ⟨rfl, rfl⟩
    | none =>
      have hbeyond : ¬ (0 < position ∧ position ≤ ctPosition db source) :=
        fun hle => (hdb.contiguous source position).mpr hle ho
      have hgap : ctPosition db source + 1 < position := by omega
      have hfirst := observeCt_error now (observeStart_gap hvalid hgap)
      have hsecond := observeCt_error now (observeStart_gap hvalid' hgap)
      exact ⟨hfirst, hsecond⟩
  · have hinvalid : ∀ text, ¬ ValidEntry source ⟨position, hostname, text⟩ :=
      fun text hvalid => hargs ⟨hvalid.source, hvalid.position⟩
    have hfirst := @observeCt_invalid db source _ now (hinvalid reported)
    have hsecond := @observeCt_invalid db source _ now (hinvalid fingerprint)
    exact ⟨.invalidRequest, hfirst, hsecond⟩

theorem ComparedAsDigest.of_unreached (hdb : Consistent db) (hhost : validateHostname hostname = .ok ())
    (hreported : validateFingerprint reported = .ok ())
    (hfingerprint : validateFingerprint fingerprint = .ok ())
    (hunreached : ¬ Reached db source position hostname reported fingerprint) :
    ComparedAsDigest db now later source position hostname reported fingerprint := by
  obtain ⟨e, hfirst, hsecond⟩ :=
    @observeCt_unreached db now source _ _ _ _ hdb hhost hreported hfingerprint hunreached
  refine ⟨?_, ?_, fun b db₁ hok => ?_, fun _ b db₁ hok => ?_⟩
  · rw [hfirst, hsecond]
  · rw [hfirst, hsecond]
  · rw [hfirst] at hok
    cases hok
  · rw [hsecond] at hok
    cases hok

/-- A recorded entry that is repeated gets its verdict back and changes nothing. -/
theorem observeCt_again (hdb : Consistent db) {b : Bool} (later : Time)
    (h : observeCt db now source entry.position entry.hostname entry.keyFingerprint = .ok (b, db')) :
    observeCt db' later source entry.position entry.hostname entry.keyFingerprint = .ok (b, db') := by
  rw [observeCt_eq, bind_eq_ok] at h
  obtain ⟨answer, hstart, hrest⟩ := h
  cases answer with
  | some v =>
    cases hrest
    exact observeCt_replay later hstart
  | none =>
    have hvalid : ValidEntry source entry := by
      by_contra hinvalid
      rw [observeStart_invalid hinvalid] at hstart
      cases hstart
    obtain ⟨hnext, hlt⟩ := observeStart_next hstart
    cases hrec : recordVerdict db now source entry (ownerOf db entry.hostname)
        (issuanceExpected db entry.hostname entry.keyFingerprint) with
    | error e =>
      rw [hrec] at hrest
      cases hrest
    | ok db₁ =>
      rw [hrec] at hrest
      cases hrest
      have hrecords := recordVerdict_ok hrec
      have ho : db'.ctObservations.find? (source, entry.position) = some _ :=
        Table.find?_insert?_self hrecords.observation
      rw [observeCt_recorded later (hdb.record hnext hlt hrecords) hvalid ho]
      exact if_pos ⟨rfl, rfl⟩

/-- With one spelling the verdict of a held certificate is the expected one. -/
theorem ComparedAsDigest.of_same (hdb : Consistent db) (hheld : Held db id hostname reported) :
    ComparedAsDigest db now later source position hostname reported reported := by
  refine ⟨rfl, rfl, fun b db₁ hok => ?_, fun hnext b db₁ hok => ?_⟩
  · exact @observeCt_again db db₁ now source ⟨position, hostname, reported⟩ hdb b later hok
  · have hvalid : ValidEntry source ⟨position, hostname, reported⟩ := by
      by_contra hinvalid
      have herror := @observeCt_invalid db source _ now hinvalid
      rw [herror] at hok
      cases hok
    obtain ⟨db₂, hnew, -⟩ := observeCt_next now hdb hvalid hnext
    have hverdict : b = issuanceExpected db hostname reported := by
      have heq := hok.symm.trans hnew
      exact congrArg Prod.fst (Except.ok.inj heq)
    rw [hverdict]
    exact issuanceExpected_iff.mpr ⟨id, hheld.owner, hheld.inventory⟩

end Spellings

/-- Fingerprints are compared as texts: whatever digest it spells, a fingerprint and the reported one are
one entry exactly when they are the same text, or the entry is refused before any comparison. -/
theorem compared_as_digest_iff (sha256 : Bytes → Bytes32) (tr : List (Event Db Call)) (db : Db)
    (h : StoreRun sha256 tr db) (id : Uuid) (certificate : CertificateMetadata)
    (hreported : Reported sha256 tr id certificate) (fingerprint : String)
    (hvalid : validateFingerprint fingerprint = .ok ()) (now later : Time) (source : String)
    (position : Nat) :
    ComparedAsDigest db now later source position certificate.hostname certificate.keyFingerprint
        fingerprint ↔
      fingerprint = certificate.keyFingerprint ∨
        ¬ Reached db source position certificate.hostname certificate.keyFingerprint fingerprint := by
  obtain ⟨hheld, hhost, hprint⟩ := held_of_reported h hreported
  have hdb := consistent_run h
  constructor
  · intro hcompared
    by_cases hreached : Reached db source position certificate.hostname certificate.keyFingerprint
        fingerprint
    · exact .inl (eq_of_compared hdb hhost hprint hvalid hreached hcompared)
    · exact .inr hreached
  · rintro (rfl | hunreached)
    · exact .of_same hdb hheld
    · exact .of_unreached hdb hhost hprint hvalid hunreached

/-! ## Upper and lower case -/

/-- The certificate of an installation, its key in lower case. -/
def lowerCase : CertificateMetadata :=
  ⟨allocatedHostname 9, "https://acme-v02.api.letsencrypt.org/acme/acct/1",
    "aaaaaaaaaaaaaaaaaaaaaaaaaaaaaaaaaaaaaaaaaaaaaaaaaaaaaaaaaaaaaaaa", "fixture", 1, 2000000000000⟩

def upperCase : String := "AAAAAAAAAAAAAAAAAAAAAAAAAAAAAAAAAAAAAAAAAAAAAAAAAAAAAAAAAAAAAAAA"

def reportedCalls : List Call :=
  [⟨.default, 40, .recordExpectedCertificate 7 lowerCase⟩,
    ⟨.default, 30, .markDnsReady 7⟩,
    ⟨.default, 20, .registerAcmeAccount 7 "https://acme-v02.api.letsencrypt.org/acme/acct/1"⟩,
    ⟨.default, 10, .allocate 1 5 "relay-test" 7 9⟩]

theorem reported_lowerCase :
    Reported (fun _ => 0) (runOf (fun _ => 0) reportedCalls).1 7 lowerCase := by
  refine ⟨_, List.mem_cons_self, rfl, ?_⟩
  have hreply : ((⟨.default, 40, .recordExpectedCertificate 7 lowerCase⟩ : Call).exec (fun _ => 0)
      (runOf (fun _ => 0) (reportedCalls.drop 1)).2).map Prod.fst = .ok .unit := by
    decide +kernel
  show (⟨.default, 40, .recordExpectedCertificate 7 lowerCase⟩ : Call).exec (fun _ => 0)
    (runOf (fun _ => 0) (reportedCalls.drop 1)).2 =
      .ok (.unit, (⟨.default, 40, .recordExpectedCertificate 7 lowerCase⟩ : Call).after (fun _ => 0)
        (runOf (fun _ => 0) (reportedCalls.drop 1)).2)
  unfold Call.after
  cases hexec : (⟨.default, 40, .recordExpectedCertificate 7 lowerCase⟩ : Call).exec (fun _ => 0)
      (runOf (fun _ => 0) (reportedCalls.drop 1)).2 with
  | error e =>
    rw [hexec] at hreply
    cases hreply
  | ok answer =>
    rw [hexec] at hreply
    obtain ⟨reply, db'⟩ := answer
    cases hreply
    rfl

/-- A reported issuance that the feed spells in upper case is flagged as unexpected, and it conflicts
with the same entry in the spelling of the report. -/
theorem upperCase_flagged :
    hexDecode upperCase.toList = hexDecode lowerCase.keyFingerprint.toList ∧
      validateFingerprint upperCase = .ok () ∧
      Reported (fun _ => 0) (runOf (fun _ => 0) reportedCalls).1 7 lowerCase ∧
      (observeCt (runOf (fun _ => 0) reportedCalls).2 50 "fixture" 1 lowerCase.hostname
        lowerCase.keyFingerprint).map Prod.fst = .ok true ∧
      (observeCt (runOf (fun _ => 0) reportedCalls).2 50 "fixture" 1 lowerCase.hostname
        upperCase).map (fun answer => (answer.1, answer.2.ctAlerts.rows.length)) = .ok (false, 1) ∧
      (observeCt (runOf (fun _ => 0) reportedCalls).2 50 "fixture" 1 lowerCase.hostname
        lowerCase.keyFingerprint).bind (fun answer => (observeCt answer.2 60 "fixture" 1
          lowerCase.hostname upperCase).map Prod.fst) = .error .conflict := by
  refine ⟨by decide +kernel, by decide +kernel, reported_lowerCase, ?_, ?_, ?_⟩
  · decide +kernel
  · decide +kernel
  · decide +kernel

theorem compared_as_digest_iff_lowerCase :
    ComparedAsDigest (runOf (fun _ => 0) reportedCalls).2 50 60 "fixture" 1 lowerCase.hostname
      lowerCase.keyFingerprint lowerCase.keyFingerprint :=
  (compared_as_digest_iff (fun _ => 0) _ _ (storeRun_runOf (fun _ => 0) reportedCalls) 7 lowerCase
    reported_lowerCase lowerCase.keyFingerprint (by decide +kernel) 50 60 "fixture" 1).mpr (.inl rfl)

end BloomRelay.Ct
