import BloomRelay.Ct.Proofs.FingerprintProofs
import BloomRelay.Store.Proofs.UnavailableProofs
import BloomRelay.Store.Requests

/-!
# Numbers that clients supply

A client's 64-bit number is bound to a `BIGINT` parameter with `as i64`, which wraps from 2^63 on. The
columns it is compared with are not negative, so a wrapped number matches no row; the readiness revision
and the CT position are checked before they are bound. The validity of a reported certificate is stored
as it comes out of the cast, if that is a timestamp.
-/

namespace BloomRelay.Control

open Protocol Store Checked

/-- The requests with a number that a client supplies and a query binds. -/
inductive NumberedRequest where
  /-- `renew_bearer`. -/
  | renew (installationId operationId : Uuid) (scope : String) (generation : Nat)
      (currentToken : String) (newTokenHash : Bytes32)
  /-- `challenge_value_ready`. -/
  | ready (installationId : Uuid) (txtValue : String) (revision : Nat)
  /-- `mark_challenge_reconciled`. -/
  | reconciled (installationId : Uuid) (revision : Nat)
  /-- `record_expected_certificate`. -/
  | report (installationId : Uuid) (certificate : CertificateMetadata)
  /-- The lease of a `CONNECT`, `tunnel_is_current`. -/
  | connect (installationId : Uuid) (gatewayId : String) (generation : Nat)
  /-- `observe_ct`. -/
  | observe (source : String) (position : Nat) (hostname fingerprint : String)
  /-- `mark_ct_feed_healthy`. -/
  | healthy (source : String) (position : Nat)

namespace NumberedRequest

/-- The numbers the request binds. A renewal that repeats a recorded operation binds none. -/
def numbers (db : Db) : NumberedRequest → List Nat
  | .renew _ operationId _ generation _ _ =>
    if (db.operations.find? operationId).isSome then [] else [generation]
  | .ready _ _ revision | .reconciled _ revision => [revision]
  | .report _ certificate => [certificate.notBeforeMs, certificate.notAfterMs]
  | .connect _ _ generation => [generation]
  | .observe _ position _ _ | .healthy _ position => [position]

section Sha256

variable (sha256 : Bytes → Bytes32)

/-- Whether the request is granted, and the database after it. -/
def run (store : StoreConfig) (now : Time) (db : Db) :
    NumberedRequest → Except StoreError (Bool × Db)
  | .renew installationId operationId scope generation currentToken newTokenHash =>
    (renewBearer sha256 store db now installationId operationId scope generation currentToken
      newTokenHash).map fun answer => (true, answer.2)
  | .ready installationId txtValue revision =>
    (challengeValueReady db now installationId txtValue revision).map fun answer => (answer, db)
  | .reconciled installationId revision => .ok (markChallengeReconciled db installationId revision)
  | .report installationId certificate =>
    (recordExpectedCertificate db now installationId certificate).map fun answer => (true, answer.2)
  | .connect installationId gatewayId generation =>
    .ok (tunnelIsCurrent db now installationId gatewayId generation, db)
  | .observe source position hostname fingerprint =>
    (observeCt db now source position hostname fingerprint).map fun answer => (true, answer.2)
  | .healthy source position =>
    (markCtFeedHealthy db now source position).map fun answer => (true, answer.2)

/-- The request is refused and leaves the database as it was. -/
def Refused (store : StoreConfig) (now : Time) (db : Db) (request : NumberedRequest) : Prop :=
  (∃ e, request.run sha256 store now db = .error e) ∨ request.run sha256 store now db = .ok (false, db)

/-- The request is refused, or every number is bound as it was supplied. -/
def Unwrapped (store : StoreConfig) (now : Time) (db : Db) (request : NumberedRequest) : Prop :=
  request.Refused sha256 store now db ∨ ∀ n ∈ request.numbers db, i64OfU64 n = n

end Sha256

end NumberedRequest

/-! ## The cast -/

theorem i64OfU64_eq_iff {n : Nat} : i64OfU64 n = n ↔ n < 2 ^ 63 := by
  unfold i64OfU64
  split
  · rename_i hlt
    exact ⟨fun _ => hlt, fun _ => rfl⟩
  · rename_i hge
    constructor
    · intro heq
      omega
    · intro hlt
      exact absurd hlt hge

/-- A column that is not negative equals the cast of a number only if the number fits. -/
theorem lt_of_column_eq {column n : Nat} (h : n < 2 ^ 64) (heq : (column : Int) = i64OfU64 n) :
    n < 2 ^ 63 := by
  by_contra hge
  rw [i64OfU64, if_neg hge] at heq
  omega

/-! ## Reports -/

/-- The casts of the two ends of a validity are the ends themselves, or one of them is no timestamp. -/
def BoundsFit (certificate : CertificateMetadata) : Prop :=
  certificate.notAfterMs < 2 ^ 64 - 210866803200000 ∨
    9224318015999999 ≤ certificate.notBeforeMs ∧ certificate.notBeforeMs < 2 ^ 64 - 210866803200000

theorem storable_iff {certificate : CertificateMetadata} :
    storable certificate = true ↔ textOk certificate.lineage = true ∧
      (-210866803200000 ≤ i64OfU64 certificate.notBeforeMs ∧
        i64OfU64 certificate.notBeforeMs < 9224318015999999) ∧
      -210866803200000 ≤ i64OfU64 certificate.notAfterMs ∧
        i64OfU64 certificate.notAfterMs < 9224318015999999 := by
  rw [storable, Bool.and_eq_true, Bool.and_eq_true, timestampOk_iff, timestampOk_iff, and_assoc]

theorem lt_of_boundsFit {certificate : CertificateMetadata} (hstorable : storable certificate = true)
    (hfits : BoundsFit certificate) : certificate.notAfterMs < 2 ^ 63 := by
  obtain ⟨-, hbefore, hafter⟩ := storable_iff.mp hstorable
  by_contra hge
  rw [i64OfU64, if_neg hge] at hafter
  rcases hfits with hlt | ⟨hle, hlt⟩
  · omega
  · unfold i64OfU64 at hbefore
    split_ifs at hbefore <;> omega

/-- From close to 2^64 on, the end of a validity is a timestamp again: one before 1970. -/
theorem storable_of_not_boundsFit {certificate : CertificateMetadata}
    (htext : textOk certificate.lineage = true) (hu64 : certificate.notAfterMs < 2 ^ 64)
    (hvalidity : certificate.notBeforeMs < certificate.notAfterMs) (hno : ¬ BoundsFit certificate) :
    storable certificate = true ∧ ¬ certificate.notAfterMs < 2 ^ 63 := by
  have hafter : 2 ^ 64 - 210866803200000 ≤ certificate.notAfterMs := not_lt.mp fun h => hno (.inl h)
  have hbefore : ¬ (9224318015999999 ≤ certificate.notBeforeMs ∧
      certificate.notBeforeMs < 2 ^ 64 - 210866803200000) := fun h => hno (.inr h)
  refine ⟨storable_iff.mpr ⟨htext, ?_, ?_⟩, by omega⟩
  · unfold i64OfU64
    split_ifs <;> omega
  · rw [i64OfU64, if_neg (by omega)]
    omega

/-! ## Every request -/

section Requests

variable {sha256 : Bytes → Bytes32} {store : StoreConfig} {now : Time} {db : Db}

open NumberedRequest

theorem numbers_renew_new {id operationId : Uuid} {scope : String} {generation : Nat}
    {currentToken : String} {newTokenHash : Bytes32} (h : db.operations.find? operationId = none) :
    (NumberedRequest.renew id operationId scope generation currentToken newTokenHash).numbers db =
      [generation] := by
  rw [numbers, h]
  rfl

theorem renew_unwrapped {id operationId : Uuid} {scope : String} {generation : Nat}
    {currentToken : String} {newTokenHash : Bytes32}
    (hu64 : db.operations.find? operationId = none → generation < 2 ^ 64) :
    (NumberedRequest.renew id operationId scope generation currentToken newTokenHash).Unwrapped sha256
      store now db := by
  cases hrun : renewBearer sha256 store db now id operationId scope generation currentToken
      newTokenHash with
  | error e =>
    refine .inl (.inl ⟨e, ?_⟩)
    rw [run, hrun]
    rfl
  | ok answer =>
    obtain ⟨receipt, db'⟩ := answer
    obtain ⟨s, -, -, ⟨hrecorded, -⟩ | ⟨hnew, htx⟩⟩ := renewBearer_ok hrun
    · refine .inr fun n hn => ?_
      rw [numbers, if_pos (Option.isSome_iff_ne_none.mpr hrecorded)] at hn
      exact absurd hn List.not_mem_nil
    · obtain ⟨row, current, -, hcurrent, -, -⟩ := renewBearerTx_ok htx
      obtain ⟨-, -, -, -, -, -, hgeneration, -⟩ := renewableCredential_eq_some hcurrent
      refine .inr fun n hn => ?_
      rw [numbers_renew_new hnew, List.mem_singleton] at hn
      rw [hn]
      exact i64OfU64_eq_iff.mpr (lt_of_column_eq (hu64 hnew) hgeneration)

theorem ready_unwrapped (id : Uuid) (txtValue : String) (revision : Nat) :
    (NumberedRequest.ready id txtValue revision).Unwrapped sha256 store now db := by
  by_cases hlt : revision < 2 ^ 63
  · refine .inr fun n hn => ?_
    rw [numbers, List.mem_singleton] at hn
    rw [hn]
    exact i64OfU64_eq_iff.mpr hlt
  · have herror : challengeValueReady db now id txtValue revision = .error .invalidRequest := by
      have hrequire : (require (revision < 2 ^ 63) .invalidRequest : Except StoreError Unit) =
        .error .invalidRequest := require_eq_error.mpr ⟨hlt, rfl⟩
      rw [challengeValueReady, hrequire]
      rfl
    refine .inl (.inl ⟨.invalidRequest, ?_⟩)
    rw [run, herror]
    rfl

theorem reconciled_unwrapped {id : Uuid} {revision : Nat} (hu64 : revision < 2 ^ 64) :
    (NumberedRequest.reconciled id revision).Unwrapped sha256 store now db := by
  rcases markChallengeReconciled_cases db id revision with hfalse | ⟨s, -, hrevision, -⟩
  · refine .inl (.inr ?_)
    rw [run, hfalse]
  · refine .inr fun n hn => ?_
    rw [numbers, List.mem_singleton] at hn
    rw [hn]
    exact i64OfU64_eq_iff.mpr (lt_of_column_eq hu64 hrevision)

theorem connect_unwrapped {id : Uuid} {gatewayId : String} {generation : Nat}
    (hu64 : generation < 2 ^ 64) :
    (NumberedRequest.connect id gatewayId generation).Unwrapped sha256 store now db := by
  cases hcurrent : tunnelIsCurrent db now id gatewayId generation with
  | false =>
    refine .inl (.inr ?_)
    rw [run, hcurrent]
  | true =>
    obtain ⟨l, -, -, hgeneration, -⟩ := tunnelIsCurrent_iff.mp hcurrent
    refine .inr fun n hn => ?_
    rw [numbers, List.mem_singleton] at hn
    rw [hn]
    exact i64OfU64_eq_iff.mpr (lt_of_column_eq hu64 hgeneration)

theorem observe_unwrapped (source : String) (position : Nat) (hostname fingerprint : String) :
    (NumberedRequest.observe source position hostname fingerprint).Unwrapped sha256 store now db := by
  by_cases hlt : position < 2 ^ 63
  · refine .inr fun n hn => ?_
    rw [numbers, List.mem_singleton] at hn
    rw [hn]
    exact i64OfU64_eq_iff.mpr hlt
  · have hinvalid : ¬ Ct.ValidEntry source ⟨position, hostname, fingerprint⟩ :=
      fun hvalid => hlt hvalid.position.2
    have herror := @Ct.observeCt_invalid db source _ now hinvalid
    refine .inl (.inl ⟨.invalidRequest, ?_⟩)
    rw [run, herror]
    rfl

theorem healthy_unwrapped {source : String} {position : Nat} (hu64 : position < 2 ^ 64) :
    (NumberedRequest.healthy source position).Unwrapped sha256 store now db := by
  cases hrun : markCtFeedHealthy db now source position with
  | error e =>
    refine .inl (.inl ⟨e, ?_⟩)
    rw [run, hrun]
    rfl
  | ok answer =>
    simp only [markCtFeedHealthy, bind_eq_ok, found_eq_ok] at hrun
    obtain ⟨_, -, c, hc, -⟩ := hrun
    obtain ⟨-, hposition⟩ := Option.filter_eq_some_iff.mp hc
    refine .inr fun n hn => ?_
    rw [numbers, List.mem_singleton] at hn
    rw [hn]
    exact i64OfU64_eq_iff.mpr (lt_of_column_eq hu64 (of_decide_eq_true hposition))

/-- An acceptable report is stored with both bounds cast. -/
theorem report_unwrapped_iff {id : Uuid} {certificate : CertificateMetadata}
    (hu64 : certificate.notAfterMs < 2 ^ 64) :
    (NumberedRequest.report id certificate).Unwrapped sha256 store now db ↔
      ¬ Acceptable db id certificate ∨ textOk certificate.lineage = false ∨ BoundsFit certificate := by
  constructor
  · intro h
    by_contra hno
    push Not at hno
    obtain ⟨haccepted, htext, hbounds⟩ := hno
    obtain ⟨hstorable, hge⟩ :=
      storable_of_not_boundsFit (Bool.eq_true_of_not_eq_false htext) hu64 haccepted.validity hbounds
    obtain ⟨answer, hok⟩ := (@recordExpectedCertificate_ok_iff db now id certificate).mpr
      ⟨haccepted, hstorable⟩
    rcases h with (⟨e, herror⟩ | hfalse) | hfits
    · rw [run, hok] at herror
      cases herror
    · rw [run, hok] at hfalse
      cases hfalse
    · exact hge (i64OfU64_eq_iff.mp (hfits _ (List.mem_cons_of_mem _ List.mem_cons_self)))
  · intro h
    cases hrun : recordExpectedCertificate db now id certificate with
    | error e =>
      refine .inl (.inl ⟨e, ?_⟩)
      rw [run, hrun]
      rfl
    | ok answer =>
      obtain ⟨haccepted, hstorable⟩ := recordExpectedCertificate_ok_iff.mp ⟨answer, hrun⟩
      have hlt : certificate.notAfterMs < 2 ^ 63 := by
        rcases h with hno | htext | hbounds
        · exact absurd haccepted hno
        · rw [(storable_iff.mp hstorable).1] at htext
          cases htext
        · exact lt_of_boundsFit hstorable hbounds
      have hvalidity := haccepted.validity
      refine .inr fun n hn => i64OfU64_eq_iff.mpr ?_
      rcases List.mem_cons.mp hn with rfl | hn
      · omega
      · rw [List.mem_singleton.mp hn]
        exact hlt

end Requests

/-- The bounds of a report that is stored fit a `BIGINT`. -/
def NumberedRequest.Fits (db : Db) : NumberedRequest → Prop
  | .report id certificate =>
    ¬ Acceptable db id certificate ∨ textOk certificate.lineage = false ∨ BoundsFit certificate
  | _ => True

theorem inventory_ordered_run {sha256 : Bytes → Bytes32} {tr : List (Event Db Call)} {db : Db}
    (h : StoreRun sha256 tr db)
    (hfits : ∀ e ∈ tr, ∀ id certificate, e.label.op = .recordExpectedCertificate id certificate →
      BoundsFit certificate) :
    ∀ row ∈ db.certificateInventory.rows, row.notBeforeMs < row.notAfterMs := by
  induction h with
  | refl => exact fun row hrow => absurd hrow List.not_mem_nil
  | snoc hrun hstep ih =>
    rename_i tr db db' call
    have hbefore := ih fun e he => hfits e (List.mem_cons_of_mem _ he)
    obtain rfl : db' = call.after sha256 db := hstep
    rcases Ct.call_inventory sha256 call db with hsame |
      ⟨id, certificate, hop, hvalidity, hstorable, hnew⟩
    · rw [hsame]
      exact hbefore
    · have hlt := lt_of_boundsFit hstorable (hfits _ List.mem_cons_self id certificate hop)
      rw [hnew]
      intro row hrow
      rcases Table.mem_insertNew hrow with hrow | rfl
      · exact hbefore row hrow
      · show i64OfU64 certificate.notBeforeMs < i64OfU64 certificate.notAfterMs
        rw [i64OfU64_of_lt hlt, i64OfU64_of_lt (by omega : certificate.notBeforeMs < 2 ^ 63)]
        omega

/-- A number that a client supplies is refused or bound as it is, the validity of an accepted
certificate apart; with validities that fit, the bounds in the inventory are in order. -/
theorem numbers_unwrapped_iff (sha256 : Bytes → Bytes32) (store : StoreConfig) (now : Time) (db : Db)
    (request : NumberedRequest) (hu64 : ∀ n ∈ request.numbers db, n < 2 ^ 64) :
    (request.Unwrapped sha256 store now db ↔ request.Fits db) ∧
      ∀ tr db', StoreRun sha256 tr db' →
        (∀ e ∈ tr, ∀ id certificate, e.label.op = .recordExpectedCertificate id certificate →
          BoundsFit certificate) →
        ∀ row ∈ db'.certificateInventory.rows, row.notBeforeMs < row.notAfterMs := by
  refine ⟨?_, fun tr db' hrun hfits => inventory_ordered_run hrun hfits⟩
  cases request with
  | renew id operationId scope generation currentToken newTokenHash =>
    refine iff_of_true (renew_unwrapped fun hnew => hu64 generation ?_) trivial
    rw [numbers_renew_new hnew]
    exact List.mem_singleton_self generation
  | ready id txtValue revision => exact iff_of_true (ready_unwrapped id txtValue revision) trivial
  | reconciled id revision =>
    exact iff_of_true (reconciled_unwrapped (hu64 revision List.mem_cons_self)) trivial
  | report id certificate =>
    exact report_unwrapped_iff (hu64 _ (List.mem_cons_of_mem _ List.mem_cons_self))
  | connect id gatewayId generation =>
    exact iff_of_true (connect_unwrapped (hu64 generation List.mem_cons_self)) trivial
  | observe source position hostname fingerprint =>
    exact iff_of_true (observe_unwrapped source position hostname fingerprint) trivial
  | healthy source position =>
    exact iff_of_true (healthy_unwrapped (hu64 position List.mem_cons_self)) trivial

/-! ## A certificate that never expires -/

/-- Valid up to the largest 64-bit number. -/
def unlimited : CertificateMetadata :=
  { Ct.lowerCase with notAfterMs := 2 ^ 64 - 1 }

def unlimitedCalls : List Call :=
  ⟨.default, 40, .recordExpectedCertificate 7 unlimited⟩ :: Ct.reportedCalls.drop 1

/-- The report is accepted, and stored with an upper bound of -1. -/
theorem unlimited_wrapped :
    Acceptable (runOf (fun _ => 0) (Ct.reportedCalls.drop 1)).2 7 unlimited ∧
      ¬ (NumberedRequest.report 7 unlimited).Unwrapped (fun _ => 0) .default 40
        (runOf (fun _ => 0) (Ct.reportedCalls.drop 1)).2 ∧
      (runOf (fun _ => 0) unlimitedCalls).2.certificateInventory.rows.map
        (fun row => (row.notBeforeMs, row.notAfterMs)) = [(1, -1)] := by
  have haccepted : Acceptable (runOf (fun _ => 0) (Ct.reportedCalls.drop 1)).2 7 unlimited := by
    refine ((@recordExpectedCertificate_ok_iff _ 40 _ _).mp ?_).1
    have hok : (recordExpectedCertificate (runOf (fun _ => 0) (Ct.reportedCalls.drop 1)).2 40 7
        unlimited).map Prod.fst = .ok () := by
      decide +kernel
    cases hrun : recordExpectedCertificate (runOf (fun _ => 0) (Ct.reportedCalls.drop 1)).2 40 7
        unlimited with
    | ok answer => exact ⟨answer, rfl⟩
    | error e =>
      rw [hrun] at hok
      cases hok
  refine ⟨haccepted, fun hunwrapped => ?_, by decide +kernel⟩
  rcases (report_unwrapped_iff (by decide)).mp hunwrapped with hno | htext | hbounds
  · exact hno haccepted
  · exact absurd htext (by decide)
  · rcases hbounds with hlt | ⟨hle, -⟩
    · exact absurd hlt (by decide)
    · exact absurd hle (by decide)

theorem numbers_unwrapped_iff_report :
    (NumberedRequest.report 7 Ct.lowerCase).Unwrapped (fun _ => 0) .default 40
      (runOf (fun _ => 0) (Ct.reportedCalls.drop 1)).2 :=
  (numbers_unwrapped_iff (fun _ => 0) .default 40 (runOf (fun _ => 0) (Ct.reportedCalls.drop 1)).2
    (.report 7 Ct.lowerCase) (by decide)).1.mpr (.inr (.inr (.inl (by decide))))

end BloomRelay.Control
