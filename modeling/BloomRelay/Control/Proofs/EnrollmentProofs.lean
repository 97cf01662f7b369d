import BloomRelay.Control.Enrollment
import BloomRelay.Control.Proofs.RetryProofs
import BloomRelay.Protocol.Proofs.ReceiptProofs
import BloomRelay.Protocol.Proofs.TextProofs
import BloomRelay.Store.Proofs.AllocationProofs

/-!
# A receipt is for the Signer's own installation

The receipt that a Signer accepts names an installation which the store has allocated to the Signer's key
under its operation ID, after a request that this key has signed.
-/

namespace BloomRelay.Control

open Protocol Store Checked

variable {R : Relay} {s s' : Enrollment} {l : EnrollmentAction}
  {tr : List (Event Enrollment EnrollmentAction)} {q : AllocateRequest} {key : Bytes32}
  {allocation : Allocation}

/-- A request with this body was let through for the key. -/
def Admitted (R : Relay) (tr : List (Event Enrollment EnrollmentAction)) (q : AllocateRequest)
    (key : Bytes32) : Prop :=
  ∃ e ∈ tr, ∃ request clock call, e.label = .consume request clock call ∧ request.body = q ∧
    enrollCheck R.toApiConfig request clock = .ok key

theorem Admitted.cons (h : Admitted R tr q key) (e : Event Enrollment EnrollmentAction) :
    Admitted R (e :: tr) q key := by
  obtain ⟨e', he', hrest⟩ := h
  exact ⟨e', List.mem_cons_of_mem _ he', hrest⟩

/-- The allocation is that of an installation of the key. -/
structure Granted (R : Relay) (tr : List (Event Enrollment EnrollmentAction)) (db : Db)
    (q : AllocateRequest) (key : Bytes32) (allocation : Allocation) : Prop where
  admitted : Admitted R tr q key
  row : LeadsTo db q.operationId allocation.installationId key allocation.hostname

structure EnrollmentInv (R : Relay) (tr : List (Event Enrollment EnrollmentAction)) (s : Enrollment) :
    Prop where
  store : ∃ calls, OverlapRun R.crypto.sha256 calls s.store
  admitted : ∀ p ∈ s.admitted, Admitted R tr p.1 p.2
  allocated : ∀ p ∈ s.allocated, Granted R tr s.store.db p.1 p.2.1 p.2.2
  receipts : ∀ receipt ∈ s.receipts, ∃ q key, Granted R tr s.store.db q key receipt.allocation ∧
    receipt.operationId = q.operationId ∧ receipt.adminKeySha256 = sha256Hex R.crypto (beBytes 32 key)

/-- Nothing granted is lost while the store keeps its installations. -/
theorem EnrollmentInv.keep (h : EnrollmentInv R tr s) {store : Overlap}
    (hstore : ∃ calls, OverlapRun R.crypto.sha256 calls store)
    (hrow : ∀ o id key name, LeadsTo s.store.db o id key name → LeadsTo store.db o id key name)
    (e : Event Enrollment EnrollmentAction) : EnrollmentInv R (e :: tr) { s with store } := by
  have hgranted : ∀ {q key allocation}, Granted R tr s.store.db q key allocation →
      Granted R (e :: tr) store.db q key allocation :=
    fun hg => ⟨hg.admitted.cons e, hrow _ _ _ _ hg.row⟩
  refine ⟨hstore, fun p hp => (h.admitted p hp).cons e, fun p hp => hgranted (h.allocated p hp),
    fun receipt hreceipt => ?_⟩
  obtain ⟨q, key, hg, hrest⟩ := h.receipts receipt hreceipt
  exact ⟨q, key, hgranted hg, hrest⟩

theorem EnrollmentInv.overlap (h : EnrollmentInv R tr s) {a : OverlapAction} {store : Overlap}
    (hs : OverlapStep R.crypto.sha256 s.store a store) (e : Event Enrollment EnrollmentAction) :
    EnrollmentInv R (e :: tr) { s with store } := by
  obtain ⟨calls, hrun⟩ := h.store
  exact h.keep ⟨_, hrun.snoc hs⟩ (fun _ _ _ _ hrow => hrow.step (started_of_run hrun) hs) e

theorem EnrollmentInv.step (h : EnrollmentInv R tr s) (hs : EnrollmentStep R s l s')
    (e : Event Enrollment EnrollmentAction) (he : e.label = l) : EnrollmentInv R (e :: tr) s' := by
  cases hs with
  | store hs => exact h.overlap hs e
  | @consume q clock key call source db hcheck hop hexec =>
    have hs : OverlapStep R.crypto.sha256 s.store (.call call) { s.store with db } := by
      simp only [OverlapStep, Overlap.step, after_of_exec hexec]
    have hkept := h.overlap hs e
    refine ⟨hkept.store, fun p hp => ?_, hkept.allocated, hkept.receipts⟩
    rcases List.mem_cons.mp hp with rfl | hp
    · exact ⟨e, List.mem_cons_self, q, clock, call, he, rfl, hcheck⟩
    · exact hkept.admitted p hp
  | @allocate q key a store call allocation id random hq hs hans hop =>
    have hkept := h.overlap hs e
    refine ⟨hkept.store, hkept.admitted, fun p hp => ?_, hkept.receipts⟩
    rcases List.mem_cons.mp hp with rfl | hp
    · obtain ⟨calls, hrun⟩ := h.store
      have hcall : call.op = .allocate q.operationId key R.placement id random :=
        (StoreCall.transaction.inj hop).symm
      obtain ⟨alloc, hreply, -, hleads⟩ := leadsTo_of_answered (hrun.snoc hs) List.mem_cons_self hans hcall
      cases hreply
      exact ⟨hkept.admitted _ hq, hleads⟩
    · exact hkept.allocated p hp
  | @sign q key allocation nowMs message signature hq hmessage hsign =>
    have hkept := h.keep h.store (fun _ _ _ _ hrow => hrow) e
    refine ⟨hkept.store, hkept.admitted, hkept.allocated, fun receipt hreceipt => ?_⟩
    rcases List.mem_cons.mp hreceipt with rfl | hreceipt
    · exact ⟨q, key, hkept.allocated _ hq, rfl, rfl⟩
    · exact hkept.receipts receipt hreceipt

theorem enrollmentInv_of_run (h : EnrollmentRun R tr s) : EnrollmentInv R tr s := by
  refine h.invariant (EnrollmentInv R) ?_ fun _ _ _ _ _ hinv hs => hinv.step hs _ rfl
  exact ⟨⟨[], .refl⟩, fun _ hp => (List.not_mem_nil hp).elim, fun _ hp => (List.not_mem_nil hp).elim,
    fun _ hp => (List.not_mem_nil hp).elim⟩

/-- A receipt that is accepted verifies under one of the keys. -/
theorem exists_verify_of_verifyBytes {crypto : Crypto}
    {jcs : Allocation → Uuid → String → Nat → Option Bytes} {receipt : AllocationReceipt}
    {keys : List Bytes32} {operationId : Uuid} {nowMs : Nat}
    (h : receipt.verifyBytes crypto jcs keys operationId key nowMs = .ok ()) :
    ∃ relayKey ∈ keys, receipt.verify crypto jcs relayKey operationId key nowMs = .ok () := by
  induction keys with
  | nil => cases h
  | cons relayKey keys ih =>
    by_cases hdecodes : crypto.verifyingKey relayKey = true
    · by_cases hsettles : AllocationReceipt.Settles crypto jcs receipt operationId key nowMs relayKey
      · rw [AllocationReceipt.verifyBytes_cons_settled hsettles] at h
        exact ⟨relayKey, List.mem_cons_self, h⟩
      · rw [AllocationReceipt.verifyBytes_cons_passed hdecodes hsettles] at h
        obtain ⟨other, hother, hverify⟩ := ih h
        exact ⟨other, List.mem_cons_of_mem _ hother, hverify⟩
    · rw [AllocationReceipt.verifyBytes_cons_undecodable (eq_false_of_ne_true hdecodes)] at h
      cases h

/-- The parts of two receipts that are signed alike are the same. -/
theorem signedParts_inj {jcs : Allocation → Uuid → String → Nat → Option Bytes}
    (hjcs : ∀ a o k t a' o' k' t' json, jcs a o k t = some json → jcs a' o' k' t' = some json →
      a = a' ∧ o = o' ∧ k = k') {r r' : AllocationReceipt} {message : Bytes}
    (h : r.signedBytes jcs = .ok message) (h' : r'.signedBytes jcs = .ok message) :
    r.allocation = r'.allocation ∧ r.operationId = r'.operationId ∧ r.adminKeySha256 = r'.adminKeySha256 := by
  simp only [AllocationReceipt.signedBytes, bind_eq_ok, found_eq_ok, Except.ok.injEq] at h h'
  obtain ⟨_, -, json, hjson, rfl⟩ := h
  obtain ⟨_, -, json', hjson', heq⟩ := h'
  rw [List.append_cancel_left heq] at hjson'
  exact hjcs _ _ _ _ _ _ _ _ _ hjson hjson'

/-- **Agreement on the installation.** If nothing verifies under the pinned keys but what the relay has
signed: in every run, the receipt a Signer accepts names the installation and the hostname that the store
has under the Signer's key and operation ID, and that key has signed a request for it. -/
theorem receipt_for_own_installation {receipt : AllocationReceipt} {keys : List Bytes32}
    {operationId : Uuid} {nowMs : Nat} (h : EnrollmentRun R tr s)
    (hjcs : ∀ a o k t a' o' k' t' json, R.jcsReceipt a o k t = some json →
      R.jcsReceipt a' o' k' t' = some json → a = a' ∧ o = o' ∧ k = k')
    (hsha : ∀ k k' : Bytes32, sha256Hex R.crypto (beBytes 32 k) = sha256Hex R.crypto (beBytes 32 k') →
      k = k')
    (hforge : ∀ relayKey ∈ keys, ∀ message signature,
      R.crypto.verifies relayKey message signature = true →
        ∃ signed ∈ s.receipts, signed.signedBytes R.jcsReceipt = .ok message)
    (haccept : receipt.verifyBytes R.crypto R.jcsReceipt keys operationId key nowMs = .ok ()) :
    LeadsTo s.store.db operationId receipt.allocation.installationId key receipt.allocation.hostname ∧
      ∃ q, q.operationId = operationId ∧ Admitted R tr q key := by
  obtain ⟨relayKey, hkey, hverify⟩ := exists_verify_of_verifyBytes haccept
  simp only [AllocationReceipt.verify, bind_eq_ok, require_eq_ok, found_eq_ok] at hverify
  obtain ⟨_, -, _, ⟨hoperation, hown, -⟩, signature, -, message, hmessage, hverifies⟩ := hverify
  obtain ⟨signed, hsigned, hsame⟩ := hforge relayKey hkey message signature hverifies
  obtain ⟨hallocation, hid, hhash⟩ := signedParts_inj hjcs hmessage hsame
  obtain ⟨q, key', hgranted, hq, hkey'⟩ := (enrollmentInv_of_run h).receipts signed hsigned
  obtain rfl : key = key' := hsha _ _ (hown.symm.trans (hhash.trans hkey'))
  have hop : q.operationId = operationId := hq.symm.trans (hid.symm.trans hoperation)
  have hrow := hgranted.row
  rw [hop, ← hallocation] at hrow
  exact ⟨hrow, q, hop, hgranted.admitted⟩

/-! A relay that signs for one installation; its receipt key is `1`. -/

def homeAllocation : Allocation :=
  ⟨1, 7, "aaaaaaaaaaaaaaaaaaaaaaaaaa.relay.bloom.directory", "eu-1", .pendingDns⟩

def homeRelay : Relay where
  toApiConfig := { retryConfig with
    crypto := { retryConfig.crypto with
      sha256 := fun bytes => (bytes32? bytes).getD 0
      verifies := fun key message _ => key = 0 ∨ message = utf8 "bloom-relay/allocation-receipt/v1\x00" } }
  jcsReceipt := fun a o k _ => if a = homeAllocation ∧ o = 1 ∧ k = zeroHash then some [] else none
  sign := fun _ => some ""

def homeRequest : SignedRequest AllocateRequest :=
  ⟨⟨1, 0, .surfaceAdmin, .enroll, 0, retryConfig.audience, 1, "nonce", 60000, zeroHash⟩,
    ⟨"", "nonce", 1⟩, ""⟩

def homeChallenge : Call := ⟨.default, 0, .createBootstrapChallenge "nonce" (.v4 0)⟩
def homeConsume : Call := ⟨.default, 0, .consumeBootstrapChallenge "nonce" (.v4 0)⟩

def homeDb (calls : List Call) : Db := (runOf homeRelay.crypto.sha256 calls).2

def homeReceipt : AllocationReceipt := unsignedReceipt homeRelay homeRequest.body 0 homeAllocation 0

theorem receipt_for_own_installation_enrolled :
    ∃ tr s, EnrollmentRun homeRelay tr s ∧ LeadsTo s.store.db 1 7 0 homeAllocation.hostname ∧
      ∃ q, q.operationId = 1 ∧ Admitted homeRelay tr q 0 := by
  have hcheck : enrollCheck homeRelay.toApiConfig homeRequest 0 = .ok 0 := by decide +kernel
  have hconsume : homeConsume.exec homeRelay.crypto.sha256 (homeDb [homeChallenge]) =
      .ok (.flag true, homeDb [homeConsume, homeChallenge]) := by decide +kernel
  have hanswer : (enrolledCall.exec homeRelay.crypto.sha256
      (homeDb [homeConsume, homeChallenge])).map Prod.fst = .ok (.allocation homeAllocation) := by
    decide +kernel
  have hmessage : homeReceipt.signedBytes homeRelay.jcsReceipt =
      .ok (utf8 "bloom-relay/allocation-receipt/v1\x00") := by decide +kernel
  have haccept : homeReceipt.verifyBytes homeRelay.crypto homeRelay.jcsReceipt [1] 1 0 0 = .ok () := by
    decide +kernel
  have hissued : EnrollmentRun homeRelay _ _ := Run.refl.snoc (.store (a := .call homeChallenge) rfl)
  have hconsumed := hissued.snoc (.consume hcheck rfl hconsume)
  have hallocated := hconsumed.snoc (.allocate (a := .call enrolledCall) List.mem_cons_self rfl
    (congrArg (fun r => some (enrolledCall, r)) hanswer) rfl)
  have hrun := hallocated.snoc (.sign List.mem_cons_self hmessage rfl)
  refine ⟨_, _, hrun, receipt_for_own_installation hrun ?_ (fun k k' h => ?_) ?_ haccept⟩
  · intro a o k t a' o' k' t' json h h'
    obtain ⟨⟨rfl, rfl, rfl⟩, -⟩ := Option.ite_none_right_eq_some.mp h
    obtain ⟨⟨rfl, rfl, rfl⟩, -⟩ := Option.ite_none_right_eq_some.mp h'
    exact ⟨rfl, rfl, rfl⟩
  · have hread := bytes32?_sha256Hex homeRelay.crypto (beBytes 32 k)
    rw [h, bytes32?_sha256Hex] at hread
    simpa only [homeRelay, bytes32?_beBytes, Option.getD_some, Option.some.injEq] using hread.symm
  · intro relayKey hkey message signature h
    obtain rfl := List.mem_singleton.mp hkey
    rcases of_decide_eq_true h with hzero | rfl
    · cases hzero
    · exact ⟨_, List.mem_cons_self, hmessage⟩

end BloomRelay.Control
