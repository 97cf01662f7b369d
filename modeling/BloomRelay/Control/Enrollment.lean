import BloomRelay.Control.Handlers
import BloomRelay.Protocol.Receipt
import BloomRelay.Store.Overlap

/-!
# Enrollment (`bloom-relay-control`)

`enroll` in its atomic sections, among the calls of all other handlers: it checks the request and consumes
the bootstrap challenge, allocates, and signs the receipt. The Signer verifies the receipt that reaches it.
-/

namespace BloomRelay.Control

open Protocol Store

/-- The handlers with the receipt signer. -/
structure Relay extends ApiConfig where
  /-- `serde_jcs::to_vec` of the signed parts of a receipt. -/
  jcsReceipt : Allocation → Uuid → String → Nat → Option Bytes
  /-- `ReceiptSigner::sign`, encoded. -/
  sign : Bytes → Option String

/-- A receipt before it is signed. -/
def unsignedReceipt (R : Relay) (q : AllocateRequest) (key : Bytes32) (allocation : Allocation)
    (nowMs : Nat) : AllocationReceipt :=
  ⟨allocation, q.operationId, sha256Hex R.crypto (beBytes 32 key), nowMs, ""⟩

structure Enrollment where
  store : Overlap
  /-- The requests whose challenge was consumed, with their keys. -/
  admitted : List (AllocateRequest × Bytes32)
  allocated : List (AllocateRequest × Bytes32 × Allocation)
  /-- The receipts that were signed. -/
  receipts : List AllocationReceipt

inductive EnrollmentAction where
  /-- A step of a call, also one of `allocate` up to its lookup. -/
  | store (a : OverlapAction)
  | consume (q : SignedRequest AllocateRequest) (clock : Time) (call : Call)
  | allocate (q : AllocateRequest) (key : Bytes32) (a : OverlapAction)
  | sign (receipt : AllocationReceipt)

inductive EnrollmentStep (R : Relay) (s : Enrollment) : EnrollmentAction → Enrollment → Prop where
  | store {a : OverlapAction} {store : Overlap} (hs : OverlapStep R.crypto.sha256 s.store a store) :
      EnrollmentStep R s (.store a) { s with store }
  | consume {q : SignedRequest AllocateRequest} {clock : Time} {key : Bytes32} {call : Call}
      {source : IpAddr} {db : Db} (hcheck : enrollCheck R.toApiConfig q clock = .ok key)
      (hop : call.op = .consumeBootstrapChallenge q.body.bootstrapNonce source)
      (hexec : call.exec R.crypto.sha256 s.store.db = .ok (.flag true, db)) :
      EnrollmentStep R s (.consume q clock call)
        { s with store := { s.store with db }, admitted := (q.body, key) :: s.admitted }
  | allocate {q : AllocateRequest} {key : Bytes32} {a : OverlapAction} {store : Overlap} {call : Call}
      {allocation : Allocation} {id : Uuid} {random : BitVec 128} (hq : (q, key) ∈ s.admitted)
      (hs : OverlapStep R.crypto.sha256 s.store a store)
      (hans : s.store.answer? R.crypto.sha256 a = some (call, .ok (.allocation allocation)))
      (hop : (enroll R.toApiConfig q key id random).call = .transaction call.op) :
      EnrollmentStep R s (.allocate q key a)
        { s with store, allocated := (q, key, allocation) :: s.allocated }
  | sign {q : AllocateRequest} {key : Bytes32} {allocation : Allocation} {nowMs : Nat} {message : Bytes}
      {signature : String} (hq : (q, key, allocation) ∈ s.allocated)
      (hmessage : (unsignedReceipt R q key allocation nowMs).signedBytes R.jcsReceipt = .ok message)
      (hsign : R.sign message = some signature) :
      EnrollmentStep R s (.sign { unsignedReceipt R q key allocation nowMs with signature })
        { s with receipts := { unsignedReceipt R q key allocation nowMs with signature } :: s.receipts }

def Enrollment.start : Enrollment := ⟨.start, [], [], []⟩

abbrev EnrollmentRun (R : Relay) : List (Event Enrollment EnrollmentAction) → Enrollment → Prop :=
  Run (EnrollmentStep R) .start

end BloomRelay.Control
