import BloomRelay.Store.Ops

/-!
# Requests with an operation ID

The five operations that are recorded in `operations`, as the requests a caller makes: their kind and
the parameters that a retry has to repeat. `digested?` is what the digest column of a record is taken
of; an allocation records zeros there.
-/

namespace BloomRelay.Store

open Protocol

/-- A request under an operation ID. The generation is the `u64` of the call. -/
inductive Request where
  | allocate (adminPublicKey : Bytes32) (placement : String)
  | issue (installationId : Uuid) (scope : String) (validitySeconds : Int) (tokenHash : Bytes32)
  | renew (installationId : Uuid) (scope : String) (generation : BitVec 64)
      (oldHash newTokenHash : Bytes32)
  | retire (installationId : Uuid)
  | relocate (installationId : Uuid) (placement : String)
  deriving DecidableEq

namespace Request

/-- The recorded kind, of a request whose scope is one. -/
def kind? : Request → Option OperationKind
  | .allocate _ _ => some .allocate
  | .issue _ scope _ _ => (BearerScope.parse? scope).map .issue
  | .renew _ scope _ _ _ => (BearerScope.parse? scope).map .renew
  | .retire _ => some .retire
  | .relocate _ _ => some .relocate

/-- The installation a request names; an allocation makes its own. -/
def installationId? : Request → Option Uuid
  | .allocate _ _ => none
  | .issue installationId _ _ _ | .renew installationId _ _ _ _ => some installationId
  | .retire installationId | .relocate installationId _ => some installationId

/-- The bytes whose digest a retry is compared by. -/
def digested? : Request → Option Bytes
  | .issue _ scope validitySeconds tokenHash =>
    some (utf8 "bloom-relay/issue-bearer/v1\x00" ++ utf8 scope ++
      beBytes 4 (BitVec.ofInt 32 validitySeconds) ++ beBytes 32 tokenHash)
  | .renew _ scope generation oldHash newTokenHash =>
    some (utf8 "bloom-relay/renew-bearer/v1\x00" ++ utf8 scope ++ beBytes 8 generation ++
      beBytes 32 oldHash ++ beBytes 32 newTokenHash)
  | .relocate installationId placement =>
    some (utf8 "bloom-relay/relocate/v1\x00" ++ beBytes 16 installationId ++ utf8 placement)
  | .allocate _ _ | .retire _ => none

/-- The validity of an issue is one of the accepted ones. -/
def accepted : Request → Bool
  | .issue _ _ validitySeconds _ => 60 ≤ validitySeconds ∧ validitySeconds ≤ 86400
  | _ => true

end Request

/-- The operation ID and the request of a call that records one. -/
def StoreOp.request? (sha256 : Bytes → Bytes32) : StoreOp → Option (Uuid × Request)
  | .allocate operationId adminPublicKey placement _ _ =>
    some (operationId, .allocate adminPublicKey placement)
  | .issueBearer installationId operationId scope tokenHash validitySeconds =>
    some (operationId, .issue installationId scope validitySeconds tokenHash)
  | .renewBearer installationId operationId scope generation currentToken newTokenHash =>
    some (operationId, .renew installationId scope (BitVec.ofNat 64 generation)
      (sha256 (utf8 currentToken)) newTokenHash)
  | .retire installationId operationId => some (operationId, .retire installationId)
  | .relocate installationId operationId placement =>
    some (operationId, .relocate installationId placement)
  | _ => none

section Sha256

variable (sha256 : Bytes → Bytes32)

/-- The record is one of this request. -/
structure Request.RecordedAs (q : Request) (o : Operation) : Prop where
  kind : q.kind? = some o.kind
  installation : ∀ i, q.installationId? = some i → o.installationId = i
  digest : ∀ b, q.digested? = some b → o.requestDigest = sha256 b
  accepted : q.accepted = true

/-- What a transaction does to the recorded operations: nothing, or it records its request for an
installation that exists. -/
inductive Records (op : StoreOp) (db db' : Db) : Prop where
  | same (h : db'.operations = db.operations)
  | new (o : Operation) (q : Request) (hins : db.operations.insert? o = some db'.operations)
      (hreq : op.request? sha256 = some (o.operationId, q)) (hq : q.RecordedAs sha256 o)
      (hinst : db'.installations.find? o.installationId ≠ none)

end Sha256

end BloomRelay.Store
