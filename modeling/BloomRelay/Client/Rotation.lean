import BloomRelay.Client.Basic
import BloomRelay.Control.Handlers
import BloomRelay.Store.Overlap

/-!
# Rotating a bearer (`bloom-relay-client`)

`renew_scoped_credential`, up to the request and from the answer on, and the Broker that calls it. The
Broker puts the new token and the operation ID aside before the call, replaces its credential file after
the receipt, and repeats the call with the same values until then. A request may be lost, delayed,
served out of order and served twice; so may an answer. Calls to the store overlap.
-/

namespace BloomRelay.Client

open Protocol Store Control Checked

/-! ## The call -/

/-- `CredentialIssueReceipt`. -/
structure CredentialIssueReceipt where
  version : Nat
  scope : Scope
  generation : Nat
  operationId : Uuid
  expiresAtMs : Nat
  deriving DecidableEq

/-- A request and the bearer it is sent with. -/
structure SentRenewal where
  request : CredentialRenewRequest
  bearer : String
  deriving DecidableEq

/-- `renew_scoped_credential` up to the request. The nonce is a new UUID as text. -/
def renewRequest (crypto : Crypto) (installationId : Uuid) (scope : Scope) (generation : Nat)
    (file : Option CredentialFile) (newToken : String) (operationId : Uuid) (nonce : String)
    (nowMs : Nat) : Except ClientError SentRenewal := do
  require ((scope = .tunnel ∨ scope = .dnsChallenge) ∧ generation ≠ 0 ∧ installationId ≠ 0 ∧
    operationId ≠ 0) .invalidConfiguration
  validateToken newToken
  let current ← readCredential file
  .ok ⟨⟨wireVersion, installationId, scope, generation, operationId, nonce, saturatingAdd nowMs 30000,
    sha256Hex crypto (utf8 newToken)⟩, current⟩

/-- `renew_scoped_credential` from the answer on. -/
def acceptReceipt (scope : Scope) (generation : Nat) (operationId : Uuid)
    (receipt : CredentialIssueReceipt) (nowMs : Nat) : Except ClientError CredentialIssueReceipt := do
  require (receipt.version = wireVersion ∧ receipt.scope = scope ∧ receipt.operationId = operationId ∧
    generation < receipt.generation ∧
    trustedResponseExpiry receipt.expiresAtMs nowMs 86400000 = true) .rejected
  .ok receipt

/-! ## The handler -/

/-- The arguments of a `renew_bearer`. -/
structure Renewal where
  installationId : Uuid
  operationId : Uuid
  scope : String
  generation : Nat
  currentToken : String
  newTokenHash : Bytes32
  deriving DecidableEq

/-- What a transaction renews. -/
def renewal? : StoreOp → Option Renewal
  | .renewBearer installationId operationId scope generation currentToken newTokenHash =>
    some ⟨installationId, operationId, scope, generation, currentToken, newTokenHash⟩
  | _ => none

/-- The transaction that `renew_credential` makes for a request that arrives at `clock`. -/
def SentRenewal.renewal? (sent : SentRenewal) (clock : Time) : Option Renewal :=
  match renewCredential sent.request (some ("Bearer " ++ sent.bearer)) clock with
  | .ok serving =>
    match serving.call with
    | .transaction op => Client.renewal? op
    | _ => none
  | .error _ => none

/-- The body that `renew_credential` answers a result of the store with. -/
def SentRenewal.receipt? (sent : SentRenewal) : Except StoreError Reply → Option CredentialIssueReceipt
  | .ok (.receipt generation expiresAtMs) =>
    some ⟨wireVersion, sent.request.scope, generation, sent.request.operationId, expiresAtMs⟩
  | _ => none

/-! ## The Broker -/

/-- Whose bearer is rotated. -/
structure Broker where
  crypto : Crypto
  installationId : Uuid
  scope : BearerScope

/-- The scope as the client names it. -/
def wireScope : BearerScope → Scope
  | .tunnel => .tunnel
  | .dnsChallenge => .dnsChallenge

/-- What the Broker puts aside before it calls. -/
structure Pending where
  newToken : String
  operationId : Uuid
  deriving DecidableEq

/-- The file that the Broker replaces the old one with. -/
def credentialFile (token : String) : CredentialFile := ⟨true, token.utf8ByteSize, 0o600, some token⟩

structure Rotation where
  store : Overlap
  file : CredentialFile
  generation : Nat
  pending : Option Pending
  /-- The requests that may still be served. -/
  sent : List SentRenewal
  /-- The answers that may still arrive. -/
  receipts : List CredentialIssueReceipt

inductive RotationAction where
  /-- A step of another call to the store. -/
  | store (a : OverlapAction)
  /-- The Broker puts a new token aside. -/
  | prepare (newToken : String) (operationId : Uuid)
  /-- The Broker calls `renew_scoped_credential`. -/
  | send (nonce : String) (nowMs : Nat)
  /-- A step of the call that the handler makes for a request. -/
  | serve (sent : SentRenewal) (clock : Time) (a : OverlapAction)
  /-- The call returns a receipt, and the Broker replaces its file. -/
  | receive (receipt : CredentialIssueReceipt) (nowMs : Nat)

variable (b : Broker)

def Rotation.step (s : Rotation) : RotationAction → Option Rotation
  | .store a => (s.store.step b.crypto.sha256 a).map fun store => { s with store }
  | .prepare newToken operationId =>
    if s.pending = none ∧ tokenForm newToken = true then
      some { s with pending := some ⟨newToken, operationId⟩ }
    else none
  | .send nonce nowMs =>
    match s.pending with
    | none => none
    | some p =>
      match renewRequest b.crypto b.installationId (wireScope b.scope) s.generation (some s.file)
          p.newToken p.operationId nonce nowMs with
      | .ok request => some { s with sent := request :: s.sent }
      | .error _ => none
  | .serve sent clock a =>
    if sent ∈ s.sent ∧ (sent.renewal? clock).isSome = true ∧
        (s.store.call? a).bind (fun call => renewal? call.op) = sent.renewal? clock then
      (s.store.step b.crypto.sha256 a).map fun store =>
        { s with
          store := store
          receipts := ((s.store.answer? b.crypto.sha256 a).bind fun answer =>
            sent.receipt? answer.2).toList ++ s.receipts }
    else none
  | .receive receipt nowMs =>
    match s.pending with
    | none => none
    | some p =>
      if receipt ∈ s.receipts then
        match acceptReceipt (wireScope b.scope) s.generation p.operationId receipt nowMs with
        | .ok receipt =>
          some { s with
            file := credentialFile p.newToken
            generation := receipt.generation
            pending := none }
        | .error _ => none
      else none

def RotationStep (s : Rotation) (a : RotationAction) (s' : Rotation) : Prop := s.step b a = some s'

abbrev RotationEvent := Event Rotation RotationAction

end BloomRelay.Client
